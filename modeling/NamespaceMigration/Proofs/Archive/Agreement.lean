import NamespaceMigration.Proofs.Archive.Related

/-! Profiles that find their token at the same places convert alike, whatever their names and rules are. -/

namespace NamespaceMigration

variable {p q : Profile}

structure Profile.Agrees (p q : Profile) : Prop where
  source : p.source = q.source
  target : p.target = q.target
  positions : ∀ s : List Char, p.positions s = q.positions s
  positions_bytes : ∀ bs : Bytes, p.positions bs = q.positions bs

-- the first of the rules that match counts, so that no second copy of them does
lemma Profile.matchLength?_append_self {α : Type} [BEq α] [Alphabet α] (rules : List Rule) (token : List α) :
    matchLength? (rules ++ rules) token = matchLength? rules token := by
  funext s
  simp only [matchLength?, List.findSome?_append, Option.or_self]

lemma Profile.agrees_append_self (p : Profile) : p.Agrees { p with rules := p.rules ++ p.rules } := by
  refine ⟨rfl, rfl, fun s => ?_, fun bs => ?_⟩
  · simp only [positions, matchLength?_append_self]
  · simp only [positions, matchLength?_append_self]

namespace Profile.Agrees

lemma isTrivial (h : p.Agrees q) : p.isTrivial = q.isTrivial := by
  rw [Profile.isTrivial, Profile.isTrivial, h.source, h.target]

lemma migrate (h : p.Agrees q) (s : String) : p.migrate s = q.migrate s := by
  simp only [Profile.migrate, migrateSymbols, h.positions, h.isTrivial, h.source, h.target]

lemma migrateBytes (h : p.Agrees q) (bs : Bytes) : p.migrateBytes bs = q.migrateBytes bs := by
  simp only [Profile.migrateBytes, migrateSymbols, h.positions_bytes, h.isTrivial, h.source, h.target]

lemma settle (h : p.Agrees q) (exists? : Resolver) : p.settle exists? = q.settle exists? := by
  funext result fragment
  simp only [Profile.settle, namedClass?, revert, h.source, h.target]

lemma migrateConstant (h : p.Agrees q) (resolver : Option Resolver) (protection : ProtectedClasses) (raw : Bytes) :
    ClassFile.migrateConstant p resolver protection raw = ClassFile.migrateConstant q resolver protection raw := by
  simp only [ClassFile.migrateConstant, migrateResolvable, resources, namedClass?, h.migrateBytes, h.migrate, h.settle, h.target]

lemma convertBytes (h : p.Agrees q) (resolver : Option Resolver) (source : Bytes) :
    ClassFile.convertBytes p resolver source = ClassFile.convertBytes q resolver source := by
  have hslot : ∀ protection, ClassFile.migrateSlot p resolver protection = ClassFile.migrateSlot q resolver protection := by
    intro protection
    funext state index
    simp only [ClassFile.migrateSlot, h.migrateConstant]
  simp only [ClassFile.convertBytes, ClassFile.migratePool, hslot, h.isTrivial]

lemma convertManifest (h : p.Agrees q) (source : Bytes) : Manifest.convertBytes p source = Manifest.convertBytes q source := by
  have hvalue : Manifest.updateValue p = Manifest.updateValue q := by
    funext name value
    simp only [Manifest.updateValue, h.migrate]
  have hsection : Manifest.updateSection p = Manifest.updateSection q := by
    funext s
    rw [Manifest.updateSection, Manifest.updateSection, hvalue]
  have hany : Manifest.migratesAny p = Manifest.migratesAny q := by
    funext s
    simp only [Manifest.migratesAny, h.migrate]
  have hmigrated : Manifest.migrated p = Manifest.migrated q := by
    funext m
    rw [Manifest.migrated, Manifest.migrated, Manifest.updated, Manifest.updated, hsection]
  rw [Manifest.convertBytes, Manifest.convertBytes, h.isTrivial, hmigrated, hany]

lemma convert (h : p.Agrees q) (r : Registry) (path : String) (source : Bytes) :
    r.convert p path source = r.convert q path source := by
  rw [Registry.convert, Registry.convert]
  cases r.find path with
  | text => simp only [Converter.convert, Converter.convertText, h.migrateBytes]
  | classFile resolver => simp only [Converter.convert, ClassFile.convert, h.convertBytes]
  | manifest => simp only [Converter.convert, Manifest.convert, h.convertManifest]
  | passThrough => rfl

end Profile.Agrees

namespace Migrator

variable {g h : Migrator}

structure Agrees (g h : Migrator) : Prop where
  format : g.format = h.format
  profile : g.profile.Agrees h.profile
  registry : g.registry = h.registry
  excludes : g.excludes = h.excludes

namespace Agrees

lemma treatment (hgh : g.Agrees h) (entry : ArchiveEntry) : g.treatment entry = h.treatment entry := by
  rw [Migrator.treatment, Migrator.treatment, hgh.profile.isTrivial, hgh.excludes]

lemma convertEntry (hgh : g.Agrees h) (entry : ArchiveEntry) (content : Bytes) :
    g.convertEntry entry content = h.convertEntry entry content := by
  rw [Migrator.convertEntry, Migrator.convertEntry, hgh.registry, hgh.profile.convert]

lemma migrateArchiveWith (hgh : g.Agrees h) (nested : String → Bytes → Except ArchiveFault Outcome) (archive : String)
    (source : Bytes) : g.migrateArchiveWith nested archive source = h.migrateArchiveWith nested archive source := by
  have hadd : g.addEntry nested archive = h.addEntry nested archive := by
    funext d entry
    simp only [addEntry, convertKept, hgh.treatment, hgh.convertEntry, hgh.profile.migrate]
  rw [Migrator.migrateArchiveWith, Migrator.migrateArchiveWith, hadd, hgh.format]

lemma migrateNested (hgh : g.Agrees h) (depth : ℕ) : g.migrateNested depth = h.migrateNested depth := by
  induction depth with
  | zero => rfl
  | succ depth ih =>
    funext archive source
    rw [Migrator.migrateNested, ih, hgh.migrateArchiveWith]
    rfl

end Agrees

end Migrator

end NamespaceMigration
