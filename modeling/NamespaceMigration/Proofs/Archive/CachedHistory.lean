import NamespaceMigration.Proofs.Archive.CachedMigrator
import NamespaceMigration.Proofs.Cache.Key
import NamespaceMigration.Proofs.Cache.Opening
import NamespaceMigration.Zip.Format

namespace NamespaceMigration.Migrator

open Steps CacheLayout

inductive Call where
  | migrate (name : String) (source : Bytes)
  | migrateArchive (archive : String) (source : Bytes)
  | convert (name : String) (source : Bytes)

inductive Reply where
  | outcome (o : Outcome)
  | conversion (c : Conversion)
  deriving DecidableEq

namespace Call

def uncached (g : Migrator) : Call → Except ArchiveFault Reply
  | migrate name source => .outcome <$> g.migrate name source
  | migrateArchive archive source => .outcome <$> g.migrateArchive archive source
  | convert name source => .conversion <$> g.convert name source

def cached (g : Migrator) (today : Date) : Call → CachedM Reply
  | migrate name source => .outcome <$> g.migrateCached today name source
  | migrateArchive archive source => .outcome <$> g.migrateArchiveCached today archive source
  | convert name source => .conversion <$> g.convertCached today name source

def archive? (g : Migrator) : Call → Option Bytes
  | migrate name source => if isArchiveName name && !g.excludes.skips name then some source else none
  | migrateArchive _ source => some source
  | convert name source => if isArchiveName name && !g.excludes.skips name then some source else none

end Call

/-- What a cache directory is used for. -/
inductive Use where
  | call (today : Date) (call : Call)
  | prune (day : Date)
  | clear
  | save
  | reopen (retention owner : ℕ) (today : Date)

namespace Use

def call? : Use → Option Call
  | call _ c => some c
  | _ => none

def step (g : Migrator) (cwd : Place) (path : RawText) (s : CacheSession) : Use → CacheSession
  | call today c => after ((c.cached g today).run s)
  | prune day => after ((Cache.prune day).run s)
  | clear => after (Cache.clear.run s)
  | save => after (Cache.save.run s)
  | reopen retention owner today =>
    match (Cache.openWith path retention owner today cwd).run s.files with
    | .ok c files => ⟨c, files⟩
    | .error _ files => { s with files := files }

end Use

def Hashed (g : Migrator) (calls : List Call) (x : Bytes) : Prop :=
  ∃ c ∈ calls, ∃ source, c.archive? g = some source ∧ g.Within source x

variable {g : Migrator} {hashed : Bytes → Prop} {ground t files : FileTree} {root cwd : Place} {path : RawText}
  {today : Date} {s : CacheSession} {c : Cache}

lemma migrateNested_withDepth (g : Migrator) (k n : ℕ) : ({ g with depth := k } : Migrator).migrateNested n = g.migrateNested n := by
  induction n with
  | zero => rfl
  | succ n ih =>
    funext archive source
    rw [migrateNested, migrateNested, ih]
    rfl

lemma migrateArchive_withDepth (g : Migrator) (k : ℕ) (archive : String) (source : Bytes) :
    ({ g with depth := k } : Migrator).migrateArchive archive source = g.migrateNested k archive source := by
  rw [migrateArchive, migrateNested_withDepth]

section Sound

variable (hp : .manifest ∈ g.registry.converters → g.profile.Foldable) (hs : g.Separates hashed)
  (hinner : ∀ source name inner, hashed source → g.Contains source name inner → hashed inner)
  (hread : ∀ source, hashed source → g.ReadsBack source)
include hp hs hinner hread

lemma simulates_cached (call : Call) (hcall : ∀ source, call.archive? g = some source → hashed source) :
    Simulates (CacheSession.Holds ground root (g.Kept hashed)) g.depth Reply (call.cached g today)
      fun k => call.uncached { g with depth := k } := by
  let archives : String → Bytes → AtDepth Outcome := fun name source k => g.migrateNested k name source
  have hat : ∀ k name source, archives name source k = ({ g with depth := k } : Migrator).migrateArchive name source :=
    fun k name source => (migrateArchive_withDepth g k name source).symm
  have harchive : ∀ name source, hashed source → Simulates (CacheSession.Holds ground root (g.Kept hashed)) g.depth
      Outcome (g.migrateArchiveCached today name source) (archives name source) :=
    fun name source hsource => simulates_migrateNestedCached hp hs hinner hread g.depth name hsource
  cases call with
  | migrate name source =>
    have hcall : isArchiveName name = true → g.excludes.skips name = false → hashed source :=
      fun hn hskip => hcall source (by simp [Call.archive?, hn, hskip])
    have hF : (fun k => Call.uncached { g with depth := k } (.migrate name source)) =
        (Reply.outcome <$> migrateWith archives g name source : AtDepth Reply) := by
      funext k
      exact ((relates_atDepth k).map _ ((relates_atDepth k).migrateWith fun _ _ => hat k name source)).symm
    rw [hF]
    exact relates_simulates.map _ (relates_simulates.migrateWith fun hn hskip => harchive name source (hcall hn hskip))
  | migrateArchive archive source =>
    have hF : (fun k => Call.uncached { g with depth := k } (.migrateArchive archive source)) =
        (Reply.outcome <$> archives archive source : AtDepth Reply) := by
      funext k
      exact ((relates_atDepth k).map _ (hat k archive source)).symm
    rw [hF]
    exact relates_simulates.map _ (harchive archive source (hcall source rfl))
  | convert name source =>
    have hcall : isArchiveName name = true → g.excludes.skips name = false → hashed source :=
      fun hn hskip => hcall source (by simp [Call.archive?, hn, hskip])
    have hF : (fun k => Call.uncached { g with depth := k } (.convert name source)) =
        (Reply.conversion <$> convertWith archives g name source : AtDepth Reply) := by
      funext k
      exact ((relates_atDepth k).map _ ((relates_atDepth k).convertWith fun _ _ => hat k name source)).symm
    rw [hF]
    exact relates_simulates.map _ (relates_simulates.convertWith fun hn hskip => harchive name source (hcall hn hskip))

lemma holds_step (hg : Cache.Leads ground cwd path root) (use : Use)
    (huse : ∀ call source, use.call? = some call → call.archive? g = some source → hashed source)
    (hsession : s.Holds ground root (g.Kept hashed)) : (use.step g cwd path s).Holds ground root (g.Kept hashed) := by
  cases use with
  | call today call =>
    have hcall : Simulates (CacheSession.Holds ground root (g.Kept hashed)) g.depth Reply (call.cached g today)
        fun k => call.uncached { g with depth := k } :=
      simulates_cached hp hs hinner hread call (huse call · rfl)
    exact (hcall.follows hsession).1
  | prune day => exact (Cache.keeps_prune day s hsession).after
  | clear => exact (Cache.keeps_clear s hsession).after
  | save => exact (Cache.keeps_save s hsession).after
  | reopen retention owner today =>
    have hopen := Cache.ensures_openWith s.files path retention owner today cwd
    rw [Ensures] at hopen
    rw [Use.step]
    cases hrun : (Cache.openWith path retention owner today cwd).run s.files with
    | ok c u =>
      rw [hrun] at hopen
      exact hopen.1.keeps hg hsession.2
    | error fault u =>
      rw [hrun] at hopen
      exact ⟨hsession.1, hsession.2.extends hopen⟩

lemma holds_history (hg : Cache.Leads ground cwd path root) (uses : List Use)
    (huses : ∀ call ∈ uses.filterMap Use.call?, ∀ source, call.archive? g = some source → hashed source)
    (hsession : s.Holds ground root (g.Kept hashed)) :
    (uses.foldl (Use.step g cwd path) s).Holds ground root (g.Kept hashed) := by
  induction uses generalizing s with
  | nil => exact hsession
  | cons use uses ih =>
    rw [List.foldl_cons]
    refine ih (fun call hcall => huses call ?_) (holds_step hp hs hinner hread hg use (fun call source hc => ?_) hsession)
    · rw [List.mem_filterMap] at hcall ⊢
      obtain ⟨use', hmem, hc⟩ := hcall
      exact ⟨use', List.mem_cons_of_mem use hmem, hc⟩
    · exact huses call (List.mem_filterMap.2 ⟨use, List.mem_cons_self, hc⟩) source

end Sound

lemma bytes_conversion {o : Outcome} {source : Bytes} (h : o.changed = false → o.bytes = source) :
    o.conversion.bytes source = o.bytes := by
  cases hc : o.changed with
  | true => simp [Outcome.conversion, Conversion.bytes, hc]
  | false => simp [Outcome.conversion, Conversion.bytes, hc, h hc]

lemma answer_convertCached {name : String} {source : Bytes} (hn : isArchiveName name = true)
    (hskip : g.excludes.skips name = false) (day : Date) (s : CacheSession) :
    (answer ((g.convertCached day name source).run s)).map (fun c => (c.bytes source, c.changed)) =
      (answer ((g.migrateCached day name source).run s)).map fun o => (o.bytes, o.changed) := by
  have hconvert : g.convertCached day name source =
      Outcome.conversion <$> g.migrateArchiveCached day name source := by
    rw [convertCached, convertWith, hskip, hn, map_eq_pure_bind]
    rfl
  have hmigrate : g.migrateCached day name source = g.migrateArchiveCached day name source := by
    rw [migrateCached, migrateWith, hskip, hn]
    rfl
  have hunchanged : Ensures s (g.migrateArchiveCached day name source)
      (fun outcome _ => outcome.changed = false → outcome.bytes = source) fun _ _ => True :=
    ensures_migrateNestedCached_unchanged day g.depth name s
  rw [hconvert, hmigrate, answer_map]
  rw [Ensures] at hunchanged
  cases hrun : (g.migrateArchiveCached day name source).run s with
  | ok outcome u =>
    rw [hrun] at hunchanged
    exact congrArg (fun bytes => Except.ok (bytes, outcome.changed)) (bytes_conversion hunchanged)
  | error fault u => rfl

/-- Answers do not depend on whether they are cached: with a cache opened on an empty directory and used by nobody
else, a migrator answers each call as it does without one, whatever calls went before and however the cache was
maintained in between. Only where it gives up for the depth without a cache, the answer may be one for a greater depth. -/
theorem answers_eq_uncached {retention owner : ℕ} (hopen : (Cache.openWith path retention owner today cwd).run t = .ok c files)
    (hempty : ∀ p, Below c.root p → t.find? p = none) (hp : .manifest ∈ g.registry.converters → g.profile.Foldable)
    (uses : List Use) (day : Date) (call : Call)
    (hhash : ∀ settings x y, g.settingsKey? = some settings → g.Hashed (call :: uses.filterMap Use.call?) x →
      g.Hashed (call :: uses.filterMap Use.call?) y →
      Sha256.hash (CacheKey.message settings x) = Sha256.hash (CacheKey.message settings y) →
      CacheKey.message settings x = CacheKey.message settings y)
    (hread : ∀ x, g.Hashed (call :: uses.filterMap Use.call?) x → g.ReadsBack x) :
    let s := uses.foldl (Use.step g cwd path) ⟨c, files⟩
    (answer ((call.cached g day).run s) = call.uncached g ∨ IsTooDeep (call.uncached g) ∧
      (IsTooDeep (answer ((call.cached g day).run s)) ∨
        ∃ limit, ∀ depth, limit ≤ depth → call.uncached { g with depth := depth } = answer ((call.cached g day).run s))) ∧
    ∀ name source, isArchiveName name = true → g.excludes.skips name = false →
      (answer ((g.convertCached day name source).run s)).map (fun c => (c.bytes source, c.changed)) =
        (answer ((g.migrateCached day name source).run s)).map fun o => (o.bytes, o.changed) := by
  intro s
  refine ⟨?_, fun name source hn hskip => answer_convertCached hn hskip day s⟩
  let hashed := g.Hashed (call :: uses.filterMap Use.call?)
  have hs : g.Separates hashed := by
    intro settings x y hk hx hy he
    have hm := hhash settings x y hk hx hy (CacheKey.compute_inj.1 he)
    rw [CacheKey.message, CacheKey.message, List.append_cancel_left_eq] at hm
    exact (List.cons.inj hm).2
  have hinner : ∀ source name inner, hashed source → g.Contains source name inner → hashed inner := by
    rintro source name inner ⟨call', hmem, outer, ho, hw⟩ hc
    exact ⟨call', hmem, outer, ho, .entry hw hc⟩
  have hcalls : ∀ call' ∈ call :: uses.filterMap Use.call?, ∀ source, call'.archive? g = some source → hashed source :=
    fun call' hmem source ha => ⟨call', hmem, source, ha, .self⟩
  have hopens := Cache.ensures_openWith t path retention owner today cwd
  rw [Ensures, hopen] at hopens
  obtain ⟨ground, hg, hsound⟩ := hopens.1.sound hempty
  have hstart : CacheSession.Holds ground c.root (g.Kept hashed) ⟨c, files⟩ := ⟨rfl, hsound _⟩
  have hsession : s.Holds ground c.root (g.Kept hashed) := holds_history hp hs hinner hread hg uses
    (fun call' hmem => hcalls call' (List.mem_cons_of_mem call hmem)) hstart
  have hsim : Simulates (CacheSession.Holds ground c.root (g.Kept hashed)) g.depth Reply (call.cached g day)
      fun k => call.uncached { g with depth := k } :=
    simulates_cached hp hs hinner hread call (hcalls call List.mem_cons_self)
  rcases (hsim.follows hsession).2 with ⟨limit, hlimit⟩ | ⟨hanswer, huncached⟩
  · rcases hsim.steady g.depth (max g.depth limit) (Nat.le_max_left _ _) with hdeep | heq
    · exact .inr ⟨hdeep, .inr ⟨limit, hlimit⟩⟩
    · exact .inl ((hlimit _ (Nat.le_max_right _ _)).symm.trans heq.symm)
  · exact .inr ⟨huncached, .inl hanswer⟩

def opened : CacheSession :=
  ⟨⟨"cache", ["cache"], 30, 0, 0, .empty⟩, after ((Cache.openWith "cache" 30 0 ⟨2024, 1, 1⟩ []).run .empty)⟩

lemma openWith_empty : (Cache.openWith "cache" 30 0 ⟨2024, 1, 1⟩ []).run .empty = .ok opened.cache opened.files :=
  eq_ok_of_answer (eq_ok_of_toOption_eq_some (by decide +kernel))

def forAll (p : Profile) : Migrator := { forZip p with excludes := .none }

def manifestArchive (text : String) : Bytes :=
  Zip.format.write [.fresh "META-INF/MANIFEST.MF" ⟨.stored, none, none⟩ (Bytes.utf8 text)]

lemma eq_of_hashed {x y : Bytes} {calls : List Call} (name : String) (hx : g.rereads x = true)
    (hcalls : ∀ call ∈ calls, call = .migrate name x) (hy : g.Hashed calls y) : y = x := by
  obtain ⟨call, hmem, source, ha, hw⟩ := hy
  rw [hcalls call hmem, Call.archive?] at ha
  split at ha
  · obtain rfl := Option.some.inj ha
    exact eq_of_within_of_rereads hx hw
  · cases ha

theorem answers_eq_uncached_of_manifest :
    let x := manifestArchive "X: javax.servlet\r\n\r\n"
    let uses : List Use := [.call ⟨2024, 1, 1⟩ (.migrate "a.jar" x), .save, .reopen 30 1 ⟨2024, 1, 2⟩]
    answer (((Call.migrate "a.jar" x).cached (forAll BuiltIn.tomcatProfile) ⟨2024, 1, 2⟩).run
      (uses.foldl (Use.step (forAll BuiltIn.tomcatProfile) [] "cache") opened)) =
        .ok (.outcome ⟨manifestArchive "X: jakarta.servlet\r\n\r\n", true, []⟩) := by
  intro x uses
  have hx : (forAll BuiltIn.tomcatProfile).rereads x = true := by decide +kernel
  have huncached : (Call.migrate "a.jar" x).uncached (forAll BuiltIn.tomcatProfile) =
      .ok (.outcome ⟨manifestArchive "X: jakarta.servlet\r\n\r\n", true, []⟩) :=
    eq_ok_of_toOption_eq_some (by decide +kernel)
  have hempty : ∀ p, Below opened.cache.root p → FileTree.empty.find? p = none :=
    fun p hp => FileTree.find?_of_ne hp.ne_nil
  have hp : .manifest ∈ (forAll BuiltIn.tomcatProfile).registry.converters → BuiltIn.tomcatProfile.Foldable :=
    fun _ => ⟨by decide, by decide⟩
  have hhashed : ∀ y, Hashed (forAll BuiltIn.tomcatProfile) [.migrate "a.jar" x, .migrate "a.jar" x] y → y = x :=
    fun y => eq_of_hashed "a.jar" hx (by simp)
  obtain ⟨h | ⟨⟨archive, hdeep⟩, -⟩, -⟩ := answers_eq_uncached openWith_empty hempty hp uses ⟨2024, 1, 2⟩
    (.migrate "a.jar" x) (fun settings y z _ hy hz _ => by rw [hhashed y hy, hhashed z hz])
    (fun y hy => hhashed y hy ▸ readsBack_of_rereads hx)
  · exact h.trans huncached
  · rw [hdeep] at huncached
    cases huncached

/-- A target that breaks lines: a manifest with the target broken up comes out as it was and yet converted, but is
taken from the cache as not converted. -/
theorem answers_ne_uncached_of_folded :
    let g := forAll ⟨"N", "javax", "ja\r\n vax", [⟨["servlet"], [], []⟩]⟩
    let x := manifestArchive "X: ja\r\n vax.servlet\r\n\r\n"
    (∀ y, g.Hashed [.migrate "a.jar" x, .migrate "a.jar" x] y → y = x) ∧ g.ReadsBack x ∧
      (Call.migrate "a.jar" x).uncached g = .ok (.outcome ⟨x, true, []⟩) ∧
      answer (((Call.migrate "a.jar" x).cached g ⟨2024, 1, 1⟩).run
        (Use.step g [] "cache" opened (.call ⟨2024, 1, 1⟩ (.migrate "a.jar" x)))) = .ok (.outcome ⟨x, false, []⟩) := by
  intro g x
  have hx : g.rereads x = true := by decide +kernel
  refine ⟨fun y => eq_of_hashed "a.jar" hx (by simp), readsBack_of_rereads hx, ?_, ?_⟩
  · exact eq_ok_of_toOption_eq_some (by decide +kernel)
  · exact eq_ok_of_toOption_eq_some (by decide +kernel)

end NamespaceMigration.Migrator
