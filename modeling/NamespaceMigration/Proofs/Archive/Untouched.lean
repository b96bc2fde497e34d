import Mathlib.Data.List.Nodup
import NamespaceMigration.Proofs.Archive.Entries
import NamespaceMigration.Proofs.ClassFile.PoolMigration

/-! Migrations under a profile whose tokens are the same. -/

namespace NamespaceMigration

def Converter.Parses : Converter → Bytes → Prop
  | .classFile _, content => ∃ c, ClassFile.parse content = .ok c
  | _, _ => True

section Conversions

variable {p : Profile} (hp : p.isTrivial = true) {path : String} {content : Bytes} {c : Conversion}
include hp

lemma Profile.migrate_of_isTrivial (s : String) : p.migrate s = ⟨s, false⟩ := by
  rw [migrate, migrateSymbols_of_isTrivial hp, String.ofList_toList]

lemma Converter.convert_eq_ok_iff_of_isTrivial {converter : Converter} :
    converter.convert p path content = .ok c ↔ converter.Parses content ∧ c = .kept := by
  match converter with
  | .text =>
    have hkept : convertText p content = .kept := by
      rw [convertText, Profile.migrateBytes, Profile.migrateSymbols_of_isTrivial hp]
      rfl
    simp [convert, Parses, hkept, eq_comm]
  | .classFile resolver => exact ClassFile.convert_eq_ok_iff_of_isTrivial hp
  | .manifest =>
    have hkept : Manifest.convert p path content = .ok .kept := by
      rw [Manifest.convert, mapError_eq_ok_iff, Manifest.convertBytes, if_pos hp]
      rfl
    simp [convert, Parses, hkept, eq_comm]
  | .passThrough => simp [convert, Parses, eq_comm]

end Conversions

namespace Migrator

/-- Whether an entry can be read, given which archives can: there is something at its place, and what is not copied
as it is can be unpacked and has its form. -/
structure ReadsEntry (g : Migrator) (readable : Bytes → Prop) (entry : ArchiveEntry) : Prop where
  body : entry.body.isSome
  nested : g.treatment entry = .nested → ∃ content ∈ entry.content?, readable content
  converted : g.treatment entry = .converted → ∃ content ∈ entry.content?, (g.registry.find entry.name).Parses content

def ReadsThrough (g : Migrator) : ℕ → Bytes → Prop
  | 0, _ => False
  | depth + 1, source => ∃ entries, g.format.list source = some entries ∧ (entries.map ArchiveEntry.name).Nodup ∧
      ∀ entry ∈ entries, g.ReadsEntry (g.ReadsThrough depth) entry

def Reads (g : Migrator) (name : String) (source : Bytes) : Prop :=
  g.excludes.skips name = true ∨
    if isArchiveName name then g.ReadsThrough g.depth source else (g.registry.find name).Parses source

structure Draft.Untouched (d : Draft) (seen : List ArchiveEntry) : Prop where
  names : d.written.map OutputEntry.name = seen.map ArchiveEntry.name
  nodup : (seen.map ArchiveEntry.name).Nodup
  changed : d.changed = false
  asked : d.asked = []

section Trivial

variable {g : Migrator} (hp : g.profile.isTrivial = true) {nested : String → Bytes → Except ArchiveFault Outcome}
  {readable : Bytes → Prop} {archive name : String} {source : Bytes} {entry : ArchiveEntry} {body : EntryBody} {d : Draft}
  {seen entries : List ArchiveEntry} {outcome : Outcome}
include hp

lemma treatment_ne_dropped : g.treatment entry ≠ .dropped := by
  rw [ne_eq, treatment_eq_dropped_iff, hp]
  nofun

lemma convertKept_eq_ok_iff_of_isTrivial {c : Conversion} (hb : entry.body = some body)
    (hn : ∀ name content outcome, nested name content = .ok outcome ↔ readable content ∧ outcome = ⟨content, false, []⟩) :
    g.convertKept nested archive entry body = .ok c ↔ g.ReadsEntry readable entry ∧ c = .kept := by
  have hconvert : ∀ content, g.convertEntry entry content = .ok c ↔
      (g.registry.find entry.name).Parses content ∧ c = .kept := by
    intro content
    rw [convertEntry, mapError_eq_ok_iff, Registry.convert]
    exact Converter.convert_eq_ok_iff_of_isTrivial hp
  have hreads : g.ReadsEntry readable entry ↔
      (g.treatment entry = .nested → ∃ content, body.content = .ok content ∧ readable content) ∧
      (g.treatment entry = .converted → ∃ content, body.content = .ok content ∧ (g.registry.find entry.name).Parses content) := by
    simp only [← mem_content?_iff hb]
    exact ⟨fun h => ⟨h.nested, h.converted⟩, fun h => ⟨by simp [hb], h.1, h.2⟩⟩
  rw [convertKept_eq_ok_iff, hreads]
  cases ht : g.treatment entry with
  | dropped => exact absurd ht (treatment_ne_dropped hp)
  | copied => simp
  | nested =>
    simp only [hn, true_and, reduceCtorEq, false_and, or_false, forall_const, false_imp_iff, and_true, ne_eq, not_true_eq_false,
      ← exists_and_right, and_assoc]
    refine exists_congr fun content => and_congr_right fun _ => ?_
    constructor
    · rintro ⟨outcome, hr, rfl, rfl⟩
      exact ⟨hr, rfl⟩
    · rintro ⟨hr, rfl⟩
      exact ⟨_, hr, rfl, rfl⟩
  | converted =>
    simp [hconvert, ← exists_and_right, and_assoc]

section Steps

variable (hn : ∀ name content outcome, nested name content = .ok outcome ↔ readable content ∧ outcome = ⟨content, false, []⟩)
include hn

lemma Draft.Untouched.addEntry (hd : d.Untouched seen) {d' : Draft} (h : g.addEntry nested archive d entry = .ok d') :
    g.ReadsEntry readable entry ∧ d'.Untouched (entry :: seen) := by
  obtain ⟨body, hb, ⟨ht, -⟩ | ⟨-, c, hc, htaken, rfl⟩⟩ := addEntry_eq_ok_iff.1 h
  · exact absurd ht (treatment_ne_dropped hp)
  · obtain ⟨hreads, rfl⟩ := (convertKept_eq_ok_iff_of_isTrivial hp hb hn).1 hc
    rw [Profile.migrate_of_isTrivial hp, Draft.isTaken_eq_false_iff, hd.names] at htaken
    rw [Profile.migrate_of_isTrivial hp]
    refine ⟨hreads, ?_, ?_, ?_, ?_⟩
    · rw [List.map_cons, List.map_cons, name_output]
      exact congrArg _ hd.names
    · exact List.nodup_cons.2 ⟨htaken, hd.nodup⟩
    · simp [Draft.note, hd.changed, Conversion.kept]
    · simp [Draft.note, hd.asked, Conversion.kept]

lemma Draft.Untouched.exists_addEntry (hd : d.Untouched seen) (hreads : g.ReadsEntry readable entry)
    (hname : entry.name ∉ seen.map ArchiveEntry.name) : ∃ d', g.addEntry nested archive d entry = .ok d' := by
  obtain ⟨body, hb⟩ := Option.isSome_iff_exists.1 hreads.body
  have htaken : d.isTaken (g.profile.migrate entry.name).value = false := by
    rw [Profile.migrate_of_isTrivial hp, Draft.isTaken_eq_false_iff, hd.names]
    exact hname
  have hc : g.convertKept nested archive entry body = .ok .kept :=
    (convertKept_eq_ok_iff_of_isTrivial hp hb hn).2 ⟨hreads, rfl⟩
  exact ⟨_, addEntry_eq_ok_iff.2 ⟨body, hb, .inr ⟨treatment_ne_dropped hp, _, hc, htaken, rfl⟩⟩⟩

lemma Draft.Untouched.foldlM (hd : d.Untouched []) {d' : Draft} (h : entries.foldlM (g.addEntry nested archive) d = .ok d') :
    (∀ entry ∈ entries, g.ReadsEntry readable entry) ∧ d'.Untouched entries.reverse := by
  have hall : (∀ entry ∈ entries.reverse ++ [], g.ReadsEntry readable entry) ∧ d'.Untouched (entries.reverse ++ []) := by
    refine foldlM_induction (I := fun seen d => (∀ entry ∈ seen, g.ReadsEntry readable entry) ∧ d.Untouched seen)
      ⟨by simp, hd⟩ ?_ h
    rintro entry - seen b b' ⟨hseen, hb⟩ hadd
    obtain ⟨hreads, hb'⟩ := hb.addEntry hp hn hadd
    exact ⟨List.forall_mem_cons.2 ⟨hreads, hseen⟩, hb'⟩
  rw [List.append_nil] at hall
  exact ⟨fun entry he => hall.1 entry (List.mem_reverse.2 he), hall.2⟩

lemma Draft.Untouched.exists_foldlM (hd : d.Untouched seen) (hreads : ∀ entry ∈ entries, g.ReadsEntry readable entry)
    (hnodup : ((entries.reverse ++ seen).map ArchiveEntry.name).Nodup) :
    ∃ d', entries.foldlM (g.addEntry nested archive) d = .ok d' := by
  induction entries generalizing d seen with
  | nil => exact ⟨d, rfl⟩
  | cons entry entries ih =>
    obtain ⟨hhead, hrest⟩ := List.forall_mem_cons.1 hreads
    rw [List.reverse_cons, List.append_assoc] at hnodup
    have hname : entry.name ∉ seen.map ArchiveEntry.name := by
      rw [List.map_append, List.singleton_append, List.map_cons] at hnodup
      exact (List.nodup_cons.1 (List.Nodup.of_append_right hnodup)).1
    obtain ⟨b, hb⟩ : ∃ b, g.addEntry nested archive d entry = .ok b := hd.exists_addEntry hp hn hhead hname
    obtain ⟨d', hd'⟩ := ih (hd.addEntry hp hn hb).2 hrest hnodup
    rw [List.foldlM_cons]
    exact ⟨d', bind_eq_ok_iff.2 ⟨b, hb, hd'⟩⟩

lemma migrateArchiveWith_eq_ok_iff_of_isTrivial :
    g.migrateArchiveWith nested archive source = .ok outcome ↔
      (∃ entries, g.format.list source = some entries ∧ (entries.map ArchiveEntry.name).Nodup ∧
        ∀ entry ∈ entries, g.ReadsEntry readable entry) ∧ outcome = ⟨source, false, []⟩ := by
  have hempty : Draft.empty.Untouched [] := ⟨rfl, .nil, rfl, rfl⟩
  rw [migrateArchiveWith_eq_ok_iff]
  constructor
  · rintro ⟨entries, hlist, d, hd, rfl⟩
    obtain ⟨hreads, huntouched⟩ := hempty.foldlM hp hn hd
    have hnodup := huntouched.nodup
    rw [List.map_reverse, List.nodup_reverse] at hnodup
    refine ⟨⟨entries, hlist, hnodup, hreads⟩, ?_⟩
    rw [huntouched.changed, huntouched.asked]
    rfl
  · rintro ⟨⟨entries, hlist, hnodup, hreads⟩, rfl⟩
    have hreverse : ((entries.reverse ++ []).map ArchiveEntry.name).Nodup := by
      rw [List.append_nil, List.map_reverse, List.nodup_reverse]
      exact hnodup
    obtain ⟨d, hd⟩ : ∃ d, entries.foldlM (g.addEntry nested archive) .empty = .ok d :=
      hempty.exists_foldlM hp hn hreads hreverse
    obtain ⟨-, huntouched⟩ := hempty.foldlM hp hn hd
    refine ⟨entries, hlist, d, hd, ?_⟩
    rw [huntouched.changed, huntouched.asked]
    rfl

end Steps

lemma migrateNested_eq_ok_iff_of_isTrivial {depth : ℕ} :
    g.migrateNested depth archive source = .ok outcome ↔ g.ReadsThrough depth source ∧ outcome = ⟨source, false, []⟩ := by
  induction depth generalizing archive source outcome with
  | zero => simp [migrateNested, ReadsThrough]
  | succ depth ih => exact migrateArchiveWith_eq_ok_iff_of_isTrivial hp fun _ _ _ => ih

lemma migrate_eq_ok_iff_of_isTrivial :
    g.migrate name source = .ok outcome ↔ g.Reads name source ∧ outcome = ⟨source, false, []⟩ := by
  rw [migrate, migrateWith, Reads]
  split
  next hskips => exact ⟨fun h => ⟨.inl hskips, (Except.ok.inj h).symm⟩, fun h => h.2 ▸ rfl⟩
  next hskips =>
    rw [or_iff_right hskips]
    split
    next => exact migrateNested_eq_ok_iff_of_isTrivial hp
    next =>
      have hconvert := @Converter.convert_eq_ok_iff_of_isTrivial _ hp name source
      cases hc : g.registry.convert g.profile name source with
      | ok c =>
        obtain ⟨hparses, rfl⟩ := hconvert.1 hc
        exact ⟨fun h => ⟨hparses, (Except.ok.inj h).symm⟩, fun h => h.2 ▸ rfl⟩
      | error fault =>
        have hparses : ¬ (g.registry.find name).Parses source := by
          intro hparses
          have hok := hconvert.2 ⟨hparses, rfl⟩
          rw [Registry.convert, hok] at hc
          cases hc
        simp [hparses, throw, throwThe, MonadExceptOf.throw]

end Trivial

/-- Where both tokens are the same, a payload that can be read through is handed out as it came, and no other one is. No entry
of an archive is dropped, and no conversion of one writes anything. -/
theorem migrate_of_source_eq_target {g : Migrator} (hp : g.profile.source = g.profile.target) (name : String)
    (source : Bytes) :
    ((∃ fault, g.migrate name source = .error fault) ∨ g.migrate name source = .ok ⟨source, false, []⟩) ∧
    (g.migrate name source = .ok ⟨source, false, []⟩ ↔ g.Reads name source) ∧
    ∀ entry, g.treatment entry ≠ .dropped ∧
      ∀ content c, g.registry.convert g.profile entry.name content = .ok c → c = .kept := by
  have htrivial : g.profile.isTrivial = true := beq_iff_eq.2 hp
  refine ⟨?_, ?_, fun entry => ⟨treatment_ne_dropped htrivial, fun content c hc => ?_⟩⟩
  · cases h : g.migrate name source with
    | error fault => exact .inl ⟨fault, rfl⟩
    | ok outcome => exact .inr (congrArg _ ((migrate_eq_ok_iff_of_isTrivial htrivial).1 h).2)
  · rw [migrate_eq_ok_iff_of_isTrivial htrivial]
    exact and_iff_left rfl
  · exact ((Converter.convert_eq_ok_iff_of_isTrivial htrivial).1 hc).2

def signedArchive : Bytes :=
  let a : Attributes := ⟨.stored, none, none⟩
  Zip.format.write [.fresh "META-INF/MANIFEST.MF" a (Bytes.utf8 "Name: b\nSHA1-Digest: A\n"),
    .fresh "javax/servlet/b.jar" a (Zip.format.write [.fresh "META-INF/A.SF" a []])]

set_option maxRecDepth 20000 in
theorem migrate_signedArchive :
    let g : Migrator := { forZip ⟨"N", "javax", "javax", [⟨["servlet"], [], []⟩]⟩ with excludes := .none }
    g.profile.source = g.profile.target ∧ g.profile.matchesIn "javax/servlet/b.jar" = true ∧
      g.migrate "a.jar" signedArchive = .ok ⟨signedArchive, false, []⟩ ∧ g.Reads "a.jar" signedArchive := by
  intro g
  obtain ⟨hcases, hreads, -⟩ := @migrate_of_source_eq_target g rfl "a.jar" signedArchive
  have hok : (g.migrate "a.jar" signedArchive).toOption.isSome = true := by decide +kernel
  have h : g.migrate "a.jar" signedArchive = .ok ⟨signedArchive, false, []⟩ := by
    refine hcases.resolve_left fun ⟨fault, hfault⟩ => ?_
    rw [hfault] at hok
    cases hok
  exact ⟨rfl, by decide, h, hreads.1 h⟩

end Migrator

end NamespaceMigration
