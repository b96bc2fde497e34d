import NamespaceMigration.Proofs.Archive.Related
import NamespaceMigration.Proofs.Profile.Tokens
import NamespaceMigration.Zip.Format

namespace NamespaceMigration

section Directories

def endsDirectory (name : List Char) : Bool := name.getLast?.any fun c => c == '/' || c == '\\'

lemma ArchiveEntry.isDirectory_eq (e : ArchiveEntry) : e.isDirectory = endsDirectory e.name.toList := by
  rw [isDirectory, endsDirectory]
  cases e.name.toList.getLast? <;> rfl

namespace Profile

structure KeepsDirectories (p : Profile) : Prop where
  source : p.source.toList ≠ []
  target : p.target.toList ≠ []
  ends : endsDirectory p.source.toList = endsDirectory p.target.toList

variable {p : Profile}

lemma moved_pass_of_ne_nil {α : Type} [BEq α] [LawfulBEq α] [Alphabet α] (hs : (Alphabet.spell p.source : List α) ≠ [])
    (keep : ℕ) (s : List α) : Moved p (fun _ => True) s (p.pass 0 keep s) := by
  induction hn : s.length using Nat.strongRecOn generalizing keep s with
  | ind n ih =>
    cases s with
    | nil => cases keep <;> exact .nil
    | cons c s =>
      have htail : s.length < n := by simp [← hn]
      cases keep with
      | succ keep => exact .keep c (ih _ htail keep s rfl)
      | zero =>
        cases hm : matchLength? p.rules (Alphabet.spell p.source) (c :: s) with
        | none =>
          rw [pass_cons hm]
          exact .keep c (ih _ htail 0 s rfl)
        | some m =>
          obtain ⟨after, k, he, -, hpass⟩ := pass_of_match hs hm
          have hpos := List.length_pos_iff.2 hs
          have hlen := congrArg List.length he
          rw [List.length_append] at hlen
          rw [hpass, he]
          exact .move trivial (ih _ (by omega) k after rfl)

lemma KeepsDirectories.endsDirectory_eq (h : p.KeepsDirectories) {ok : List Char → Prop} {s t : List Char}
    (hm : Moved p ok s t) : (s = [] ↔ t = []) ∧ endsDirectory s = endsDirectory t := by
  have hcons : ∀ {a b s t : List Char}, a ≠ [] → b ≠ [] → endsDirectory a = endsDirectory b →
      (s = [] ↔ t = []) ∧ endsDirectory s = endsDirectory t →
      (a ++ s = [] ↔ b ++ t = []) ∧ endsDirectory (a ++ s) = endsDirectory (b ++ t) := by
    rintro a b s t ha hb he ⟨hnil, hends⟩
    refine ⟨by simp [ha, hb], ?_⟩
    by_cases hs : s = []
    · obtain rfl := hs
      obtain rfl := hnil.1 rfl
      rw [List.append_nil, List.append_nil, he]
    · rw [endsDirectory, endsDirectory, List.getLast?_append_of_ne_nil _ hs,
        List.getLast?_append_of_ne_nil _ (mt hnil.2 hs)]
      exact hends
  induction hm with
  | nil => exact ⟨Iff.rfl, rfl⟩
  | keep c _ ih => exact hcons (List.cons_ne_nil c []) (List.cons_ne_nil c []) rfl ih
  | move _ _ ih => exact hcons h.source h.target h.ends ih

lemma KeepsDirectories.endsDirectory_migrate (h : p.KeepsDirectories) (name : String) :
    endsDirectory (p.migrate name).value.toList = endsDirectory name.toList := by
  have hvalue : (p.migrate name).value.toList = (p.migrateSymbols name.toList).value := String.toList_ofList
  rw [hvalue]
  by_cases ht : p.isTrivial = true
  · rw [migrateSymbols_of_isTrivial ht]
  · rw [value_migrateSymbols p h.source (by simpa using ht)]
    exact (h.endsDirectory_eq (moved_pass_of_ne_nil h.source 0 _)).2.symm

lemma keepsDirectories_builtIn (b : BuiltIn) : b.profile.KeepsDirectories := by
  cases b <;> exact ⟨by decide, by decide, by decide⟩

end Profile

end Directories

def OutputEntry.ReadFrom (entries : List ArchiveEntry) : OutputEntry → ArchiveEntry → Prop
  | copied name a packed, e => e.name = name ∧ e.body.map (·.packed) = some packed ∧
    ∀ entry ∈ entries, entry.attributes = a → entry.body.map (·.packed) = some packed →
      ∀ content ∈ entry.content?, e.content? = some content
  | fresh name _ content, e => e.name = name ∧ e.content? = some content

instance (entries : List ArchiveEntry) : DecidableRel (OutputEntry.ReadFrom entries)
  | .copied name a packed, e => inferInstanceAs (Decidable (e.name = name ∧ e.body.map (·.packed) = some packed ∧
    ∀ entry ∈ entries, entry.attributes = a → entry.body.map (·.packed) = some packed →
      ∀ content ∈ entry.content?, e.content? = some content))
  | .fresh name _ content, e => inferInstanceAs (Decidable (e.name = name ∧ e.content? = some content))

namespace Migrator

variable {g : Migrator} {archive : String} {source : Bytes} {entry read : ArchiveEntry} {body : EntryBody} {d : Draft}
  {o : OutputEntry} {nested nested' : String → Bytes → Except ArchiveFault Outcome}

/-- Whether the archives that are written for a source are read back, with their contents. -/
def KeepsContents (g : Migrator) (source : Bytes) : Prop :=
  ∀ depth archive entries d, g.format.list source = some entries →
    entries.foldlM (g.addEntry (g.migrateNested depth) archive) .empty = .ok d →
    ∃ read, g.format.list (g.format.write d.written.reverse) = some read ∧
      List.Forall₂ (OutputEntry.ReadFrom entries) d.written.reverse read

/-- An entry that is not dropped and what is read in its place, given how archives are migrated. -/
structure Becomes (g : Migrator) (nested : String → Bytes → Except ArchiveFault Outcome) (entry read : ArchiveEntry) : Prop where
  name : read.name = (g.profile.migrate entry.name).value
  directory : g.profile.KeepsDirectories → read.isDirectory = entry.isDirectory
  copied : g.treatment entry = .copied → ∃ body, entry.body = some body ∧ read.body.map (·.packed) = some body.packed ∧
    ∀ content ∈ entry.content?, read.content? = some content
  nested : g.treatment entry = .nested → ∃ content ∈ entry.content?, ∃ outcome,
    nested entry.name content = .ok outcome ∧ read.content? = some outcome.bytes
  converted : g.treatment entry = .converted → ∃ content ∈ entry.content?, ∃ c,
    g.registry.convert g.profile entry.name content = .ok c ∧ read.content? = some (c.bytes content)

def Touches (g : Migrator) (nested : String → Bytes → Except ArchiveFault Outcome) (entry : ArchiveEntry) : Prop :=
  g.treatment entry = .dropped ∨ (g.profile.migrate entry.name).changed = true ∨
    (g.treatment entry = .nested ∧ ∃ content ∈ entry.content?, ∃ outcome,
      nested entry.name content = .ok outcome ∧ outcome.changed = true) ∨
    g.treatment entry = .converted ∧ ∃ content ∈ entry.content?, ∃ c,
      g.registry.convert g.profile entry.name content = .ok c ∧ c.changed = true

lemma treatment_eq_dropped_iff : g.treatment entry = .dropped ↔ g.profile.isTrivial = false ∧ isSignatureName entry.name = true := by
  unfold treatment
  split
  next h => simpa using h
  next h =>
    have h' : ¬ (g.profile.isTrivial = false ∧ isSignatureName entry.name = true) := by simpa using h
    simp only [h', iff_false]
    split
    · nofun
    · split <;> nofun

lemma convertKept_mono (hn : ∀ name inner outcome, nested name inner = .ok outcome → nested' name inner = .ok outcome)
    {c : Conversion} (h : g.convertKept nested archive entry body = .ok c) : g.convertKept nested' archive entry body = .ok c := by
  rcases convertKept_eq_ok_iff.1 h with ⟨ht, content, hc, outcome, ho, hout⟩ | h | h
  · exact convertKept_eq_ok_iff.2 (.inl ⟨ht, content, hc, outcome, hn _ _ _ ho, hout⟩)
  · exact convertKept_eq_ok_iff.2 (.inr (.inl h))
  · exact convertKept_eq_ok_iff.2 (.inr (.inr h))

def Writes (g : Migrator) (nested : String → Bytes → Except ArchiveFault Outcome) (archive : String) (entry : ArchiveEntry)
    (o : OutputEntry) : Prop :=
  ∃ body c, entry.body = some body ∧ g.convertKept nested archive entry body = .ok c ∧
    o = output (g.profile.migrate entry.name).value entry.attributes body.packed c

structure Draft.Accounts (d : Draft) (g : Migrator) (nested : String → Bytes → Except ArchiveFault Outcome) (archive : String)
    (seen : List ArchiveEntry) : Prop where
  written : List.Forall₂ (g.Writes nested archive) (seen.filter (g.treatment · ≠ .dropped)) d.written
  names : (d.written.map OutputEntry.name).Nodup
  changed : d.changed = true ↔ ∃ entry ∈ seen, g.Touches nested entry

lemma touches_iff_of_convertKept {c : Conversion} (hb : entry.body = some body) (hd : g.treatment entry ≠ .dropped)
    (h : g.convertKept nested archive entry body = .ok c) :
    g.Touches nested entry ↔ (g.profile.migrate entry.name).changed = true ∨ c.changed = true := by
  rw [Touches, or_iff_right hd]
  refine or_congr_right ?_
  rcases convertKept_eq_ok_iff.1 h with ⟨ht, content, hc, outcome, ho, rfl⟩ | ⟨ht, content, hc, hconv⟩ | ⟨hn, hc, rfl⟩
  · simp only [ht, true_and, reduceCtorEq, false_and, or_false, Outcome.conversion, mem_content?_iff hb, hc, Except.ok.injEq,
      exists_eq_left', ho]
  · have hconv := mapError_eq_ok_iff.1 hconv
    simp only [ht, true_and, reduceCtorEq, false_and, false_or, mem_content?_iff hb, hc, Except.ok.injEq,
      exists_eq_left', hconv]
  · simp [hn, hc, Conversion.kept]

lemma Draft.Accounts.addEntry {seen : List ArchiveEntry} {d' : Draft}
    (hn : ∀ name inner outcome, nested name inner = .ok outcome → nested' name inner = .ok outcome)
    (hd : d.Accounts g nested' archive seen) (h : g.addEntry nested archive d entry = .ok d') :
    d'.Accounts g nested' archive (entry :: seen) := by
  obtain ⟨body, hb, ⟨ht, rfl⟩ | ⟨ht, c, hc, htaken, rfl⟩⟩ := addEntry_eq_ok_iff.1 h
  · refine ⟨?_, hd.names, ?_⟩
    · rw [List.filter_cons_of_neg (by simpa using ht)]
      exact hd.written
    · exact iff_of_true (Bool.or_true _) ⟨entry, List.mem_cons_self, .inl ht⟩
  · have hc := convertKept_mono hn hc
    refine ⟨?_, ?_, ?_⟩
    · rw [List.filter_cons_of_pos (by simpa using ht)]
      exact .cons ⟨body, c, hb, hc, rfl⟩ hd.written
    · rw [List.map_cons, List.nodup_cons, name_output]
      exact ⟨Draft.isTaken_eq_false_iff.1 htaken, hd.names⟩
    · rw [List.exists_mem_cons_iff, touches_iff_of_convertKept hb ht hc, ← hd.changed]
      simp only [Draft.note, Bool.or_eq_true]
      exact or_comm

lemma becomes_of_readFrom {entries : List ArchiveEntry} (he : entry ∈ entries) (ho : g.Writes nested archive entry o)
    (hr : o.ReadFrom entries read) (hbytes : ∀ name inner outcome, nested name inner = .ok outcome →
      outcome.changed = false → outcome.bytes = inner) : g.Becomes nested entry read := by
  obtain ⟨body, c, hb, hc, rfl⟩ := ho
  have hname : read.name = (g.profile.migrate entry.name).value := by
    rw [output] at hr
    split at hr <;> exact hr.1
  -- whatever the conversion gives is what is read
  have hread : ∀ content ∈ entry.content?, read.content? = some (c.bytes content) := by
    intro content hcontent
    rw [output] at hr
    cases hrep : c.replacement with
    | some bytes =>
      rw [hrep] at hr
      simpa [Conversion.bytes, hrep] using hr.2
    | none =>
      rw [hrep] at hr
      simpa [Conversion.bytes, hrep] using hr.2.2 entry he rfl (by rw [hb]; rfl) content hcontent
  refine ⟨hname, fun hk => ?_, fun ht => ?_, fun ht => ?_, fun ht => ?_⟩
  · rw [ArchiveEntry.isDirectory_eq, ArchiveEntry.isDirectory_eq, hname, hk.endsDirectory_migrate]
  · obtain rfl : c = .kept := by
      rcases convertKept_eq_ok_iff.1 hc with ⟨h, -⟩ | ⟨h, -⟩ | ⟨-, -, h⟩
      · cases ht.symm.trans h
      · cases ht.symm.trans h
      · exact h
    exact ⟨body, hb, hr.2.1, hread⟩
  · obtain ⟨-, content, hcontent, outcome, ho, rfl⟩ := (convertKept_eq_ok_iff.1 hc).resolve_right (by simp [ht])
    have hcontent := (mem_content?_iff hb).2 hcontent
    refine ⟨content, hcontent, outcome, ho, ?_⟩
    rw [hread content hcontent, Outcome.conversion, Conversion.bytes]
    cases hch : outcome.changed with
    | true => rfl
    | false =>
      rw [hbytes _ _ _ ho hch]
      rfl
  · obtain ⟨-, content, hcontent, hconv⟩ :=
      ((convertKept_eq_ok_iff.1 hc).resolve_left (by simp [ht])).resolve_right (by simp [ht])
    have hcontent := (mem_content?_iff hb).2 hcontent
    exact ⟨content, hcontent, c, mapError_eq_ok_iff.1 hconv, hread content hcontent⟩

lemma bytes_of_not_changed {depth : ℕ} {outcome : Outcome} (h : g.migrateNested depth archive source = .ok outcome)
    (hch : outcome.changed = false) : outcome.bytes = source := by
  cases depth with
  | zero => cases h
  | succ depth =>
    obtain ⟨entries, -, d, -, rfl⟩ := migrateArchiveWith_eq_ok_iff.1 h
    cases hd : d.changed with
    | true => simp [hd] at hch
    | false => rfl

lemma migrateNested_mono {n k : ℕ} (h : n ≤ k) (archive : String) (source : Bytes) (outcome : Outcome)
    (ho : g.migrateNested n archive source = .ok outcome) : g.migrateNested k archive source = .ok outcome := by
  rcases migrateNested_of_le (g := g) h archive source with hdeep | he
  · rw [ho] at hdeep
    exact absurd hdeep (not_isTooDeep_ok outcome)
  · exact he.symm.trans ho

lemma exists_becomes {depth : ℕ} {outcome : Outcome} (hr : g.KeepsContents source)
    (hn : ∀ name inner outcome, g.migrateNested depth name inner = .ok outcome → nested name inner = .ok outcome)
    (hbytes : ∀ name inner outcome, nested name inner = .ok outcome → outcome.changed = false → outcome.bytes = inner)
    (h : g.migrateNested (depth + 1) archive source = .ok outcome) :
    ∃ entries, g.format.list source = some entries ∧
      (outcome.changed = true ↔ ∃ entry ∈ entries, g.Touches nested entry) ∧
      (outcome.changed = true → ∃ read, g.format.list outcome.bytes = some read ∧ (read.map ArchiveEntry.name).Nodup ∧
        List.Forall₂ (fun entry e => entry ∈ entries ∧ g.Becomes nested entry e)
          (entries.filter (g.treatment · ≠ .dropped)) read) := by
  obtain ⟨entries, hlist, d, hd, rfl⟩ := migrateArchiveWith_eq_ok_iff.1 h
  have haccounts : d.Accounts g nested archive (entries.reverse ++ []) := by
    have hempty : Draft.empty.Accounts g nested archive [] := ⟨.nil, .nil, by simp [Draft.empty]⟩
    exact foldlM_induction (I := fun seen d => d.Accounts g nested archive seen) hempty
      (fun entry _ seen b b' hb hadd => hb.addEntry hn hadd) hd
  rw [List.append_nil] at haccounts
  have htouched := haccounts.changed
  simp only [List.mem_reverse] at htouched
  refine ⟨entries, hlist, ?_, fun hch => ?_⟩
  · rw [← htouched]
    cases d.changed <;> simp
  · have hdch : d.changed = true := by
      cases hdc : d.changed with
      | true => rfl
      | false => simp [hdc] at hch
    obtain ⟨read, hread, hall⟩ := hr depth archive entries d hlist hd
    rw [hdch]
    refine ⟨read, hread, ?_, ?_⟩
    · have hnames : read.map ArchiveEntry.name = (d.written.map OutputEntry.name).reverse := by
        rw [← List.map_reverse, ← List.forall₂_eq_eq_eq, List.forall₂_map_left_iff, List.forall₂_map_right_iff]
        refine (hall.imp fun o e hoe => ?_).flip
        cases o <;> exact hoe.1
      rw [hnames]
      exact List.pairwise_reverse.2 (haccounts.names.imp Ne.symm)
    · have hwritten := List.forall₂_reverse_iff.2 haccounts.written
      rw [List.filter_reverse, List.reverse_reverse] at hwritten
      refine forall₂_comp hwritten hall ?_
      intro entry o e hentry ho he
      have hmem := List.mem_of_mem_filter hentry
      exact ⟨hmem, becomes_of_readFrom hmem ho he hbytes⟩

/-- A migrated archive has, in order and each in place of one, what its entries become that are not dropped, and it is
changed just if an entry is. An archive that is not changed is the source. -/
theorem entries_of_migrateArchive {outcome : Outcome} (hr : g.KeepsContents source)
    (h : g.migrateArchive archive source = .ok outcome) :
    ∃ entries, g.format.list source = some entries ∧
      (outcome.changed = true ↔ ∃ entry ∈ entries, g.Touches g.migrateArchive entry) ∧
      (outcome.changed = false → outcome.bytes = source) ∧
      (outcome.changed = true → ∃ read, g.format.list outcome.bytes = some read ∧
        List.Forall₂ (g.Becomes g.migrateArchive)
          (entries.filter fun entry => g.profile.isTrivial || !isSignatureName entry.name) read) := by
  have hkept : ∀ entries : List ArchiveEntry, (entries.filter fun entry => g.profile.isTrivial || !isSignatureName entry.name) =
      entries.filter (g.treatment · ≠ .dropped) := by
    intro entries
    refine List.filter_congr fun entry _ => ?_
    rw [Bool.eq_iff_iff, decide_eq_true_eq, ne_eq, treatment_eq_dropped_iff]
    cases g.profile.isTrivial <;> simp
  have hbytes := bytes_of_not_changed h
  cases hdepth : g.depth with
  | zero =>
    rw [migrateArchive, hdepth] at h
    cases h
  | succ depth =>
    rw [migrateArchive, hdepth] at h
    have hn : ∀ name inner outcome, g.migrateNested depth name inner = .ok outcome → g.migrateArchive name inner = .ok outcome :=
      migrateNested_mono (by omega)
    obtain ⟨entries, hlist, htouched, hread⟩ := exists_becomes hr hn (fun _ _ _ => bytes_of_not_changed) h
    refine ⟨entries, hlist, htouched, hbytes, fun hch => ?_⟩
    obtain ⟨read, hread, -, hall⟩ := hread hch
    rw [hkept]
    exact ⟨read, hread, hall.imp fun entry e he => he.2⟩

section Check

variable {depth : ℕ}

def rereadsAt (g : Migrator) (depth : ℕ) (source : Bytes) : Bool :=
  (g.format.list source).any fun entries =>
    match entries.foldlM (g.addEntry (g.migrateNested depth) "") .empty with
    | .ok d => (g.format.list (g.format.write d.written.reverse)).any fun read =>
        decide (List.Forall₂ (OutputEntry.ReadFrom entries) d.written.reverse read)
    | .error _ => false

lemma keepsContents_of_rereadsAt (h : g.rereadsAt depth source = true) : g.KeepsContents source := by
  intro n archive entries d hlist hd
  rw [rereadsAt, hlist, Option.any_some] at h
  split at h
  next d' hd' =>
    have hsteady : ∀ {n k : ℕ}, n ≤ k → IsTooDeep (entries.foldlM (g.addEntry (g.migrateNested n) "") Draft.empty) ∨
        entries.foldlM (g.addEntry (g.migrateNested n) "") Draft.empty =
          entries.foldlM (g.addEntry (g.migrateNested k) "") Draft.empty := fun hle =>
      relates_unlessTooDeep.foldlM (fun entry _ d => relates_unlessTooDeep.addEntry
        (fun content _ _ => migrateNested_of_le hle entry.name content) d) _
    have hd : entries.foldlM (g.addEntry (g.migrateNested n) "") Draft.empty = .ok d := by
      refine (foldlM_eq_ok_congr (fun entry _ b c => ?_) _ _).1 hd
      simp only [addEntry_eq_ok_iff, convertKept_eq_ok_iff]
    obtain rfl : d = d' := by
      rcases Nat.le_total n depth with hle | hle
      · rcases hsteady hle with hdeep | he
        · rw [hd] at hdeep
          exact absurd hdeep (not_isTooDeep_ok d)
        · exact Except.ok.inj (hd.symm.trans (he.trans hd'))
      · rcases hsteady hle with hdeep | he
        · rw [hd'] at hdeep
          exact absurd hdeep (not_isTooDeep_ok d')
        · exact Except.ok.inj (hd.symm.trans (he.symm.trans hd'))
    rw [Option.any_eq_true] at h
    obtain ⟨read, hread, hall⟩ := h
    exact ⟨read, hread, of_decide_eq_true hall⟩
  next => cases h

def nestedArchive (name : String) : Bytes :=
  let a : Attributes := ⟨.stored, none, none⟩
  Zip.format.write [.fresh "b.jar" a (Zip.format.write [.fresh name a []])]

set_option maxRecDepth 20000 in
theorem entries_of_migrateArchive_nested :
    let g : Migrator := { forZip BuiltIn.tomcatProfile with excludes := .none }
    let source := nestedArchive "META-INF/A.SF"
    g.KeepsContents source ∧ ∃ outcome, g.migrateArchive "a.jar" source = .ok outcome ∧ outcome.changed = true ∧
      ∃ entries read, g.format.list source = some entries ∧ g.format.list outcome.bytes = some read ∧
        entries.length = 1 ∧ read.length = 1 ∧ List.Forall₂ (g.Becomes g.migrateArchive)
          (entries.filter fun entry => g.profile.isTrivial || !isSignatureName entry.name) read := by
  intro g source
  have hkeeps : g.KeepsContents source := @keepsContents_of_rereadsAt g source 2 (by decide +kernel)
  have hchecked : (g.migrateArchive "a.jar" source).toOption.any (fun outcome => outcome.changed &&
      (g.format.list source).any (·.length == 1) && (g.format.list outcome.bytes).any (·.length == 1)) = true := by
    decide +kernel
  obtain ⟨outcome, h, hchecked⟩ := (Option.any_eq_true _ _).1 hchecked
  simp only [Bool.and_eq_true] at hchecked
  obtain ⟨⟨hch, hsize⟩, hsize'⟩ := hchecked
  have hok := eq_ok_of_toOption_eq_some h
  obtain ⟨entries, hlist, -, -, hread⟩ := entries_of_migrateArchive hkeeps hok
  obtain ⟨read, hread, hall⟩ := hread hch
  rw [hlist, Option.any_some, beq_iff_eq] at hsize
  rw [hread, Option.any_some, beq_iff_eq] at hsize'
  exact ⟨hkeeps, outcome, hok, hch, entries, read, hlist, hread, hsize, hsize', hall⟩

/-- A source token with a slash: a directory is renamed to what is none. -/
theorem not_isDirectory_of_renamed :
    let g : Migrator := { forZip ⟨"N", "a/", "b", [⟨[], [], []⟩]⟩ with excludes := .none }
    let source := Zip.format.write [.fresh "a/" ⟨.stored, none, none⟩ []]
    g.KeepsContents source ∧ ∃ outcome entry read, g.migrateArchive "a.jar" source = .ok outcome ∧ outcome.changed = true ∧
      g.format.list source = some [entry] ∧ g.format.list outcome.bytes = some [read] ∧
      entry.isDirectory = true ∧ read.isDirectory = false := by
  intro g source
  have hkeeps : g.KeepsContents source := @keepsContents_of_rereadsAt g source 1 (by decide +kernel)
  have hchecked : (g.migrateArchive "a.jar" source).toOption.any (fun outcome => outcome.changed &&
      ((g.format.list source).map (List.map ArchiveEntry.isDirectory)) == some [true] &&
      ((g.format.list outcome.bytes).map (List.map ArchiveEntry.isDirectory)) == some [false]) = true := by
    decide +kernel
  obtain ⟨outcome, h, hchecked⟩ := (Option.any_eq_true _ _).1 hchecked
  simp only [Bool.and_eq_true, beq_iff_eq, Option.map_eq_some_iff, List.map_eq_singleton_iff] at hchecked
  obtain ⟨⟨hch, _, hlist, entry, rfl, hentry⟩, _, hlist', read, rfl, hread⟩ := hchecked
  exact ⟨hkeeps, outcome, entry, read, eq_ok_of_toOption_eq_some h, hch, hlist, hlist', hentry, hread⟩

end Check

end Migrator

end NamespaceMigration
