import NamespaceMigration.Proofs.Archive.Migrator
import NamespaceMigration.Proofs.Conversion.Truthful

namespace NamespaceMigration

lemma Profile.value_migrate_ne {p : Profile} {s : String} (h : (p.migrate s).changed = true) : (p.migrate s).value ≠ s := by
  intro he
  refine Profile.value_ne_of_changed (α := Char) String.toList_inj.1 h ?_
  exact (String.toList_ofList (l := _)).symm.trans (congrArg String.toList he)

def OutputEntry.ReadAs : OutputEntry → ArchiveEntry → Prop
  | copied name _ _, e => e.name = name
  | fresh name _ content, e => e.name = name ∧ e.content? = some content

lemma OutputEntry.ReadAs.name_eq {o : OutputEntry} {e : ArchiveEntry} (h : o.ReadAs e) : e.name = o.name := by
  cases o with
  | copied => exact h
  | fresh => exact h.1

namespace Migrator

variable {g : Migrator} {archive name : String} {source outer inner : Bytes}

def Contains (g : Migrator) (outer : Bytes) (name : String) (inner : Bytes) : Prop :=
  ∃ entries, g.format.list outer = some entries ∧ ∃ entry ∈ entries,
    g.treatment entry = .nested ∧ entry.name = name ∧ entry.content? = some inner

inductive Within (g : Migrator) (outer : Bytes) : Bytes → Prop
  | self : Within g outer outer
  | entry {x inner : Bytes} {name : String} : Within g outer x → g.Contains x name inner → Within g outer inner

lemma Within.head (h : g.Contains outer name inner) {x : Bytes} (hx : g.Within inner x) : g.Within outer x := by
  induction hx with
  | self => exact .entry .self h
  | entry _ hc ih => exact .entry ih hc

def ReadsBack (g : Migrator) (source : Bytes) : Prop :=
  ∀ depth archive entries d, g.format.list source = some entries →
    entries.foldlM (g.addEntry (g.migrateNested depth) archive) .empty = .ok d →
    ∃ read, g.format.list (g.format.write d.written.reverse) = some read ∧
      List.Forall₂ OutputEntry.ReadAs d.written.reverse read

instance : DecidableRel OutputEntry.ReadAs
  | .copied name _ _, e => inferInstanceAs (Decidable (e.name = name))
  | .fresh name _ content, e => inferInstanceAs (Decidable (e.name = name ∧ e.content? = some content))

def rereads (g : Migrator) (source : Bytes) : Bool :=
  match g.format.list source with
  | none => true
  | some entries => entries.all (g.treatment · != .nested) &&
    match entries.foldlM (g.addEntry (g.migrateNested 0) "") .empty with
    | .ok d => (g.format.list (g.format.write d.written.reverse)).any fun read =>
        decide (List.Forall₂ OutputEntry.ReadAs d.written.reverse read)
    | .error _ => true

lemma not_contains_of_rereads (h : g.rereads source = true) (name : String) (inner : Bytes) : ¬ g.Contains source name inner := by
  rintro ⟨entries, hlist, entry, hentry, ht, -⟩
  rw [rereads, hlist, Bool.and_eq_true, List.all_eq_true] at h
  have hne := h.1 entry hentry
  rw [ht] at hne
  cases hne

lemma eq_of_within_of_rereads (h : g.rereads source = true) (hw : g.Within source inner) : inner = source := by
  induction hw with
  | self => rfl
  | entry _ hc ih =>
    subst ih
    exact absurd hc (not_contains_of_rereads h _ _)

lemma readsBack_of_rereads (h : g.rereads source = true) : g.ReadsBack source := by
  intro depth archive entries d hlist hd
  have hnested := not_contains_of_rereads h
  rw [rereads, hlist, Bool.and_eq_true] at h
  have hflat : entries.foldlM (g.addEntry (g.migrateNested 0) "") .empty = .ok d := by
    refine (foldlM_eq_ok_congr (fun entry hentry b c => ?_) _ _).1 hd
    have ht : g.treatment entry ≠ .nested := by
      have hne := List.all_eq_true.1 h.1 entry hentry
      simpa using hne
    simp only [addEntry_eq_ok_iff, convertKept_eq_ok_iff, ht, false_and, false_or]
  rw [hflat, Option.any_eq_true] at h
  obtain ⟨read, hread, hall⟩ := h.2
  exact ⟨read, hread, of_decide_eq_true hall⟩

structure Draft.Tells (d : Draft) (seen : List ArchiveEntry) : Prop where
  length : d.written.length ≤ seen.length
  asked : d.asked = []
  changed : d.changed = true → ¬ List.Forall₂ OutputEntry.ReadAs d.written seen

section Truthful

variable (hp : .manifest ∈ g.registry.converters → g.profile.Foldable) (hf : g.registry.fingerprint? ≠ none)
include hp hf

lemma truthful_convertKept {nested : String → Bytes → Except ArchiveFault Outcome} {entry : ArchiveEntry} {body : EntryBody}
    {c : Conversion}
    (hn : ∀ content outcome, g.treatment entry = .nested → body.content = .ok content →
      nested entry.name content = .ok outcome → outcome.conversion.Truthful content)
    (h : g.convertKept nested archive entry body = .ok c) :
    c.asked = [] ∧ (c.changed = true → ∃ bytes, c.replacement = some bytes ∧ body.content ≠ .ok bytes) := by
  have htells : ∀ content, body.content = .ok content → c.Truthful content →
      c.asked = [] ∧ (c.changed = true → ∃ bytes, c.replacement = some bytes ∧ body.content ≠ .ok bytes) := by
    intro content hcontent ht
    refine ⟨ht.asked, fun hc => ?_⟩
    obtain ⟨bytes, hb, hne⟩ := ht.changed hc
    refine ⟨bytes, hb, fun he => hne ?_⟩
    exact Except.ok.inj (he.symm.trans hcontent)
  rcases convertKept_eq_ok_iff.1 h with ⟨ht, content, hc, outcome, ho, rfl⟩ | ⟨-, content, hc, hconv⟩ | ⟨-, -, rfl⟩
  · exact htells content hc (hn content outcome ht hc ho)
  · exact htells content hc (Registry.truthful_convert hp hf (mapError_eq_ok_iff.1 hconv))
  · exact ⟨rfl, fun hc => nomatch hc⟩

lemma Draft.Tells.addEntry {nested : String → Bytes → Except ArchiveFault Outcome} {d d' : Draft}
    {seen : List ArchiveEntry} {entry : ArchiveEntry}
    (hn : ∀ content outcome, g.treatment entry = .nested → entry.content? = some content →
      nested entry.name content = .ok outcome → outcome.conversion.Truthful content)
    (hd : d.Tells seen) (h : g.addEntry nested archive d entry = .ok d') : d'.Tells (entry :: seen) := by
  obtain ⟨body, hbody, h⟩ := addEntry_eq_ok_iff.1 h
  have hcontent : ∀ content, entry.content? = some content ↔ body.content = .ok content := fun _ => mem_content?_iff hbody
  rcases h with ⟨-, rfl⟩ | ⟨-, c, hc, -, rfl⟩
  · refine ⟨Nat.le_succ_of_le hd.length, by simp [Draft.note, hd.asked], fun _ hall => ?_⟩
    have hlength : d.written.length = seen.length + 1 := hall.length_eq
    exact absurd hd.length (by omega)
  · obtain ⟨hasked, hchanged⟩ := truthful_convertKept hp hf
      (fun content outcome ht hb => hn content outcome ht ((hcontent content).2 hb)) hc
    refine ⟨Nat.succ_le_succ hd.length, by simp [Draft.note, hd.asked, hasked], fun hch hall => ?_⟩
    obtain ⟨hout, hrest⟩ := List.forall₂_cons.1 hall
    simp only [Draft.note, Bool.or_eq_true] at hch
    rcases hch with hch | hch | hch
    · exact hd.changed hch hrest
    · have hname := hout.name_eq
      have hvalue : (output (g.profile.migrate entry.name).value entry.attributes body.packed c).name =
          (g.profile.migrate entry.name).value := by
        rw [output]
        split <;> rfl
      exact Profile.value_migrate_ne hch (hvalue.symm.trans hname.symm)
    · obtain ⟨bytes, hbytes, hne⟩ := hchanged hch
      rw [output, hbytes] at hout
      exact hne ((hcontent bytes).1 hout.2)

lemma outcome_of_migrateNested_eq_ok {depth : ℕ} {outcome : Outcome}
    (hr : ∀ inner, g.Within source inner → g.ReadsBack inner)
    (h : g.migrateNested depth archive source = .ok outcome) :
    outcome.asked = [] ∧ (outcome.changed = true ↔ outcome.bytes ≠ source) := by
  induction depth generalizing archive source outcome with
  | zero => cases h
  | succ depth ih =>
    obtain ⟨entries, hlist, d, hd, rfl⟩ := migrateArchiveWith_eq_ok_iff.1 h
    have htells : d.Tells (entries.reverse ++ []) := by
      have hempty : Draft.empty.Tells [] := ⟨Nat.le_refl 0, rfl, fun hc => nomatch hc⟩
      refine foldlM_induction (I := fun seen d => d.Tells seen) hempty ?_ hd
      intro entry hentry seen b b' hb hadd
      refine hb.addEntry hp hf (fun content outcome ht hcontent ho => ?_) hadd
      have hcontains : g.Contains source entry.name content := ⟨entries, hlist, entry, hentry, ht, rfl, hcontent⟩
      obtain ⟨hasked, hchanged⟩ := ih (fun inner hi => hr inner (.head hcontains hi)) ho
      refine ⟨hasked, fun hc => ⟨outcome.bytes, ?_, hchanged.1 hc⟩⟩
      exact if_pos hc
    rw [List.append_nil] at htells
    cases hc : d.changed with
    | false => exact ⟨htells.asked, by simp⟩
    | true =>
      refine ⟨htells.asked, iff_of_true rfl fun he : g.format.write d.written.reverse = source => ?_⟩
      obtain ⟨read, hread, hall⟩ := hr source .self depth archive entries d hlist hd
      rw [he, hlist, Option.some.injEq] at hread
      subst hread
      refine htells.changed hc ?_
      rw [← List.reverse_reverse d.written]
      exact List.forall₂_reverse_iff.2 hall

end Truthful

end Migrator

end NamespaceMigration
