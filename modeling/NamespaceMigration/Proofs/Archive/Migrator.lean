import NamespaceMigration.Archive.Migrator
import NamespaceMigration.Proofs.Except

/-! What a successful migration of an archive did, entry by entry. -/

namespace NamespaceMigration

namespace Migrator

variable {g : Migrator} {nested : String → Bytes → Except ArchiveFault Outcome} {archive : String} {entry : ArchiveEntry}
  {body : EntryBody}

lemma unpack_eq_ok_iff {content : Bytes} :
    (unpack archive body : Except ArchiveFault Bytes) = .ok content ↔ body.content = .ok content := by
  unfold unpack
  split
  next h => simp [h, pure, Except.pure]
  next h => simp [h, throw, throwThe, MonadExceptOf.throw]
  next h => simp [h, throw, throwThe, MonadExceptOf.throw]

lemma convertKept_eq_ok_iff {c : Conversion} :
    g.convertKept nested archive entry body = .ok c ↔
      (g.treatment entry = .nested ∧ ∃ content, body.content = .ok content ∧
        ∃ outcome, nested entry.name content = .ok outcome ∧ c = outcome.conversion) ∨
      (g.treatment entry = .converted ∧ ∃ content, body.content = .ok content ∧
        g.convertEntry entry content = .ok c) ∨
      (g.treatment entry ≠ .nested ∧ g.treatment entry ≠ .converted ∧ c = .kept) := by
  unfold convertKept
  split
  next h =>
    simp only [bind_eq_ok_iff, unpack_eq_ok_iff, h, pure, Except.pure, Except.ok.injEq]
    simp [eq_comm]
  next h =>
    simp only [bind_eq_ok_iff, unpack_eq_ok_iff, h]
    simp only [reduceCtorEq, false_and, false_or, true_and, ne_eq, not_true_eq_false, not_false_eq_true, and_false, or_false]
    refine exists_congr fun content => and_congr_right fun _ => ?_
    cases g.convertEntry entry content <;> simp [throw, throwThe, MonadExceptOf.throw, pure, Except.pure]
  next hn hc =>
    have hn : g.treatment entry ≠ .nested := hn
    have hc : g.treatment entry ≠ .converted := hc
    simp [hn, hc, pure, Except.pure, eq_comm]

lemma mem_content?_iff (hb : entry.body = some body) {content : Bytes} : content ∈ entry.content? ↔ body.content = .ok content := by
  rw [ArchiveEntry.content?, hb, Option.bind_some, Option.mem_def]
  cases body.content <;> simp [Except.toOption]

lemma name_output (name : String) (a : Attributes) (packed : Packed) (c : Conversion) : (output name a packed c).name = name := by
  rw [output]
  split <;> rfl

lemma Draft.isTaken_eq_false_iff {d : Draft} {name : String} : d.isTaken name = false ↔ name ∉ d.written.map OutputEntry.name := by
  rw [isTaken, List.any_eq_false]
  simp

lemma addEntry_eq_ok_iff {d d' : Draft} :
    g.addEntry nested archive d entry = .ok d' ↔ ∃ body, entry.body = some body ∧
      ((g.treatment entry = .dropped ∧ d' = d.note true []) ∨
        (g.treatment entry ≠ .dropped ∧ ∃ c, g.convertKept nested archive entry body = .ok c ∧
          d.isTaken (g.profile.migrate entry.name).value = false ∧
          d' = { d.note ((g.profile.migrate entry.name).changed || c.changed) c.asked with
            written := output (g.profile.migrate entry.name).value entry.attributes body.packed c :: d.written })) := by
  unfold addEntry
  cases entry.body with
  | none => simp [throw, throwThe, MonadExceptOf.throw]
  | some body =>
    simp only [Option.some.injEq, exists_eq_left']
    split
    next h =>
      simp only [h, pure, Except.pure, Except.ok.injEq, true_and, ne_eq, not_true_eq_false, false_and, or_false]
      exact eq_comm
    next h =>
      simp only [bind_eq_ok_iff, h, false_and, false_or, not_false_eq_true, true_and, ne_eq]
      refine exists_congr fun c => and_congr_right fun _ => ?_
      cases d.isTaken (g.profile.migrate entry.name).value with
      | true => simp [throw, throwThe, MonadExceptOf.throw]
      | false =>
        simp only [pure, Except.pure, Bool.false_eq_true, if_false, Except.ok.injEq, true_and]
        exact eq_comm

lemma migrateArchiveWith_eq_ok_iff {source : Bytes} {outcome : Outcome} :
    g.migrateArchiveWith nested archive source = .ok outcome ↔ ∃ entries, g.format.list source = some entries ∧
      ∃ d, entries.foldlM (g.addEntry nested archive) .empty = .ok d ∧
        outcome = if d.changed then ⟨g.format.write d.written.reverse, true, d.asked⟩ else ⟨source, false, d.asked⟩ := by
  unfold migrateArchiveWith
  cases g.format.list source with
  | none => simp [throw, throwThe, MonadExceptOf.throw]
  | some entries =>
    simp only [bind_eq_ok_iff, Option.some.injEq, exists_eq_left']
    refine exists_congr fun d => and_congr_right fun _ => ?_
    cases d.changed <;> simp [pure, Except.pure, eq_comm]

lemma migrateArchiveWith_name_congr (a b : String) (source : Bytes) (outcome : Outcome) :
    g.migrateArchiveWith nested a source = .ok outcome ↔ g.migrateArchiveWith nested b source = .ok outcome := by
  simp only [migrateArchiveWith_eq_ok_iff]
  refine exists_congr fun entries => and_congr_right fun _ => exists_congr fun d => and_congr_left fun _ => ?_
  refine foldlM_eq_ok_congr (fun e _ d d' => ?_) .empty d
  simp only [addEntry_eq_ok_iff, convertKept_eq_ok_iff]

lemma migrateNested_name_congr (depth : ℕ) (a b : String) (source : Bytes) (outcome : Outcome) :
    g.migrateNested depth a source = .ok outcome ↔ g.migrateNested depth b source = .ok outcome := by
  cases depth with
  | zero => simp [migrateNested]
  | succ depth => exact migrateArchiveWith_name_congr a b source outcome

end Migrator

end NamespaceMigration
