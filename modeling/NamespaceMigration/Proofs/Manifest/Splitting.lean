import NamespaceMigration.Manifest.PackageHeader
import NamespaceMigration.Proofs.Except
import NamespaceMigration.Proofs.Text.Search

namespace NamespaceMigration.PackageHeader

section Pieces

variable {sep d c : Char} {quoted : Bool} {acc a b s w : List Char} {pieces : List (List Char)}

def IsPiece (sep : Char) : Bool → List Char → Prop
  | quoted, [] => quoted = false
  | quoted, c :: s => if c = '"' then IsPiece sep (!quoted) s else (c = sep → quoted = true) ∧ IsPiece sep quoted s

lemma isPiece_append (ha : IsPiece d quoted a) :
    IsPiece sep quoted (a ++ b) ↔ IsPiece sep quoted a ∧ IsPiece sep false b := by
  induction a generalizing quoted with
  | nil =>
    obtain rfl : quoted = false := ha
    simp [IsPiece]
  | cons c a ih =>
    rw [IsPiece] at ha
    rw [List.cons_append, IsPiece, IsPiece]
    by_cases hc : c = '"'
    · rw [if_pos hc] at ha
      rw [if_pos hc, if_pos hc, ih ha]
    · rw [if_neg hc] at ha
      rw [if_neg hc, if_neg hc, ih ha.2, and_assoc]

lemma isPiece_append_of_plain (hw : ∀ c ∈ w, c ≠ '"' ∧ c ≠ sep) : IsPiece sep quoted (w ++ s) ↔ IsPiece sep quoted s := by
  induction w with
  | nil => rfl
  | cons c w ih =>
    obtain ⟨hc, hw⟩ := List.forall_mem_cons.1 hw
    rw [List.cons_append, IsPiece, if_neg hc.1, ih hw, and_iff_right fun he => absurd he hc.2]

lemma isPiece_quoted (hw : '"' ∉ w) : IsPiece sep false ('"' :: (w ++ ['"'])) := by
  have hin : IsPiece sep true (w ++ ['"']) := by
    induction w with
    | nil => rfl
    | cons c w ih =>
      obtain ⟨hc, hw⟩ := List.forall_mem_cons.1 (List.forall_mem_ne.2 hw)
      rw [List.cons_append, IsPiece, if_neg (Ne.symm hc)]
      exact ⟨fun _ => rfl, ih (List.forall_mem_ne.1 hw)⟩
  exact hin

lemma isPiece_intercalate (hquote : sep ≠ '"') (hne : sep ≠ d) (h : ∀ piece ∈ pieces, IsPiece sep false piece) :
    IsPiece d false ([sep].intercalate pieces) ↔ ∀ piece ∈ pieces, IsPiece d false piece := by
  induction pieces with
  | nil => simp [IsPiece]
  | cons piece pieces ih =>
    obtain ⟨hpiece, hpieces⟩ := List.forall_mem_cons.1 h
    rw [List.forall_mem_cons]
    cases pieces with
    | nil => simp
    | cons next pieces =>
      rw [List.intercalate_cons_cons, List.append_assoc, isPiece_append hpiece,
        isPiece_append_of_plain (by simpa using ⟨hquote, hne⟩), ih hpieces]

lemma intercalate_iff {P : List Char → Prop} (nil : P []) (cut : ∀ a b, P (a ++ d :: b) ↔ P a ∧ P b) :
    P ([d].intercalate pieces) ↔ ∀ piece ∈ pieces, P piece := by
  induction pieces with
  | nil => simpa using nil
  | cons piece pieces ih =>
    rw [List.forall_mem_cons]
    cases pieces with
    | nil => simp
    | cons next pieces => rw [List.intercalate_cons_cons, List.append_assoc, List.singleton_append, cut, ih]

lemma infix_intercalate {piece : List Char} (h : piece ∈ pieces) : piece <:+: [sep].intercalate pieces := by
  induction pieces with
  | nil => cases h
  | cons first pieces ih =>
    cases pieces with
    | nil =>
      obtain rfl := List.mem_singleton.1 h
      simp
    | cons next pieces =>
      rw [List.intercalate_cons_cons]
      rcases List.mem_cons.1 h with rfl | h
      · exact ⟨[], [sep] ++ [sep].intercalate (next :: pieces), by simp⟩
      · exact (ih h).trans (List.suffix_append _ _).isInfix

lemma cons_eq_intercalate_iff {first : List Char} {rest : List (List Char)} : c :: s = [sep].intercalate (first :: rest) ↔
    (∃ tail, first = c :: tail ∧ s = [sep].intercalate (tail :: rest)) ∨
      first = [] ∧ c = sep ∧ ∃ next others, rest = next :: others ∧ s = [sep].intercalate (next :: others) := by
  cases rest with
  | nil =>
    cases first with
    | nil => simp
    | cons d first => simp [eq_comm]
  | cons next others =>
    cases first with
    | nil => simp [List.intercalate_cons_cons]
    | cons d first => simp [List.intercalate_cons_cons, eq_comm]

lemma splitFrom_eq_some_iff (hsep : sep ≠ '"') : splitFrom sep quoted acc s = some pieces ↔
    ∃ first rest, pieces = (acc.reverse ++ first) :: rest ∧ s = [sep].intercalate (first :: rest) ∧
      IsPiece sep quoted first ∧ ∀ piece ∈ rest, IsPiece sep false piece := by
  induction s generalizing quoted acc pieces with
  | nil =>
    have hnil : ∀ first rest, [] = [sep].intercalate (first :: rest) ↔ first = [] ∧ rest = [] := by
      intro first rest
      cases rest with
      | nil => simp [eq_comm]
      | cons next rest => simp [List.intercalate_cons_cons]
    cases quoted <;> simp [splitFrom, hnil, IsPiece, eq_comm]
  | cons c s ih =>
    rw [splitFrom]
    simp only [cons_eq_intercalate_iff]
    -- a quote turns the sides over; outside quotes a separator ends the first piece; all else belongs to it
    split
    next hc =>
      obtain rfl := beq_iff_eq.1 hc
      rw [ih]
      constructor
      · rintro ⟨first, rest, rfl, rfl, hfirst, hrest⟩
        exact ⟨'"' :: first, rest, by simp, .inl ⟨first, rfl, rfl⟩, by simpa [IsPiece] using hfirst, hrest⟩
      · rintro ⟨_, rest, rfl, ⟨first, rfl, rfl⟩ | ⟨-, hc, -⟩, hfirst, hrest⟩
        · exact ⟨first, rest, by simp, rfl, by simpa [IsPiece] using hfirst, hrest⟩
        · exact absurd hc.symm hsep
    next hc =>
      have hquote : c ≠ '"' := by simpa using hc
      split
      next hcut =>
        obtain ⟨rfl, rfl⟩ : c = sep ∧ quoted = false := by simpa using hcut
        rw [Option.map_eq_some_iff]
        simp only [ih]
        constructor
        · rintro ⟨_, ⟨next, others, rfl, rfl, hnext, hothers⟩, rfl⟩
          exact ⟨[], next :: others, by simp, .inr ⟨rfl, trivial, next, others, rfl, rfl⟩, rfl,
            List.forall_mem_cons.2 ⟨hnext, hothers⟩⟩
        · rintro ⟨_, rest, rfl, ⟨first, rfl, -⟩ | ⟨rfl, -, next, others, rfl, rfl⟩, hfirst, hrest⟩
          · rw [IsPiece, if_neg hquote] at hfirst
            cases hfirst.1 rfl
          · exact ⟨_, ⟨next, others, rfl, rfl, List.forall_mem_cons.1 hrest⟩, by simp⟩
      next hcut =>
        have hin : c = sep → quoted = true := by simpa using hcut
        rw [ih]
        constructor
        · rintro ⟨first, rest, rfl, rfl, hfirst, hrest⟩
          refine ⟨c :: first, rest, by simp, .inl ⟨first, rfl, rfl⟩, ?_, hrest⟩
          rw [IsPiece, if_neg hquote]
          exact ⟨hin, hfirst⟩
        · rintro ⟨_, rest, rfl, ⟨first, rfl, rfl⟩ | ⟨rfl, rfl, -⟩, hfirst, hrest⟩
          · rw [IsPiece, if_neg hquote] at hfirst
            exact ⟨first, rest, by simp, rfl, hfirst.2, hrest⟩
          · rw [hin rfl] at hfirst
            cases hfirst

lemma splitOutsideQuotes?_eq_some_iff (hsep : sep ≠ '"') : splitOutsideQuotes? sep s = some pieces ↔
    pieces ≠ [] ∧ [sep].intercalate pieces = s ∧ ∀ piece ∈ pieces, IsPiece sep false piece := by
  rw [splitOutsideQuotes?, splitFrom_eq_some_iff hsep]
  constructor
  · rintro ⟨first, rest, rfl, rfl, hfirst, hrest⟩
    exact ⟨List.cons_ne_nil _ _, rfl, List.forall_mem_cons.2 ⟨hfirst, hrest⟩⟩
  · rintro ⟨hne, rfl, hpieces⟩
    obtain ⟨first, rest, rfl⟩ := List.exists_cons_of_ne_nil hne
    exact ⟨first, rest, rfl, rfl, List.forall_mem_cons.1 hpieces⟩

end Pieces

end NamespaceMigration.PackageHeader
