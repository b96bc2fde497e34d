import Mathlib.Data.List.Sort
import NamespaceMigration.Proofs.Profile.Tokens

namespace NamespaceMigration.Profile

variable {α : Type}

section Scan

variable {lengthAt : List α → Option ℕ} {skip pos i : ℕ} {s text : List α}

lemma drop_succ_of_drop_eq_cons {c : α} (ht : text.drop pos = c :: s) : text.drop (pos + 1) = s := by
  rw [← List.drop_drop, ht]
  rfl

lemma isSome_of_mem_scan (ht : text.drop pos = s) (h : i ∈ scan lengthAt skip pos s) : (lengthAt (text.drop i)).isSome := by
  induction s generalizing skip pos with
  | nil => cases skip <;> simp [scan] at h
  | cons c s ih =>
    have ht' := drop_succ_of_drop_eq_cons ht
    cases skip with
    | succ skip => exact ih ht' h
    | zero =>
      rw [scan] at h
      split at h
      next n hn =>
        rcases List.mem_cons.1 h with rfl | h
        · rw [ht, hn]
          rfl
        · exact ih ht' h
      next => exact ih ht' h

lemma pairwise_scan (ht : text.drop pos = s) :
    (scan lengthAt skip pos s).Pairwise fun i j => ∀ n ∈ lengthAt (text.drop i), i + n ≤ j := by
  induction s generalizing skip pos with
  | nil => cases skip <;> exact .nil
  | cons c s ih =>
    have ht' := drop_succ_of_drop_eq_cons ht
    cases skip with
    | succ skip => exact ih ht'
    | zero =>
      rw [scan]
      split
      next n hn =>
        refine .cons (fun j hj m hm => ?_) (ih ht')
        rw [ht, hn, Option.mem_some_iff] at hm
        have hle := add_le_of_mem_scan hj
        omega
      next => exact ih ht'

lemma mem_scan_or_covered (hnil : lengthAt [] = none) (ht : text.drop pos = s) (hi : pos + skip ≤ i)
    (h : (lengthAt (text.drop i)).isSome) :
    i ∈ scan lengthAt skip pos s ∨ ∃ j ∈ scan lengthAt skip pos s, j < i ∧ ∃ n ∈ lengthAt (text.drop j), i < j + n := by
  induction s generalizing skip pos with
  | nil =>
    have hend : text.drop i = [] := List.drop_eq_nil_of_le ((List.drop_eq_nil_iff.1 ht).trans (by omega))
    simp [hend, hnil] at h
  | cons c s ih =>
    have ht' := drop_succ_of_drop_eq_cons ht
    cases skip with
    | succ skip => exact ih ht' (by omega)
    | zero =>
      rw [scan]
      split
      next n hn =>
        have hpos : n ∈ lengthAt (text.drop pos) := ht ▸ hn
        by_cases hhead : i = pos
        · exact .inl (hhead ▸ List.mem_cons_self)
        · by_cases hspan : i < pos + n
          · exact .inr ⟨pos, List.mem_cons_self, by omega, n, hpos, hspan⟩
          · rcases @ih (n - 1) (pos + 1) ht' (by omega) with hm | ⟨j, hj, hcovered⟩
            · exact .inl (List.mem_cons_of_mem _ hm)
            · exact .inr ⟨j, List.mem_cons_of_mem _ hj, hcovered⟩
      next hn =>
        have hhead : i ≠ pos := by
          rintro rfl
          simp [ht, hn] at h
        exact ih ht' (by omega)

end Scan

section Pieces

variable {width start : ℕ} {found : List ℕ} {new token s : List α}

def between (width : ℕ) : ℕ → List ℕ → List α → List (List α)
  | _, [], s => [s]
  | start, pos :: found, s =>
    s.take (pos - start) :: between width (pos + width) found (s.drop (pos - start + width))

lemma length_between (width start : ℕ) (found : List ℕ) (s : List α) :
    (between width start found s).length = found.length + 1 := by
  induction found generalizing start s with
  | nil => rfl
  | cons pos found ih => rw [between, List.length_cons, ih, List.length_cons]

lemma between_ne_nil (width start : ℕ) (found : List ℕ) (s : List α) : between width start found s ≠ [] := by
  rw [← List.length_pos_iff, length_between]
  exact Nat.succ_pos _

lemma substitute_eq_intercalate (width : ℕ) (new : List α) (start : ℕ) (found : List ℕ) (s : List α) :
    substitute width new start found s = new.intercalate (between width start found s) := by
  induction found generalizing start s with
  | nil => exact List.intercalate_singleton.symm
  | cons pos found ih => rw [substitute, between, ih, List.intercalate_cons_of_ne_nil (between_ne_nil _ _ _ _)]

structure Standing (token : List α) (start : ℕ) (found : List ℕ) (s : List α) : Prop where
  le : ∀ i ∈ found, start ≤ i
  stands : ∀ i ∈ found, token <+: s.drop (i - start)
  apart : found.Pairwise fun i j => i + token.length ≤ j

lemma Standing.tail {pos : ℕ} (h : Standing token start (pos :: found) s) :
    Standing token (pos + token.length) found (s.drop (pos - start + token.length)) := by
  have hpos := h.le pos List.mem_cons_self
  obtain ⟨hnext, hrest⟩ := List.pairwise_cons.1 h.apart
  refine ⟨hnext, fun i hi => ?_, hrest⟩
  have hle := hnext i hi
  have hdrop : pos - start + token.length + (i - (pos + token.length)) = i - start := by omega
  rw [List.drop_drop, hdrop]
  exact h.stands i (List.mem_cons_of_mem _ hi)

lemma Standing.intercalate_between (h : Standing token start found s) :
    token.intercalate (between token.length start found s) = s := by
  induction found generalizing start s with
  | nil => exact List.intercalate_singleton
  | cons pos found ih =>
    obtain ⟨rest, hrest⟩ := h.stands pos List.mem_cons_self
    have hdrop : s.drop (pos - start + token.length) = rest := by
      rw [← List.drop_drop, ← hrest, List.drop_left]
    rw [between, List.intercalate_cons_of_ne_nil (between_ne_nil _ _ _ _), ih h.tail, hdrop, List.append_assoc, hrest]
    exact List.take_append_drop _ _

lemma Standing.eq_map_length (hw : token ≠ []) (h : Standing token start found s) :
    found = (List.range found.length).map fun k =>
      start + (token.intercalate ((between token.length start found s).take (k + 1))).length := by
  induction found generalizing start s with
  | nil => rfl
  | cons pos found ih =>
    have hpos := h.le pos List.mem_cons_self
    have hlength : (s.take (pos - start)).length = pos - start := by
      apply List.length_take_of_le
      by_contra hlong
      have hstands := h.stands pos List.mem_cons_self
      rw [List.drop_eq_nil_of_le (by omega)] at hstands
      exact hw (List.prefix_nil.1 hstands)
    have hrest := ih h.tail
    have hne := between_ne_nil token.length (pos + token.length) found (s.drop (pos - start + token.length))
    rw [List.length_cons, List.range_succ_eq_map, List.map_cons, List.map_map]
    congr 1
    · rw [between, List.take_succ_cons, List.take_zero, List.intercalate_singleton, hlength]
      omega
    · nth_rewrite 1 [hrest]
      apply List.map_congr_left
      intro k _
      have htake : (between token.length (pos + token.length) found (s.drop (pos - start + token.length))).take (k + 1) ≠ [] := by
        simpa using hne
      rw [Function.comp_apply, between, List.take_succ_cons, List.intercalate_cons_of_ne_nil htake]
      simp only [List.length_append, hlength]
      omega

end Pieces

section Leftmost

variable [BEq α] [Alphabet α] {p : Profile} {s : List α} {i e : ℕ} {found found' : List ℕ}

def Occurs (p : Profile) (s : List α) (i : ℕ) : Prop :=
  (Alphabet.spell p.source : List α) ≠ [] ∧ ∃ after, s.drop i = Alphabet.spell p.source ++ after ∧ Matches p.rules after

def Spans (p : Profile) (s : List α) (i e : ℕ) : Prop :=
  (Alphabet.spell p.source : List α) ≠ [] ∧ ∃ after earlier r later n, s.drop i = Alphabet.spell p.source ++ after ∧
    p.rules = earlier ++ r :: later ∧ (∀ q ∈ earlier, q.matchLength? after = none) ∧ r.matchLength? after = some n ∧
    e = i + (Alphabet.spell p.source : List α).length + n

/-- Whether the positions are those of the leftmost occurrences that do not overlap: every other one begins inside the
span of an earlier one among them. -/
structure Leftmost (p : Profile) (s : List α) (found : List ℕ) : Prop where
  increasing : found.Pairwise (· < ·)
  occurs : ∀ i ∈ found, p.Occurs s i
  apart : found.Pairwise fun i j => ∀ e, p.Spans s i e → e ≤ j
  covered : ∀ i, p.Occurs s i → i ∉ found → ∃ j ∈ found, j < i ∧ ∃ e, p.Spans s j e ∧ i < e

variable [LawfulBEq α]

lemma occurs_iff : p.Occurs s i ↔ (Alphabet.spell p.source : List α) ≠ [] ∧
    (matchLength? p.rules (Alphabet.spell p.source) (s.drop i)).isSome := by
  rw [Occurs, matchLength?_isSome_iff]

lemma spans_iff : p.Spans s i e ↔ (Alphabet.spell p.source : List α) ≠ [] ∧
    ∃ n ∈ matchLength? p.rules (Alphabet.spell p.source) (s.drop i), e = i + n := by
  refine and_congr_right fun _ => ?_
  simp only [matchLength?, Option.bind_eq_bind, Option.mem_def, Option.bind_eq_some_iff, Text.strip?_eq_some_iff,
    List.findSome?_eq_some_iff, Option.pure_def, Option.some.injEq]
  constructor
  · rintro ⟨after, earlier, r, later, n, hafter, hrules, hearlier, hr, rfl⟩
    exact ⟨_, ⟨after, hafter, n, ⟨earlier, r, later, hrules, hr, hearlier⟩, rfl⟩, Nat.add_assoc _ _ _⟩
  · rintro ⟨_, ⟨after, hafter, n, ⟨earlier, r, later, hrules, hr, hearlier⟩, rfl⟩, rfl⟩
    exact ⟨after, earlier, r, later, n, hafter, hrules, hearlier, hr, (Nat.add_assoc _ _ _).symm⟩

lemma Spans.bounds (h : p.Spans s i e) : i < e ∧ e ≤ s.length := by
  obtain ⟨hs, n, hn, rfl⟩ := spans_iff.1 h
  have hb := bounds_of_matchLength? hn
  have hw := List.length_pos_iff.2 hs
  rw [List.length_drop] at hb
  omega

lemma matchLength?_nil (hs : (Alphabet.spell p.source : List α) ≠ []) :
    matchLength? p.rules (Alphabet.spell p.source : List α) [] = none := by
  rw [matchLength?_eq_none_iff]
  intro after h
  exact absurd (List.append_eq_nil_iff.1 h.symm).1 hs

variable (p s) in
lemma leftmost_positions : p.Leftmost s (p.positions s) := by
  by_cases hs : (Alphabet.spell p.source : List α) = []
  · rw [positions_of_source_eq_nil hs]
    exact ⟨.nil, by simp, .nil, fun i hi => absurd hs hi.1⟩
  · have hscan := positions_eq_scan hs s
    have hoccurs : ∀ i ∈ p.positions s, p.Occurs s i := by
      intro i hi
      rw [hscan] at hi
      exact occurs_iff.2 ⟨hs, isSome_of_mem_scan rfl hi⟩
    have hapart : (p.positions s).Pairwise fun i j => ∀ e, p.Spans s i e → e ≤ j := by
      rw [hscan]
      refine (pairwise_scan rfl).imp fun hij e he => ?_
      obtain ⟨-, n, hn, rfl⟩ := spans_iff.1 he
      exact hij n hn
    refine ⟨hapart.imp_of_mem fun {i j} hi _ hij => ?_, hoccurs, hapart, fun i hi hno => ?_⟩
    · obtain ⟨n, hn⟩ := Option.isSome_iff_exists.1 (occurs_iff.1 (hoccurs i hi)).2
      have hspan : p.Spans s i (i + n) := spans_iff.2 ⟨hs, n, hn, rfl⟩
      exact hspan.bounds.1.trans_le (hij _ hspan)
    · rw [hscan] at hno ⊢
      obtain ⟨j, hj, hji, n, hn, hin⟩ :=
        (mem_scan_or_covered (matchLength?_nil hs) rfl (Nat.zero_le i) (occurs_iff.1 hi).2).resolve_left hno
      exact ⟨j, hj, hji, j + n, spans_iff.2 ⟨hs, n, hn, rfl⟩, hin⟩

omit [LawfulBEq α] in
lemma Leftmost.le_of_spans (h : p.Leftmost s found) {j : ℕ} (hi : i ∈ found) (hj : j ∈ found) (hij : i < j)
    (he : p.Spans s i e) : e ≤ j := by
  obtain ⟨a, ha, rfl⟩ := List.mem_iff_getElem.1 hi
  obtain ⟨b, hb, rfl⟩ := List.mem_iff_getElem.1 hj
  rcases Nat.lt_trichotomy a b with hab | rfl | hab
  · exact List.pairwise_iff_getElem.1 h.apart a b ha hb hab e he
  · omega
  · have hba := List.pairwise_iff_getElem.1 h.increasing b a hb ha hab
    omega

omit [LawfulBEq α] in
lemma Leftmost.mem_of_agree (h : p.Leftmost s found) (h' : p.Leftmost s found') (hbelow : ∀ j < i, j ∈ found ↔ j ∈ found')
    (hi : i ∈ found) : i ∈ found' := by
  by_contra hno
  obtain ⟨j, hj, hji, e, he, hie⟩ := h'.covered i (h.occurs i hi) hno
  have hle := h.le_of_spans ((hbelow j hji).2 hj) hi hji he
  omega

omit [LawfulBEq α] in
lemma Leftmost.eq (h : p.Leftmost s found) (h' : p.Leftmost s found') : found = found' := by
  refine h.increasing.eq_of_mem_iff h'.increasing fun i => ?_
  induction i using Nat.strongRecOn with
  | ind i ih => exact ⟨h.mem_of_agree h' ih, h'.mem_of_agree h fun j hj => (ih j hj).symm⟩

variable (s) in
lemma standing_positions (hs : (Alphabet.spell p.source : List α) ≠ []) :
    Standing (Alphabet.spell p.source) 0 (p.positions s) s := by
  have h := leftmost_positions p s
  refine ⟨fun i _ => Nat.zero_le i, fun i hi => ?_, h.apart.imp_of_mem fun {i j} hi _ hij => ?_⟩
  · obtain ⟨-, after, hafter, -⟩ := h.occurs i hi
    rw [Nat.sub_zero, hafter]
    exact List.prefix_append _ _
  · obtain ⟨n, hn⟩ := Option.isSome_iff_exists.1 (occurs_iff.1 (h.occurs i hi)).2
    have hle := hij _ (spans_iff.2 ⟨hs, n, hn, rfl⟩)
    exact (Nat.add_le_add_left (bounds_of_matchLength? hn).1 i).trans hle

def pieces (p : Profile) (s : List α) : List (List α) := between (Alphabet.spell p.source : List α).length 0 (p.positions s) s

omit [LawfulBEq α] in
lemma pieces_of_positions_eq_nil (h : p.positions s = []) : p.pieces s = [s] := by
  rw [pieces, h, between]

variable (p s) in
lemma intercalate_source_pieces : (Alphabet.spell p.source : List α).intercalate (p.pieces s) = s := by
  by_cases hs : (Alphabet.spell p.source : List α) = []
  · rw [pieces_of_positions_eq_nil (positions_of_source_eq_nil hs s)]
    exact List.intercalate_singleton
  · exact (standing_positions s hs).intercalate_between

variable (p s) in
lemma intercalate_target_pieces : (Alphabet.spell p.target : List α).intercalate (p.pieces s) = (p.migrateSymbols s).value := by
  rw [migrateSymbols]
  split
  next h =>
    rw [Bool.or_eq_true, List.isEmpty_iff, isTrivial, beq_iff_eq] at h
    rcases h with hnone | htrivial
    · rw [pieces_of_positions_eq_nil hnone]
      exact List.intercalate_singleton
    · rw [← htrivial]
      exact intercalate_source_pieces p s
  next => exact (substitute_eq_intercalate _ _ _ _ _).symm

end Leftmost

/-- The positions found are those of the leftmost matches, which are determined by that, and each of them takes some of the
text. Between the tokens at these positions a text and its migration have the same pieces. -/
theorem leftmost_iff_and_migrateBytes (p : Profile) (s : Bytes) :
    (∀ found, p.Leftmost s found ↔ found = p.positions s) ∧ (∀ i e, p.Spans s i e → i < e ∧ e ≤ s.length) ∧
    ∃ pieces : List Bytes, s = (Bytes.utf8 p.source).intercalate pieces ∧
      (p.migrateBytes s).value = (Bytes.utf8 p.target).intercalate pieces ∧
      p.positions s = (List.range (pieces.length - 1)).map fun k =>
        ((Bytes.utf8 p.source).intercalate (pieces.take (k + 1))).length := by
  have hleftmost := leftmost_positions p s
  refine ⟨fun found => ⟨fun h => h.eq hleftmost, fun h => h ▸ hleftmost⟩, fun i e h => h.bounds, p.pieces s, ?_, ?_, ?_⟩
  · exact (intercalate_source_pieces p s).symm
  · exact (intercalate_target_pieces p s).symm
  · by_cases hs : (Alphabet.spell p.source : Bytes) = []
    · have hnone := positions_of_source_eq_nil hs s
      rw [pieces_of_positions_eq_nil hnone, hnone]
      rfl
    · have hmap := (standing_positions s hs).eq_map_length hs
      simp only [Nat.zero_add] at hmap
      rw [pieces, length_between, Nat.add_sub_cancel]
      exact hmap

example :
    let p : Profile := ⟨"N", "aa", "b", [⟨["aa"], [], ["d"]⟩, ⟨[], [], []⟩]⟩
    p.positions (Bytes.utf8 "aaa aa.aa.d aa.aa") = [0, 4, 7, 12] := by
  decide +kernel

end NamespaceMigration.Profile
