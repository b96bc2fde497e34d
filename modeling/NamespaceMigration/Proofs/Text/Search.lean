import Mathlib.Data.List.Basic
import NamespaceMigration.Text.Search

namespace NamespaceMigration.Text

variable {α : Type} [BEq α] [LawfulBEq α] {word new s rest : List α}

lemma strip?_isSome_iff : (strip? word s).isSome ↔ word <+: s := by
  simp only [Option.isSome_iff_exists, strip?_eq_some_iff]
  exact exists_congr fun rest => eq_comm

lemma strip?_append (word s : List α) : strip? word (word ++ s) = some s := strip?_eq_some_iff.2 rfl

lemma findTail?_isSome_iff : (findTail? word s).isSome ↔ word <:+: s := by
  induction s with
  | nil => simp [findTail?]
  | cons c s ih =>
    rw [findTail?, List.infix_cons_iff, ← strip?_isSome_iff, ← ih]
    split
    next h => simp [h]
    next h => simp [h]

lemma strip?_append_cons {c : α} (hc : c ∉ word) (a b : List α) :
    strip? word (a ++ c :: b) = (strip? word a).map (· ++ c :: b) := by
  induction word generalizing a with
  | nil => simp [strip?]
  | cons w word ih =>
    rw [List.mem_cons, not_or] at hc
    cases a with
    | nil => simp [strip?, Ne.symm hc.1]
    | cons d a =>
      simp only [List.cons_append, strip?]
      split
      · exact ih hc.2 a
      · rfl

section Cut

variable {a : α} {x y z w : List α}

lemma append_cons_inj_of_notMem_left (hx : a ∉ x) (hy : a ∉ y) : x ++ a :: z = y ++ a :: w ↔ x = y ∧ z = w := by
  constructor
  · intro h
    have hp : ∀ t : List α, a ∉ t → ∀ b ∈ t, (b == a) = false := by
      intro t ht b hb
      exact beq_false_of_ne (ne_of_mem_of_not_mem hb ht)
    have h1 : splitFirst? (· == a) (x ++ a :: z) = some (x, z) :=
      splitFirst?_eq_some_iff.2 ⟨hp x hx, a, beq_self_eq_true a, rfl⟩
    have h2 : splitFirst? (· == a) (x ++ a :: z) = some (y, w) :=
      splitFirst?_eq_some_iff.2 ⟨hp y hy, a, beq_self_eq_true a, h⟩
    simpa [h1] using h2
  · rintro ⟨rfl, rfl⟩
    rfl

lemma append_cons_inj_of_notMem_right (hz : a ∉ z) (hw : a ∉ w) : x ++ a :: z = y ++ a :: w ↔ x = y ∧ z = w := by
  rw [← List.reverse_inj]
  simp only [List.reverse_append, List.reverse_cons, List.append_assoc, List.singleton_append]
  rw [append_cons_inj_of_notMem_left (by simpa using hz) (by simpa using hw), List.reverse_inj, List.reverse_inj]
  exact and_comm

end Cut

section Ends

variable {p : α → Bool} {a w : List α} {d : α}

omit [BEq α] [LawfulBEq α] in
lemma afterLast_eq_self (h : ∀ c ∈ s, p c = false) : afterLast p s = s := by
  have htake : (s.reverse ++ []).takeWhile (fun c => !p c) = s.reverse ++ [] :=
    List.takeWhile_append_of_pos (by simpa using h)
  rw [List.append_nil] at htake
  rw [afterLast, htake, List.reverse_reverse]

omit [BEq α] [LawfulBEq α] in
lemma afterLast_append_cons (hd : p d = true) (hw : ∀ c ∈ w, p c = false) : afterLast p (a ++ d :: w) = w := by
  have htake : (w.reverse ++ d :: a.reverse).takeWhile (fun c => !p c) = w.reverse := by
    rw [List.takeWhile_append_of_pos (by simpa using hw), List.takeWhile_cons_of_neg (by simp [hd]), List.append_nil]
  rw [afterLast, List.reverse_append, List.reverse_cons, List.append_assoc, List.singleton_append, htake, List.reverse_reverse]

omit [BEq α] [LawfulBEq α] in
lemma exists_last (p : α → Bool) (s : List α) :
    (∀ c ∈ s, p c = false) ∨ ∃ a d w, p d = true ∧ (∀ c ∈ w, p c = false) ∧ s = a ++ d :: w := by
  induction s with
  | nil => exact .inl (by simp)
  | cons c s ih =>
    rcases ih with h | ⟨a, d, w, hd, hw, rfl⟩
    · cases hc : p c with
      | true => exact .inr ⟨[], c, s, hc, h, rfl⟩
      | false => exact .inl (List.forall_mem_cons.2 ⟨hc, h⟩)
    · exact .inr ⟨c :: a, d, w, hd, hw, rfl⟩

omit [BEq α] [LawfulBEq α] in
lemma of_mem_afterLast (h : d ∈ afterLast p s) : p d = false := by
  rw [afterLast, List.mem_reverse] at h
  simpa using List.all_eq_true.1 List.all_takeWhile d h

omit [BEq α] [LawfulBEq α] in
lemma afterLast_subset : afterLast p s ⊆ s := by
  intro c hc
  rw [afterLast, List.mem_reverse] at hc
  exact List.mem_reverse.1 (List.takeWhile_subset _ hc)

lemma strip?_reverse_isSome_iff : (strip? word.reverse s.reverse).isSome ↔ word <:+ s := by
  rw [strip?_isSome_iff, List.reverse_prefix]

end Ends

section Replace

omit [LawfulBEq α] in
lemma replaceFrom_acc (skip : ℕ) (acc s : List α) :
    replaceFrom word new skip acc s = acc.reverse ++ replaceFrom word new skip [] s := by
  induction s generalizing skip acc with
  | nil => simp [replaceFrom]
  | cons c s ih =>
    cases skip with
    | succ skip => exact ih skip acc
    | zero =>
      simp only [replaceFrom]
      split
      · rw [ih _ (new.reverse ++ acc), ih _ (new.reverse ++ [])]
        simp
      · rw [ih _ (c :: acc), ih _ [c]]
        simp

omit [LawfulBEq α] in
lemma replaceFrom_append (skipped s : List α) :
    replaceFrom word new skipped.length [] (skipped ++ s) = replaceAll word new s := by
  induction skipped with
  | nil => rfl
  | cons c skipped ih => simpa [replaceFrom] using ih

omit [LawfulBEq α] in
lemma replaceAll_nil : replaceAll word new [] = [] := rfl

lemma replaceAll_append (hw : word ≠ []) (s : List α) : replaceAll word new (word ++ s) = new ++ replaceAll word new s := by
  obtain ⟨c, word, rfl⟩ := List.exists_cons_of_ne_nil hw
  have hs : (strip? (c :: word) (c :: (word ++ s))).isSome := strip?_isSome_iff.2 (List.prefix_append (c :: word) s)
  rw [replaceAll, List.cons_append, replaceFrom, if_pos hs, replaceFrom_acc]
  simpa using replaceFrom_append word s

lemma replaceAll_cons (c : α) (h : ¬ word <+: c :: s) : replaceAll word new (c :: s) = c :: replaceAll word new s := by
  rw [replaceAll, replaceFrom, if_neg (mt strip?_isSome_iff.1 h), replaceFrom_acc]
  rfl

lemma replaceAll_self (hw : word ≠ []) : replaceAll word new word = new := by
  have h : replaceAll word new (word ++ []) = new ++ replaceAll word new [] := replaceAll_append hw []
  rwa [List.append_nil, replaceAll_nil, List.append_nil] at h

lemma replaceAll_of_absent (h : ¬ word <:+: s) : replaceAll word new s = s := by
  induction s with
  | nil => rfl
  | cons c s ih =>
    rw [List.infix_cons_iff, not_or] at h
    rw [replaceAll_cons c h.1, ih h.2]

lemma exists_length_replaceAll (hw : word ≠ []) (new s : List α) : ∃ count, (count = 0 ↔ ¬ word <:+: s) ∧
    (replaceAll word new s).length + count * word.length = s.length + count * new.length := by
  induction hn : s.length using Nat.strongRecOn generalizing s with
  | ind n ih =>
    by_cases h : word <+: s
    · obtain ⟨t, rfl⟩ := h
      have hpos := List.length_pos_iff.2 hw
      rw [List.length_append] at hn
      obtain ⟨count, -, hlength⟩ := ih t.length (by omega) t rfl
      refine ⟨count + 1, ?_, ?_⟩
      · exact iff_of_false (Nat.succ_ne_zero count) (not_not.2 (List.prefix_append word t).isInfix)
      · rw [replaceAll_append hw, List.length_append, Nat.succ_mul, Nat.succ_mul]
        omega
    · cases s with
      | nil =>
        refine ⟨0, iff_of_true rfl fun hi => hw (List.infix_nil.1 hi), ?_⟩
        rw [replaceAll_nil, Nat.zero_mul, Nat.zero_mul, hn]
      | cons c s =>
        rw [List.length_cons] at hn
        obtain ⟨count, hcount, hlength⟩ := ih s.length (by omega) s rfl
        refine ⟨count, ?_, ?_⟩
        · rw [hcount, List.infix_cons_iff, or_iff_right h]
        · rw [replaceAll_cons c h, List.length_cons]
          omega

lemma replaceAll_append_cons {c : α} (hw : word ≠ []) (hc : c ∉ word) (a b : List α) :
    replaceAll word new (a ++ c :: b) = replaceAll word new a ++ c :: replaceAll word new b := by
  induction hn : a.length using Nat.strongRecOn generalizing a with
  | ind n ih =>
    have hstrip := strip?_append_cons hc a b
    by_cases h : word <+: a
    · obtain ⟨t, rfl⟩ := h
      have ht : t.length < n := by
        have := List.length_pos_iff.2 hw
        simp at hn
        omega
      rw [List.append_assoc, replaceAll_append hw, ih _ ht t rfl, replaceAll_append hw, List.append_assoc]
    · have hno : ¬ word <+: a ++ c :: b := by
        rw [← strip?_isSome_iff, hstrip, Option.isSome_map, strip?_isSome_iff]
        exact h
      cases a with
      | nil => exact replaceAll_cons c hno
      | cons d a =>
        rw [List.cons_append] at hno ⊢
        rw [replaceAll_cons d hno, ih a.length (by simp [← hn]) a rfl, replaceAll_cons d h, List.cons_append]

omit [LawfulBEq α] in
lemma mem_replaceAll {c : α} (h : c ∈ replaceAll word new s) : c ∈ new ∨ c ∈ s := by
  have hfrom : ∀ (skip : ℕ) (s : List α), c ∈ replaceFrom word new skip [] s → c ∈ new ∨ c ∈ s := by
    intro skip s
    induction s generalizing skip with
    | nil => simp [replaceFrom]
    | cons d s ih =>
      intro h
      cases skip with
      | succ skip => exact (ih skip h).imp_right (List.mem_cons_of_mem d)
      | zero =>
        rw [replaceFrom, replaceFrom_acc, replaceFrom_acc 0 [d]] at h
        split at h
        · rw [List.append_nil, List.reverse_reverse, List.mem_append] at h
          exact h.elim .inl fun h => (ih _ h).imp_right (List.mem_cons_of_mem d)
        · rw [List.reverse_singleton, List.singleton_append, List.mem_cons] at h
          exact h.elim (fun h => .inr (by simp [h])) fun h => (ih 0 h).imp_right (List.mem_cons_of_mem d)
  exact hfrom 0 s h

end Replace

end NamespaceMigration.Text
