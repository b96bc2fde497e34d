import Mathlib.Data.List.TakeWhile
import NamespaceMigration.Text.Basic

namespace NamespaceMigration.Text

variable {a b s front back : List Char} {c : Char}

def Blank (s : List Char) : Prop := ∀ c ∈ s, isBlank c = true

lemma blank_takeWhile (s : List Char) : Blank (s.takeWhile isBlank) :=
  List.all_eq_true.1 (List.all_takeWhile (p := isBlank) (l := s))

lemma exists_trimStart (s : List Char) : ∃ front, Blank front ∧ s = front ++ trimStart s :=
  ⟨_, blank_takeWhile s, List.takeWhile_append_dropWhile.symm⟩

lemma exists_trimEnd (s : List Char) : ∃ back, Blank back ∧ s = trimEnd s ++ back := by
  refine ⟨(s.reverse.takeWhile isBlank).reverse, ?_, ?_⟩
  · intro c hc
    exact blank_takeWhile s.reverse c (List.mem_reverse.1 hc)
  · rw [trimEnd, ← List.reverse_append, List.takeWhile_append_dropWhile, List.reverse_reverse]

lemma exists_trimChars (s : List Char) :
    ∃ front back, Blank front ∧ Blank back ∧ s = front ++ (trimChars s ++ back) := by
  obtain ⟨front, hfront, hs⟩ := exists_trimStart s
  obtain ⟨back, hback, ht⟩ := exists_trimEnd (trimStart s)
  exact ⟨front, back, hfront, hback, hs.trans (congrArg (front ++ ·) ht)⟩

lemma isInfix_trimChars (s : List Char) : trimChars s <:+: s := by
  obtain ⟨front, back, -, -, h⟩ := exists_trimChars s
  exact ⟨front, back, by rw [List.append_assoc, ← h]⟩

lemma of_mem_trimChars (h : c ∈ s) : c ∈ trimChars s ∨ isBlank c = true := by
  obtain ⟨front, back, hfront, hback, hs⟩ := exists_trimChars s
  rw [hs, List.mem_append, List.mem_append] at h
  rcases h with h | h | h
  · exact .inr (hfront c h)
  · exact .inl h
  · exact .inr (hback c h)

lemma trimStart_append (h : Blank front) (s : List Char) : trimStart (front ++ s) = trimStart s :=
  List.dropWhile_append_of_pos h

lemma trimEnd_append (h : Blank back) (s : List Char) : trimEnd (s ++ back) = trimEnd s := by
  rw [trimEnd, List.reverse_append, List.dropWhile_append_of_pos (by simpa [Blank] using h), trimEnd]

lemma trimChars_append_left (h : Blank front) (s : List Char) : trimChars (front ++ s) = trimChars s := by
  rw [trimChars, trimStart_append h, trimChars]

lemma trimChars_append_right (h : Blank back) (s : List Char) : trimChars (s ++ back) = trimChars s := by
  rw [trimChars, trimStart, List.dropWhile_append]
  split
  next hs =>
    -- all of the text is blank, and nothing of either is left
    rw [List.dropWhile_eq_nil_iff.2 h, trimChars, trimStart, List.isEmpty_iff.1 hs]
  next => exact trimEnd_append h _

lemma trimChars_trimStart (s : List Char) : trimChars (trimStart s) = trimChars s := by
  obtain ⟨front, hfront, hs⟩ := exists_trimStart s
  exact (trimChars_append_left hfront _).symm.trans (congrArg trimChars hs.symm)

lemma trimChars_trimEnd (s : List Char) : trimChars (trimEnd s) = trimChars s := by
  obtain ⟨back, hback, hs⟩ := exists_trimEnd s
  exact (trimChars_append_right hback _).symm.trans (congrArg trimChars hs.symm)

lemma trimChars_append_cons (hc : isBlank c = false) (a b : List Char) :
    trimChars (a ++ c :: b) = trimStart a ++ c :: trimEnd b := by
  have hstart : ∀ s, (c :: s).dropWhile isBlank = c :: s := fun s => List.dropWhile_cons_of_neg (by simp [hc])
  have hfront : trimStart (a ++ c :: b) = trimStart a ++ c :: b := by
    rw [trimStart, List.dropWhile_append, hstart]
    split
    next ha => rw [trimStart, List.isEmpty_iff.1 ha, List.nil_append]
    next => rfl
  rw [trimChars, hfront, trimEnd, List.reverse_append, List.reverse_cons, List.append_assoc, List.singleton_append,
    List.dropWhile_append, hstart]
  split
  next hb => simp [trimEnd, List.isEmpty_iff.1 hb]
  next => simp [trimEnd]

lemma trimChars_eq_self (h : ∀ c ∈ s, isBlank c = false) : trimChars s = s := by
  obtain ⟨front, back, hfront, hback, hs⟩ := exists_trimChars s
  have hnil : ∀ t : List Char, Blank t → t ⊆ s → t = [] := by
    intro t ht hsub
    refine List.eq_nil_iff_forall_not_mem.2 fun c hc => ?_
    exact absurd (ht c hc) (by simp [h c (hsub hc)])
  have hf : front = [] := hnil front hfront (by rw [hs]; exact List.subset_append_left _ _)
  have hb : back = [] := hnil back hback (by rw [hs]; intro c hc; simp [hc])
  rw [hf, hb, List.nil_append, List.append_nil] at hs
  exact hs.symm

end NamespaceMigration.Text
