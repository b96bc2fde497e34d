/-! Search and replacement in lists of symbols, for texts and byte strings alike. -/

namespace NamespaceMigration.Text

variable {α : Type} [BEq α]

def strip? : List α → List α → Option (List α)
  | [], s => some s
  | _ :: _, [] => none
  | a :: word, b :: s => if a == b then strip? word s else none

def findTail? (word : List α) : List α → Option (List α)
  | [] => if word.isEmpty then some [] else none
  | c :: s => if (strip? word (c :: s)).isSome then some (c :: s) else findTail? word s

def contains (word s : List α) : Bool := (findTail? word s).isSome

def replaceFrom (word new : List α) : Nat → List α → List α → List α
  | _, acc, [] => acc.reverse
  | skip + 1, acc, _ :: s => replaceFrom word new skip acc s
  | 0, acc, c :: s =>
    if (strip? word (c :: s)).isSome then
      replaceFrom word new (word.length - 1) (new.reverse ++ acc) s
    else replaceFrom word new 0 (c :: acc) s

def replaceAll (word new s : List α) : List α := replaceFrom word new 0 [] s

def splitFirst? (p : α → Bool) (s : List α) : Option (List α × List α) :=
  match s.dropWhile (fun c => !p c) with
  | [] => none
  | _ :: after => some (s.takeWhile (fun c => !p c), after)

omit [BEq α] in
def afterLast (p : α → Bool) (s : List α) : List α :=
  (s.reverse.takeWhile (fun c => !p c)).reverse

theorem strip?_eq_some_iff [LawfulBEq α] {word s rest : List α} :
    strip? word s = some rest ↔ s = word ++ rest := by
  induction word generalizing s with
  | nil => simp [strip?, eq_comm]
  | cons a word ih =>
    cases s with
    | nil => simp [strip?]
    | cons b s =>
      by_cases h : a = b
      · simp [strip?, h, ih]
      · simp [strip?, h, Ne.symm h]

omit [BEq α] in
theorem splitFirst?_eq_some_iff {p : α → Bool} {s a b : List α} :
    splitFirst? p s = some (a, b) ↔ (∀ x ∈ a, p x = false) ∧ ∃ c, p c = true ∧ s = a ++ c :: b := by
  induction s generalizing a with
  | nil => simp [splitFirst?]
  | cons d s ih =>
    cases a with
    | nil =>
      by_cases h : p d
      · simp only [splitFirst?, List.dropWhile_cons, List.takeWhile_cons, h]
        grind
      · simp only [splitFirst?, List.dropWhile_cons, List.takeWhile_cons, h]
        grind
    | cons e a =>
      have step : splitFirst? p (d :: s) = some (e :: a, b) ↔
          p d = false ∧ d = e ∧ splitFirst? p s = some (a, b) := by
        by_cases h : p d
        · simp [splitFirst?, h]
        · simp only [splitFirst?, List.dropWhile_cons, List.takeWhile_cons, h]
          cases hs : s.dropWhile (fun c => !p c) <;> simp [and_assoc]
      rw [step, ih]
      grind

omit [BEq α] in
theorem length_of_splitFirst? {p : α → Bool} {s a b : List α} (h : splitFirst? p s = some (a, b)) :
    b.length < s.length := by
  obtain ⟨_, c, _, rfl⟩ := splitFirst?_eq_some_iff.1 h
  simp only [List.length_append, List.length_cons]
  omega

end NamespaceMigration.Text
