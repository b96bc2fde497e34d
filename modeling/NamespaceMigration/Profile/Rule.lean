import NamespaceMigration.Bytes
import NamespaceMigration.Text.Search

/-! Rules say which child namespaces of a token move with it, over any alphabet in which strings can be spelt. -/

namespace NamespaceMigration

class Alphabet (α : Type) where
  spell : String → List α
  isSeparator : α → Bool

instance : Alphabet Char where
  spell := String.toList
  isSeparator c := c == '.' || c == '/'

instance : Alphabet UInt8 where
  spell := Bytes.utf8
  isSeparator b := b == 0x2E || b == 0x2F

/-- A child namespace that moves: all of it, or only the listed leaves, and never below an exception. -/
structure Rule where
  path : List String
  leaves : List (List String)
  exceptions : List String
  deriving DecidableEq, Repr

namespace Rule

def segments (path : String) : List String :=
  ((path.toList.splitOnP Alphabet.isSeparator).filter (fun s => !s.isEmpty)).map String.ofList

def whole (path : String) : Rule := ⟨segments path, [], []⟩

def onlyLeaves (path : String) (leaves : List String) : Rule := ⟨segments path, leaves.map segments, []⟩

def except (r : Rule) (child : String) : Rule := { r with exceptions := r.exceptions ++ [child] }

variable {α : Type} [BEq α] [Alphabet α]

/-- Strips the segments, each after one separator. The last one may go on: segments are heads of words. -/
def stripSegments : List String → List α → Option (List α)
  | [], s => some s
  | _ :: _, [] => none
  | word :: path, c :: s =>
    if Alphabet.isSeparator c then (Text.strip? (Alphabet.spell word) s).bind (stripSegments path) else none

def goesOnWith (child : String) : List α → Bool
  | [] => false
  | c :: s => Alphabet.isSeparator c && (Text.strip? (Alphabet.spell child) s).isSome

def width (α : Type) [Alphabet α] (path : List String) : Nat :=
  (path.map fun word => (Alphabet.spell word : List α).length + 1).foldr (· + ·) 0

def matchLength? (r : Rule) (s : List α) : Option Nat := do
  let rest ← stripSegments r.path s
  if r.exceptions.any (goesOnWith · rest) then none
  else if r.leaves.isEmpty then some (width α r.path)
  else r.leaves.findSome? fun leaf => (stripSegments leaf rest).map fun _ => width α r.path + width α leaf

theorem length_of_stripSegments [LawfulBEq α] {path : List String} {s rest : List α}
    (h : stripSegments path s = some rest) : s.length = width α path + rest.length := by
  induction path generalizing s with
  | nil => simp_all [stripSegments, width]
  | cons word path ih =>
    cases s with
    | nil => simp [stripSegments] at h
    | cons c s =>
      simp only [stripSegments] at h
      split at h
      · obtain ⟨t, ht, h⟩ := Option.bind_eq_some_iff.1 h
        have hs := Text.strip?_eq_some_iff.1 ht
        have hw : width α (word :: path) = (Alphabet.spell word : List α).length + 1 + width α path := by
          simp [width]
        have := ih h
        simp only [hw, List.length_cons, hs, List.length_append]
        omega
      · simp at h

end Rule

end NamespaceMigration
