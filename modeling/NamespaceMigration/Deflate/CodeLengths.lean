import NamespaceMigration.Bytes

/-! Code lengths for symbols of given frequencies, and the canonical code words of given lengths. -/

namespace NamespaceMigration.Deflate.CodeLengths

structure Tree where
  weight : Nat
  leaves : List Nat
  deriving DecidableEq, Repr

def addCounts : List Nat → List Nat → List Nat
  | [], b => b
  | a, [] => a
  | x :: a, y :: b => (x + y) :: addCounts a b

def Tree.join (a b : Tree) : Tree := ⟨a.weight + b.weight, 0 :: addCounts a.leaves b.leaves⟩

def lightest? : List Tree → List Tree → Option (Tree × List Tree × List Tree)
  | [], [] => none
  | a :: as, [] => some (a, as, [])
  | [], b :: bs => some (b, [], bs)
  | a :: as, b :: bs => if b.weight < a.weight then some (b, a :: as, bs) else some (a, as, b :: bs)

def grow : Nat → List Tree → List Tree → List Nat
  | 0, _, _ => []
  | fuel + 1, single, joined =>
    match lightest? single joined with
    | none => []
    | some (a, single, joined) =>
      match lightest? single joined with
      | none => a.leaves
      | some (b, single, joined) => grow fuel single (joined ++ [a.join b])

def leafCounts : List Nat → List Nat
  | [] => []
  | [_] => [1]
  | weights => (grow weights.length (weights.map fun w => ⟨w, [1]⟩) []).drop 1

def spaceTaken (limit : Nat) (counts : List Nat) : Nat :=
  (counts.zipIdx.map fun (count, i) => count * Nat.pow 2 (limit - (i + 1))).foldr (· + ·) 0

def lowerLeaf : List Nat → List Nat
  | deeper :: 0 :: counts => deeper :: lowerLeaf (0 :: counts)
  | deeper :: n :: counts => (deeper + 2) :: (n - 1) :: counts
  | counts => counts

def shortenOnce (counts : List Nat) : List Nat :=
  match counts.reverse with
  | last :: above => (lowerLeaf ((last - 1) :: above)).reverse
  | [] => []

def limited (limit : Nat) (counts : List Nat) : List Nat :=
  let padded := counts.take limit ++ List.replicate (limit - counts.length) 0
  let clamped := padded.modify (limit - 1) (· + (counts.drop limit).foldr (· + ·) 0)
  if counts.foldr (· + ·) 0 ≤ 1 then clamped
  else Nat.repeat shortenOnce (spaceTaken limit clamped - Nat.pow 2 limit) clamped

def assign (symbols : List Nat) (counts : List Nat) : List (Nat × Nat) :=
  symbols.zip (counts.zipIdx.flatMap fun (count, i) => List.replicate count (i + 1))

def ofFrequencies (limit : Nat) (frequencies : List Nat) : List Nat :=
  let used := frequencies.zipIdx.filter fun (n, _) => n != 0
  let sorted := used.mergeSort fun a b => a.1 ≤ b.1
  let pairs := assign (sorted.map (·.2)).reverse (limited limit (leafCounts (sorted.map (·.1))))
  (List.range frequencies.length).map fun symbol =>
    (pairs.find? fun (other, _) => other == symbol).elim 0 (·.2)

def firstWords (limit : Nat) (lengths : List Nat) : List Nat :=
  ((List.range limit).foldl (fun (words, last) i =>
    let word := if i = 0 then 0 else 2 * (last + lengths.count i)
    (words ++ [word], word)) (([] : List Nat), 0)).1

def wordBits (word : Nat) : Nat → List Bool
  | 0 => []
  | n + 1 => (word / Nat.pow 2 n % 2 == 1) :: wordBits word n

def canonicalWords (limit : Nat) (lengths : List Nat) : List (List Bool) :=
  let firsts := firstWords limit lengths
  lengths.zipIdx.map fun (length, symbol) =>
    wordBits (firsts.getD (length - 1) 0 + (lengths.take symbol).count length) length

end NamespaceMigration.Deflate.CodeLengths
