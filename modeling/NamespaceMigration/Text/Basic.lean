namespace NamespaceMigration.Text

def lower (s : String) : String := String.ofList (s.toList.map Char.toLower)

def sameLetters (a b : String) : Bool := lower a == lower b

def isBlank (c : Char) : Bool :=
  let n := c.toNat
  (9 ≤ n && n ≤ 13) || n == 0x20 || n == 0x85 || n == 0xA0 || n == 0x1680 ||
    (0x2000 ≤ n && n ≤ 0x200A) || n == 0x2028 || n == 0x2029 || n == 0x202F || n == 0x205F ||
    n == 0x3000

def trimStart (s : List Char) : List Char := s.dropWhile isBlank

def trimEnd (s : List Char) : List Char := (s.reverse.dropWhile isBlank).reverse

def trimChars (s : List Char) : List Char := trimEnd (trimStart s)

def trim (s : String) : String := String.ofList (trimChars s.toList)

def inRanges (ranges : List (Nat × Nat)) (c : Char) : Bool :=
  ranges.any fun r => r.1 ≤ c.toNat && c.toNat ≤ r.2

structure Row where
  count : Nat
  deepest : Nat
  deriving DecidableEq, Repr

namespace Row

def empty : Row := ⟨0, 0⟩

def single (depth : Nat) : Row := ⟨1, depth⟩

def join (a b : Row) : Row := ⟨a.count + b.count, max a.deepest b.deepest⟩

def add (depth : Nat) (r : Row) : Row := r.join (single depth)

def wrap (depth : Nat) (r : Row) : Row := { r with deepest := max r.deepest (depth + 1) }

def depth (r : Row) : Nat := if r.count < 2 then r.deepest else r.deepest + 1

end Row

end NamespaceMigration.Text
