import NamespaceMigration.Bytes
import NamespaceMigration.Text.Basic

/-! Globs over octets with the syntax and the meaning that the `globset` library documents, ASCII letter case aside.
Matching keeps a mark for each place of the subject that the pieces read so far can reach. -/

namespace NamespaceMigration

inductive Glob where
  | empty
  | octet (b : UInt8)
  | oneOf (negated : Bool) (ranges : List (UInt8 × UInt8))
  | anyOctet
  | anyOctets
  | anyDirectories
  | descendants
  | between
  | append (a b : Glob)
  | either (a b : Glob)
  | group (g : Glob)
  deriving DecidableEq, Repr

namespace Glob

def slash : UInt8 := 0x2F

def lowerOctet (b : UInt8) : UInt8 := if 0x41 ≤ b ∧ b ≤ 0x5A then b + 0x20 else b

def upperOctet (b : UInt8) : UInt8 := if 0x61 ≤ b ∧ b ≤ 0x7A then b - 0x20 else b

def inRange (b : UInt8) (r : UInt8 × UInt8) : Bool := r.1 ≤ b && b ≤ r.2

def inRanges (ranges : List (UInt8 × UInt8)) (b : UInt8) : Bool :=
  ranges.any fun r => inRange (lowerOctet b) r || inRange (upperOctet b) r

def advance (p : UInt8 → Bool) (s : Bytes) (marks : List Bool) : List Bool :=
  false :: List.zipWith (fun b on => on && p b) s marks

def flood (seen : Bool) : List Bool → List Bool
  | [] => []
  | on :: marks => (seen || on) :: flood (seen || on) marks

def join (a b : List Bool) : List Bool := List.zipWith (· || ·) a b

def overSlash (s : Bytes) (marks : List Bool) : List Bool := advance (· == slash) s marks

def overDirectories (s : Bytes) (marks : List Bool) : List Bool :=
  join marks (overSlash s (flood false marks))

def reach (s : Bytes) : Glob → List Bool → List Bool
  | empty, marks => marks
  | octet c, marks => advance (fun b => lowerOctet b == lowerOctet c) s marks
  | oneOf negated ranges, marks => advance (fun b => inRanges ranges b != negated) s marks
  | anyOctet, marks => advance (fun _ => true) s marks
  | anyOctets, marks => flood false marks
  | anyDirectories, marks => overDirectories s marks
  | descendants, marks => flood false (overSlash s marks)
  | between, marks => overDirectories s (overSlash s marks)
  | append a b, marks => reach s b (reach s a marks)
  | either a b, marks => join (reach s a marks) (reach s b marks)
  | group g, marks => reach s g marks

def matchesBytes (g : Glob) (s : Bytes) : Bool :=
  (reach s g (true :: s.map fun _ => false)).getLastD false

def sequence (gs : List Glob) : Glob := (gs.filter (· != empty)).foldr append empty

def alternatives : List Glob → Glob
  | [] => empty
  | [g] => g
  | g :: gs => either g (alternatives gs)

/-- The row of the parts of a pattern, and the row of its alternatives. A class of several ranges, a repetition
and a group each lie one level above what they hold. -/
def rows : Glob → Text.Row × Text.Row
  | empty => (.empty, .single 0)
  | octet _ => (.single 0, .single 0)
  | oneOf _ ranges => let r := Text.Row.single (if ranges.length = 1 then 1 else 2); (r, r)
  | anyOctet => (.single 0, .single 0)
  | anyOctets => (.single 1, .single 1)
  | anyDirectories => (.single 4, .single 4)
  | descendants => (⟨2, 1⟩, .single 2)
  | between => (.single 4, .single 4)
  | append a b => let r := a.rows.1.join b.rows.1; (r, .single r.depth)
  | either a b => (.empty, a.rows.2.join b.rows.2)
  | group g => let r := Text.Row.single (g.rows.2.depth + 1); (r, r)

def depth (g : Glob) : Nat := g.rows.1.deepest + 1

def deepest : Nat := 250

def literal (c : Char) : Glob := sequence ((Bytes.utf8 (String.singleton c)).map octet)

end Glob

end NamespaceMigration
