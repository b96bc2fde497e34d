import NamespaceMigration.Decimal
import NamespaceMigration.Pattern.Basic
import NamespaceMigration.Text.Basic

/-! Fields that a log filter asks for: a name, alone or with the value that it must have. -/

namespace NamespaceMigration

inductive FieldValue where
  | bool (b : Bool)
  | float (x : Binary64)
  | nan
  | natural (n : Nat)
  | integer (n : Int)
  | pattern (text : String)
  deriving DecidableEq, Repr

namespace FieldValue

def digits? (s : List Char) : Option Nat :=
  if s.isEmpty || !s.all Char.isDigit then none else some (Date.digitsValue s)

def splitSign : List Char → Bool × List Char
  | '-' :: s => (true, s)
  | '+' :: s => (false, s)
  | s => (false, s)

def readInteger? (s : List Char) : Option FieldValue := do
  let (negative, digits) := splitSign s
  let n ← digits? digits
  if negative then
    if n ≤ Nat.pow 2 63 then some (integer (-n)) else none
  else if n < Nat.pow 2 64 then some (natural n)
  else none

def readPower? : List Char → Option Int
  | [] => some 0
  | c :: s => do
    let (negative, digits) := splitSign s
    let n ← digits? digits
    if c == 'e' || c == 'E' then some (if negative then -n else n) else none

def readDecimal? (negative : Bool) (s : List Char) : Option Binary64 := do
  let whole := s.takeWhile Char.isDigit
  let (places, rest) := match s.dropWhile Char.isDigit with
    | '.' :: s => (s.takeWhile Char.isDigit, s.dropWhile Char.isDigit)
    | s => ([], s)
  let power ← readPower? rest
  let n ← digits? (whole ++ places)
  return Binary64.ofDecimal negative n (power - places.length)

def readFloat? (s : List Char) : Option FieldValue :=
  let (negative, s) := splitSign s
  let word := Text.lower (String.ofList s)
  if word == "nan" then some nan
  else if word == "inf" || word == "infinity" then some (float (.infinite negative))
  else (readDecimal? negative s).map float

def parse? (s : String) : Option FieldValue :=
  if s == "true" then some (bool true)
  else if s == "false" then some (bool false)
  else
    ((readInteger? s.toList).or (readFloat? s.toList)).or
      (if Pattern.isValid s then some (pattern s) else none)

def toText : FieldValue → String
  | bool b => toString b
  | float x => x.toPlainText
  | nan => "NaN"
  | natural n => toString n
  | integer n => toString n
  | pattern text => text

def rank : FieldValue → Nat × Int × String
  | bool b => (0, b.toInt, "")
  | float x => (1, x.units, "")
  | nan => (2, 0, "")
  | natural n => (3, n, "")
  | integer n => (4, n, "")
  | pattern text => (5, 0, text)

def order (a b : FieldValue) : Ordering :=
  let (k, m, s) := a.rank
  let (l, n, t) := b.rank
  (compare k l).then ((compare m n).then (compare s t))

end FieldValue

structure FieldMatch where
  name : String
  value : Option FieldValue
  deriving DecidableEq, Repr

namespace FieldMatch

def parse? (s : String) : Option FieldMatch :=
  match s.toList.splitOnP (· == '=') with
  | name :: value :: _ => (FieldValue.parse? (String.ofList value)).map fun v => ⟨String.ofList name, some v⟩
  | _ => some ⟨s, none⟩

def toText (f : FieldMatch) : String :=
  match f.value with
  | none => f.name
  | some v => f.name ++ "=" ++ v.toText

def order (a b : FieldMatch) : Ordering :=
  match a.value, b.value with
  | none, none => compare a.name b.name
  | none, some _ => .lt
  | some _, none => .gt
  | some v, some w => (compare a.name b.name).then (v.order w)

end FieldMatch

end NamespaceMigration
