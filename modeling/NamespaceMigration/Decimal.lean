import NamespaceMigration.Date

/-! Decimals and numbers with a 53-bit mantissa, rounded to the nearest with a half to the even neighbour. -/

namespace NamespaceMigration

namespace Decimal

def roundDiv (n d : Nat) : Nat :=
  let q := n / d
  if d < 2 * (n % d) ∨ (2 * (n % d) = d ∧ q % 2 = 1) then q + 1 else q

def roundToBits (bits n : Nat) : Nat :=
  let extra := n.log2 + 1 - bits
  roundDiv n (Nat.pow 2 extra) * Nat.pow 2 extra

def tenths (n : Nat) : String := toString (n / 10) ++ "." ++ toString (n % 10)

end Decimal

inductive Binary64 where
  | finite (negative : Bool) (mantissa : Nat) (exponent : Int)
  | infinite (negative : Bool)
  | nan
  deriving DecidableEq, Repr

namespace Binary64

def leastExponent : Int := -1074

def greatestExponent : Int := 971

def ofQuotient (negative : Bool) (n d : Nat) : Binary64 :=
  let guess : Int := (n.log2 : Int) - d.log2 - 52
  let low := n * Nat.pow 2 (-guess).toNat < Nat.pow 2 52 * d * Nat.pow 2 guess.toNat
  let exponent := max leastExponent (if low then guess - 1 else guess)
  let mantissa := Decimal.roundDiv (n * Nat.pow 2 (-exponent).toNat) (d * Nat.pow 2 exponent.toNat)
  let (mantissa, exponent) := if mantissa = Nat.pow 2 53 then (Nat.pow 2 52, exponent + 1) else (mantissa, exponent)
  if exponent > greatestExponent then infinite negative else finite negative mantissa exponent

def ofDecimal (negative : Bool) (digits : Nat) (power : Int) : Binary64 :=
  let top := (Nat.toDigits 10 digits).length + power
  if digits = 0 ∨ top < -330 then finite negative 0 leastExponent
  else if top > 310 then infinite negative
  else ofQuotient negative (digits * Nat.pow 10 power.toNat) (Nat.pow 10 (-power).toNat)

def onGrid? (mantissa : Nat) (exponent power : Int) : Option Nat :=
  let quarter := exponent - 2
  let scale := Nat.pow 2 quarter.toNat * Nat.pow 10 (-power).toNat
  let unit := Nat.pow 10 power.toNat * Nat.pow 2 (-quarter).toNat
  let least := if mantissa = Nat.pow 2 52 ∧ exponent > leastExponent then 4 * mantissa - 1 else 4 * mantissa - 2
  let reads (n : Nat) : Bool :=
    let x := n * unit
    if mantissa % 2 = 0 then least * scale ≤ x && x ≤ (4 * mantissa + 2) * scale
    else least * scale < x && x < (4 * mantissa + 2) * scale
  let n := 4 * mantissa * scale / unit
  if reads n then
    some (if reads (n + 1) && (2 * n + 1) * unit ≤ 2 * (4 * mantissa * scale) then n + 1 else n)
  else if reads (n + 1) then some (n + 1)
  else none

def firstGrid? (mantissa : Nat) (exponent : Int) : Nat → Int → Option (Nat × Int)
  | 0, _ => none
  | steps + 1, power =>
    match onGrid? mantissa exponent power with
    | some n => some (n, power)
    | none => firstGrid? mantissa exponent steps (power - 1)

def shortest (mantissa : Nat) (exponent : Int) : Nat × Int :=
  if mantissa = 0 then (0, 0) else (firstGrid? mantissa exponent 660 310).getD (0, 0)

def positional (n : Nat) (power : Int) : String :=
  if power < 0 then
    let places := (-power).toNat
    toString (n / Nat.pow 10 places) ++ "." ++ Date.padded places (n % Nat.pow 10 places)
  else toString (n * Nat.pow 10 power.toNat)

def toPlainText : Binary64 → String
  | finite negative mantissa exponent =>
    let (n, power) := shortest mantissa exponent
    (if negative then "-" else "") ++ positional n power
  | infinite negative => if negative then "-inf" else "inf"
  | nan => "NaN"

def toText (x : Binary64) : String :=
  match x with
  | finite _ mantissa exponent => x.toPlainText ++ if (shortest mantissa exponent).2 < 0 then "" else ".0"
  | _ => x.toPlainText

def units : Binary64 → Int
  | finite negative mantissa exponent =>
    let n : Int := mantissa * Nat.pow 2 (exponent - leastExponent).toNat
    if negative then -n else n
  | infinite negative => if negative then -Nat.pow 2 2100 else Nat.pow 2 2100
  | nan => 0

end Binary64

end NamespaceMigration
