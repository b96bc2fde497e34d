import NamespaceMigration.Decimal
import NamespaceMigration.Toml.Scanner

/-! Numbers and times in TOML. -/

namespace NamespaceMigration.Toml.Scanner

def digit : Scanner Char := charIf Char.isDigit

def moreDigits (d : Scanner Char) : Scanner (List Char) := many (d <|> (do word "_"; d))

def digits (d : Scanner Char) : Scanner (List Char) := do return (← d) :: (← moreDigits d)

def wholeDigits : Scanner (List Char) :=
  (do return (← charIf fun c => c.isDigit && c != '0') :: (← moreDigits digit)) <|>
    (do return [← digit])

def minus : Scanner Bool := (do word "-"; return true) <|> (do word "+"; return false) <|> return false

def inRange (n : Int) : Scanner Int := if -Nat.pow 2 63 ≤ n ∧ n < Nat.pow 2 63 then return n else failure

def inBase (base : Nat) (mark : String) : Scanner Int := do
  word mark
  let s ← digits (charIf fun c => (Bytes.hexValue? c).any (·.toNat < base))
  inRange (ofDigits base s)

def decimalInteger : Scanner Int := do
  let negative ← minus
  let n := ofDigits 10 (← wholeDigits)
  inRange (if negative then -n else n)

def integer : Scanner Int := inBase 16 "0x" <|> inBase 8 "0o" <|> inBase 2 "0b" <|> decimalInteger

def exponent : Scanner Int := do
  let _ ← charIf fun c => c == 'e' || c == 'E'
  let negative ← minus
  let n := ofDigits 10 (← digits digit)
  return if negative then -n else n

def fraction : Scanner (List Char) := do
  word "."
  digits digit

def decimal : Scanner Binary64 := do
  let negative ← minus
  let whole ← wholeDigits
  let places ← option fraction
  let power ← option exponent
  if places.isNone && power.isNone then failure
  let places := places.getD []
  let x := Binary64.ofDecimal negative (ofDigits 10 (whole ++ places)) (power.getD 0 - places.length)
  if x = .infinite false then failure
  return x

def special : Scanner Binary64 := do
  let negative ← minus
  (do word "inf"; return .infinite negative) <|> (do word "nan"; return .nan)

def float : Scanner Binary64 := decimal <|> special

def number (width least most : Nat) : Scanner Nat := do
  let n ← (Date.readDigits width : Scanner Nat)
  if least ≤ n ∧ n ≤ most then return n else failure

def date : Scanner Unit := do
  let year ← number 4 0 9999
  word "-"
  let month ← number 2 1 12
  word "-"
  let day ← number 2 1 31
  if (⟨year, month, day⟩ : Date).isValid then return () else failure

def time : Scanner Unit := do
  let _ ← number 2 0 23
  word ":"
  let _ ← number 2 0 59
  word ":"
  let _ ← number 2 0 60
  let _ ← option (do word "."; let _ ← many1 digit)

def zone : Scanner Unit :=
  (do let _ ← charIf fun c => c == 'Z' || c == 'z') <|> (do
    let _ ← charIf fun c => c == '+' || c == '-'
    let _ ← number 2 0 23
    word ":"
    let _ ← number 2 0 59)

def datetime : Scanner Unit :=
  (do
    date
    let _ ← option (do
      let _ ← charIf fun c => c == 'T' || c == 't' || c == ' '
      time
      option zone)) <|> time

end NamespaceMigration.Toml.Scanner
