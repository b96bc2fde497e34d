/-! Days of the proleptic Gregorian calendar: their order, the day so many days before, and texts of the form
`[year]-[month]-[day]`, as the `time` library documents them. -/

namespace NamespaceMigration

structure Date where
  year : Int
  month : Nat
  day : Nat
  deriving DecidableEq, Repr

namespace Date

def isLeap (year : Int) : Bool := year % 4 == 0 && (year % 100 != 0 || year % 400 == 0)

def monthLengths (year : Int) : List Nat :=
  [31, if isLeap year then 29 else 28, 31, 30, 31, 30, 31, 31, 30, 31, 30, 31]

def isValid (d : Date) : Bool :=
  -9999 ≤ d.year && d.year ≤ 9999 && 1 ≤ d.month && 1 ≤ d.day && d.day ≤ (monthLengths d.year).getD (d.month - 1) 0

def earliest : Date := ⟨-9999, 1, 1⟩

def isBefore (a b : Date) : Bool :=
  a.year < b.year || (a.year == b.year && (a.month < b.month || (a.month == b.month && a.day < b.day)))

def later (a b : Date) : Date := if isBefore a b then b else a

def daysBeforeYear (year : Int) : Int :=
  let y := year - 1
  365 * y + y / 4 - y / 100 + y / 400

def dayNumber (d : Date) : Int :=
  daysBeforeYear d.year + (((monthLengths d.year).take (d.month - 1)).foldr (· + ·) 0 : Nat) + d.day - 1

def inMonths (month : Nat) : List Nat → Nat → Nat × Nat
  | length :: lengths, days =>
    if days < length then (month, days + 1) else inMonths (month + 1) lengths (days - length)
  | [], days => (month, days + 1)

def yearOf (first : Int) (number : Int) : Int :=
  first + ((List.range 400).takeWhile fun (n : Nat) => daysBeforeYear (first + 1 + n) ≤ number).length

def ofDayNumber (number : Int) : Date :=
  let year := yearOf (400 * (number / 146097) + 1) number
  let (month, day) := inMonths 1 (monthLengths year) (number - daysBeforeYear year).toNat
  ⟨year, month, day⟩

/-- A day before the first one is taken for that. -/
def back (d : Date) (n : Nat) : Date :=
  if d.dayNumber - n < earliest.dayNumber then earliest else ofDayNumber (d.dayNumber - n)

def padded (width n : Nat) : String :=
  let digits := Nat.toDigits 10 n
  String.ofList (List.replicate (width - digits.length) '0' ++ digits)

def toText (d : Date) : String :=
  let year := if d.year < 0 then "-" ++ padded 3 d.year.natAbs else padded 4 d.year.natAbs
  year ++ "-" ++ padded 2 d.month ++ "-" ++ padded 2 d.day

def digitsValue (s : List Char) : Nat := s.foldl (fun n c => 10 * n + (c.toNat - 48)) 0

def readDigits (width : Nat) (s : List Char) : Option (Nat × List Char) :=
  let digits := s.take width
  if digits.length = width && digits.all Char.isDigit then some (digitsValue digits, s.drop width) else none

def readYear : List Char → Option (Int × List Char)
  | '-' :: s => (readDigits 4 s).map fun (n, s) => (-(n : Int), s)
  | '+' :: s => (readDigits 4 s).map fun (n, s) => ((n : Int), s)
  | s => (readDigits 4 s).map fun (n, s) => ((n : Int), s)

def parse? (text : String) : Option Date := do
  let (year, s) ← readYear text.toList
  let '-' :: s := s | none
  let (month, s) ← readDigits 2 s
  let '-' :: s := s | none
  let (day, s) ← readDigits 2 s
  let d : Date := ⟨year, month, day⟩
  if s.isEmpty && d.isValid then some d else none

end Date

end NamespaceMigration
