import NamespaceMigration.Text.Basic

namespace NamespaceMigration.Pattern

structure Mode where
  spaced : Bool
  unicode : Bool
  deriving DecidableEq, Repr

def skipBlanks (comment : Bool) : List Char → List Char
  | [] => []
  | c :: s =>
    if comment then skipBlanks (c != '\n') s
    else if Text.isBlank c then skipBlanks false s
    else if c == '#' then skipBlanks true s
    else c :: s

def Mode.skip (m : Mode) (s : List Char) : List Char := if m.spaced then skipBlanks false s else s

inductive Escape where
  | char (c : Char)
  | octet (c : Char)
  | set (negated : Bool)
  | property
  | place
  | wordPlace
  deriving DecidableEq, Repr

namespace Escape

/-- Matches must not end inside a character, and places of words are known for ASCII alone. -/
def isValid (m : Mode) : Escape → Bool
  | char _ => true
  | octet c => m.unicode || c.toNat < 128
  | set negated => m.unicode || !negated
  | property => m.unicode
  | place => true
  | wordPlace => !m.unicode

def char? : Escape → Option Char
  | char c => some c
  | octet c => some c
  | _ => none

def isValidInClass (m : Mode) : Escape → Bool
  | char c => m.unicode || c.toNat < 128
  | octet c => m.unicode || c.toNat < 128
  | set negated => m.unicode || !negated
  | property => m.unicode
  | place => false
  | wordPlace => false

def hexValue? (c : Char) : Option Nat :=
  if c.isDigit then some (c.toNat - '0'.toNat)
  else if 'a' ≤ c.toLower && c.toLower ≤ 'f' then some (c.toLower.toNat - 'a'.toNat + 10)
  else none

def readHex (m : Mode) : Nat → Nat → List Char → Option (Nat × List Char)
  | 0, value, s => some (value, s)
  | n + 1, value, s => do
    let c :: s := m.skip s | none
    let digit ← hexValue? c
    readHex m n (16 * value + digit) s

def ofScalar? (n : Nat) : Option Char := if n.isValidChar then some (Char.ofNat n) else none

def readScalar (m : Mode) (digits : Nat) (s : List Char) : Option (Char × List Char) := do
  let (n, s) ← readHex m digits 0 s
  return (← ofScalar? n, s)

def isCategory (c : Char) : Bool := "clmnpsz".toList.contains c.toLower

def read (m : Mode) : List Char → Option (Escape × List Char)
  | [] => none
  | c :: s =>
    if c == 'x' then (readScalar m 2 s).map fun (c, s) => (octet c, s)
    else if c == 'u' then (readScalar m 4 s).map fun (c, s) => (char c, s)
    else if c == 'U' then (readScalar m 8 s).map fun (c, s) => (char c, s)
    else if c == 'p' || c == 'P' then
      match m.skip s with
      | category :: s => if isCategory category then some (property, s) else none
      | [] => none
    else if "dsw".toList.contains c then some (set false, s)
    else if "DSW".toList.contains c then some (set true, s)
    else if c == 'A' || c == 'z' then some (place, s)
    else if "bB<>".toList.contains c then some (wordPlace, s)
    else if "aftnrv".toList.contains c || (c.toNat < 128 && !c.isAlphanum) then some (char c, s)
    else none

end Escape

end NamespaceMigration.Pattern
