import NamespaceMigration.Pattern.Escape
import NamespaceMigration.Text.Basic

namespace NamespaceMigration.Pattern.CharClass

open Text (Row)

structure Level where
  fresh : Bool
  parts : Row
  operand : Option Nat
  deriving DecidableEq, Repr

namespace Level

def opened : Level := ⟨true, .empty, none⟩

def add (depth : Nat) (l : Level) : Level := { l with fresh := false, parts := l.parts.add depth }

def value (l : Level) : Nat :=
  match l.operand with
  | none => l.parts.depth
  | some depth => max depth l.parts.depth + 1

def operator (l : Level) : Level := ⟨false, .empty, some l.value⟩

end Level

def setNames : List String :=
  ["alnum", "alpha", "ascii", "blank", "cntrl", "digit", "graph", "lower", "print", "punct", "space",
    "upper", "word", "xdigit"]

def readNamed? (s : List Char) : Option (Bool × List Char) := do
  let ':' :: s := s | none
  let (negated, s) := match s with
    | '^' :: s => (true, s)
    | s => (false, s)
  match s.dropWhile (· != ':') with
  | ':' :: ']' :: rest =>
    if setNames.contains (String.ofList (s.takeWhile (· != ':'))) then some (negated, rest) else none
  | _ => none

def readMember (m : Mode) : List Char → Option (Escape × List Char)
  | [] => none
  | '\\' :: s => Escape.read m s
  | c :: s => some (.char c, s)

def peek (m : Mode) (s : List Char) : Option Char :=
  if m.spaced then
    match s.dropWhile Text.isBlank with
    | '#' :: rest => ((rest.dropWhile Text.isBlank).head?).or s.head?
    | rest => rest.head?.or s.head?
  else s.head?

def rangeEnd? (m : Mode) : List Char → Option (List Char)
  | '-' :: s => if peek m s == some ']' || peek m s == some '-' then none else some (m.skip s)
  | _ => none

def readItem (m : Mode) (s : List Char) : Option (List Char) := do
  let (first, s) ← readMember m s
  let s := m.skip s
  if !first.isValidInClass m then none
  else
    match rangeEnd? m s with
    | none => some s
    | some s => do
      let (last, s) ← readMember m s
      if !last.isValidInClass m || (← last.char?) < (← first.char?) then none else some s

def readOpening (m : Mode) (s : List Char) : Option (List Char) :=
  match m.skip s with
  | '^' :: s => if m.unicode then some (m.skip s) else none
  | s => some s

def operators : List Char := ['&', '-', '~']

def readFrom (m : Mode) : Nat → Level → List Level → List Char → Option (Nat × List Char)
  | 0, _, _, _ => none
  | fuel + 1, level, outer, s =>
    match m.skip s with
    | [] => none
    | c :: s =>
      if level.fresh && c == '-' then readFrom m fuel { level with parts := level.parts.add 0 } outer s
      else if c == ']' && !(level.fresh && level.parts.count == 0) then
        match outer with
        | [] => some (level.value + 1, s)
        | parent :: outer => readFrom m fuel (parent.add (level.value + 1)) outer s
      else if c == ']' then readFrom m fuel (level.add 0) outer s
      else if c == '[' then
        match readNamed? s with
        | some (negated, s) => if negated && !m.unicode then none else readFrom m fuel (level.add 0) outer s
        | none => do readFrom m fuel .opened (level :: outer) (← readOpening m s)
      else if operators.contains c && s.head? == some c then readFrom m fuel level.operator outer s.tail
      else do readFrom m fuel (level.add 0) outer (← readItem m (c :: s))

def read (m : Mode) (s : List Char) : Option (Nat × List Char) := do
  readFrom m (s.length + 1) .opened [] (← readOpening m s)

end NamespaceMigration.Pattern.CharClass
