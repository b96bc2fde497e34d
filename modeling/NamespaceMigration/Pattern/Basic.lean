import NamespaceMigration.Pattern.CharClass
import NamespaceMigration.Text.Letters
import NamespaceMigration.Text.Search

/-! Which texts are regular expressions, as the `regex` library reads them. -/

namespace NamespaceMigration.Pattern

open Text (Row)

def deepest : Nat := 250

structure Level where
  around : Mode
  last : Option Nat
  parts : Row
  branches : Row
  deriving DecidableEq, Repr

namespace Level

def opened (around : Mode) : Level := ⟨around, none, .empty, .empty⟩

def add (depth : Nat) (l : Level) : Level := { l with last := some depth, parts := l.parts.add depth }

def addMode (l : Level) : Level := { l with last := none, parts := l.parts.add 0 }

def repeat? (l : Level) : Option Level :=
  l.last.map fun depth => { l with last := some (depth + 1), parts := l.parts.wrap depth }

def branch (l : Level) : Level :=
  { l with last := none, parts := .empty, branches := l.branches.add l.parts.depth }

def value (l : Level) : Nat := l.branch.branches.depth

end Level

def Mode.set (m : Mode) (flag : Char) (value : Bool) : Mode :=
  if flag == 'x' then { m with spaced := value }
  else if flag == 'u' then { m with unicode := value }
  else m

def readFlags (m : Mode) (seen : List Char) : List Char → Option (Mode × Char × List Char)
  | [] => none
  | c :: s =>
    if c == ':' || c == ')' then
      if seen.head? == some '-' || (seen.isEmpty && c == ')') then none else some (m, c, s)
    else if seen.contains c || !"-imsUuRx".toList.contains c then none
    else readFlags (m.set c (!seen.contains '-')) (c :: seen) s

inductive Opening where
  | group (m : Mode) (name : Option String)
  | mode (m : Mode)
  deriving DecidableEq, Repr

def isName : List Char → Bool
  | [] => false
  | c :: s => (c == '_' || Text.isAlphabetic c) && s.all fun c => "_.[]".toList.contains c || Text.isAlphanumeric c

def readName (m : Mode) (s : List Char) : Option (Opening × List Char) := do
  let (name, s) ← Text.splitFirst? (· == '>') s
  if isName name then some (.group m (String.ofList name), s) else none

def looksAround (s : List Char) : Bool :=
  ["?=", "?!", "?<=", "?<!"].any fun word => (Text.strip? word.toList s).isSome

def readOpening (m : Mode) (s : List Char) : Option (Opening × List Char) :=
  let s := m.skip s
  if looksAround s then none
  else
    match s with
    | '?' :: 'P' :: '<' :: s => readName m s
    | '?' :: '<' :: s => readName m s
    | '?' :: s => (readFlags m [] s).map fun (m, c, s) => (if c == ':' then .group m none else .mode m, s)
    | s => some (.group m none, s)

def readPart (m : Mode) : List Char → Option (Nat × List Char)
  | [] => none
  | '[' :: s => CharClass.read m s
  | '\\' :: s => do
    let (e, s) ← Escape.read m s
    if e.isValid m then some (0, s) else none
  | '.' :: s => if m.unicode then some (0, s) else none
  | '\x7b' :: _ => none
  | _ :: s => some (0, s)

def repeats : List Char := ['?', '*', '+']

def afterRepeat : List Char → List Char
  | '?' :: s => s
  | s => s

def depthFrom : Nat → Mode → List String → Level → List Level → List Char → Option Nat
  | 0, _, _, _, _, _ => none
  | fuel + 1, m, names, level, outer, s =>
    match m.skip s with
    | [] => if outer.isEmpty then some level.value else none
    | '(' :: s =>
      match readOpening m s with
      | none => none
      | some (.mode m, s) => depthFrom fuel m names level.addMode outer s
      | some (.group inner name, s) =>
        if name.any names.contains then none
        else depthFrom fuel inner (name.toList ++ names) (.opened m) (level :: outer) s
    | ')' :: s =>
      match outer with
      | [] => none
      | parent :: outer => depthFrom fuel level.around names (parent.add (level.value + 1)) outer s
    | '|' :: s => depthFrom fuel m names level.branch outer s
    | c :: s =>
      if repeats.contains c then do depthFrom fuel m names (← level.repeat?) outer (afterRepeat s)
      else do
        let (depth, s) ← readPart m (c :: s)
        depthFrom fuel m names (level.add depth) outer s

def depth? (s : String) : Option Nat :=
  let m : Mode := ⟨false, true⟩
  depthFrom (s.toList.length + 1) m [] (.opened m) [] s.toList

def isValid (s : String) : Bool := (depth? s).any (· ≤ deepest)

end NamespaceMigration.Pattern
