import NamespaceMigration.Toml.Basic
import NamespaceMigration.Toml.Number

namespace NamespaceMigration.Toml

namespace Scanner

def boolean : Scanner Bool := (do word "true"; return true) <|> (do word "false"; return false)

def scalar : Scanner Value :=
  (do return .string (← string)) <|> (do datetime; return .datetime) <|> (do return .float (← float)) <|>
    (do return .integer (← integer)) <|> (do return .boolean (← boolean))

def array (item : Scanner Value) : Scanner (List Value) := do
  word "["
  let items ← option (do
    let items ← sepBy1 (do
      blankLines
      let v ← item
      blankLines
      return v) (word ",")
    let _ ← option (word ",")
    return items)
  blankLines
  word "]"
  return items.getD []

def pair (item : Scanner Value) : Scanner (List String × Value) := do
  let path ← key
  word "="
  blanks
  return (path, ← item)

def addPair (entries : Entries) (origin : Origin) (path : List String) (value : Value) : Option Entries :=
  entries.addAt path.dropLast (path.getLast?.getD "") value origin

def braces (item : Scanner Value) : Scanner Entries := do
  word "\x7b"
  let pairs ← option (sepBy1 (do
    let p ← pair item
    blanks
    return p) (word ","))
  blanks
  word "\x7d"
  match (pairs.getD []).foldlM (fun entries (path, value) => addPair entries .braces path value) [] with
  | some entries => return entries
  | none => failure

def value : Nat → Scanner Value
  | 0 => scalar
  | depth + 1 =>
    (do return .array (← array (value depth))) <|> (do return .table .braces (← braces (value depth))) <|> scalar

def depthLimit : Nat := 79

end Scanner

inductive Line where
  | empty
  | pair (path : List String) (value : Value)
  | header (path : List String)
  | item (path : List String)

namespace Scanner

def header (opened closed : String) : Scanner (List String) := do
  word opened
  let path ← key
  word closed
  trailing
  return path

def headerLine : Scanner Line := fun s =>
  if ['[', '['].isPrefixOf s then (Line.item <$> header "[[" "]]") s else (Line.header <$> header "[" "]") s

def line : Scanner Line :=
  (do
    comment
    lineEnd
    return .empty) <|>
  (do
    newline
    return .empty) <|> headerLine <|>
  (do
    let (path, v) ← pair (value depthLimit)
    trailing
    return .pair path v)

def lines : Scanner (List Line) := do
  let _ ← option (word "\ufeff")
  blanks
  let lines ← many (do
    let l ← line
    blanks
    return l)
  atEnd
  return lines

end Scanner

structure Draft where
  entries : Entries
  current : List String

namespace Draft

def change (d : Draft) (path : List String) (f : Origin → Entries → Option Entries) : Option Entries :=
  d.entries.change false f path .header

def add (d : Draft) : Line → Option Draft
  | .empty => some d
  | .pair path value => do
    return { d with entries := ← d.change d.current fun origin entries => Scanner.addPair entries origin path value }
  | .header path => do return ⟨← d.change path.dropLast (Entries.openTable (path.getLast?.getD "")), path⟩
  | .item path => do return ⟨← d.change path.dropLast (Entries.openItem (path.getLast?.getD "")), path⟩

end Draft

def parse? (text : String) : Option Entries := do
  let (lines, _) ← Scanner.lines.run text.toList
  return (← lines.foldlM Draft.add ⟨[], []⟩).entries

end NamespaceMigration.Toml
