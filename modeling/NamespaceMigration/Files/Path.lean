import NamespaceMigration.Files.Tree

/-! Paths as texts of the file system, and the places they lead to through links. -/

namespace NamespaceMigration

namespace Path

def slash : UInt8 := 0x2F

def dot : UInt8 := 0x2E

def isAbsolute (path : RawText) : Bool := path.octets.head? == some slash

def segments (path : RawText) : List RawText := (path.octets.splitOnP (· == slash)).map RawText.mk

def join (base path : RawText) : RawText :=
  if isAbsolute path || base.octets.isEmpty then path
  else if base.octets.getLast? = some slash then base ++ path
  else ⟨base.octets ++ slash :: path.octets⟩

def trimReversed : Bytes → Bytes
  | [] => []
  | b :: s =>
    if b = slash ∧ s ≠ [] ∨ b = dot ∧ s.head? = some slash then trimReversed s
    else b :: s

def splitLast (path : RawText) : Bytes × Bytes :=
  let s := trimReversed path.octets.reverse
  (s.takeWhile (· != slash), s.dropWhile (· != slash))

def trimSlashes (path : RawText) : RawText :=
  match path.octets.reverse.dropWhile (· == slash) with
  | [] => path
  | s => ⟨s.reverse⟩

def endsWithSlash (path : RawText) : Bool := path.octets.getLast? = some slash

def longestName : Nat := 255

def longest : Nat := 4095

def flaw? (path : RawText) : Option IoFault :=
  if path.octets.contains 0 then some .invalidPath
  else if path.octets.isEmpty then some .notFound
  else if longest < path.octets.length then some .nameTooLong
  else none

def parent? (path : RawText) : Option RawText :=
  match splitLast path with
  | ([], _) => none
  | (_, before) => some ⟨(trimReversed before).reverse⟩

def fileName? (path : RawText) : Option RawText :=
  let name := (splitLast path).1.reverse
  if name = [] ∨ name = [dot] ∨ name = [dot, dot] then none else some ⟨name⟩

def ofPlace (p : Place) : RawText := if p = [] then "/" else ⟨p.flatMap fun name => slash :: name.octets⟩

end Path

inductive Target where
  | found (place : Place) (node : Node)
  | free (place : Place)
  deriving DecidableEq, Repr

namespace Target

def node : Target → Except IoFault (Place × Node)
  | found p n => .ok (p, n)
  | free _ => .error .notFound

def output : Target → Except IoFault Place
  | found _ .directory => .error .isADirectory
  | found p _ => .ok p
  | free p => .ok p

end Target

namespace FileTree

def walk (t : FileTree) (followLast : Bool) (jump : Place → List RawText → Except IoFault Target) :
    Place → List RawText → Except IoFault Target
  | start, [] => .ok (.found start .directory)
  | start, seg :: rest =>
    if seg = "" ∨ seg = "." then walk t followLast jump start rest
    else if seg = ".." then walk t followLast jump start.dropLast rest
    else if Path.longestName < seg.octets.length then .error .nameTooLong
    else
      match t.find? (start ++ [seg]) with
      | some .directory => walk t followLast jump (start ++ [seg]) rest
      | some (.link target) =>
        if rest.isEmpty && !followLast then .ok (.found (start ++ [seg]) (.link target))
        else jump (if Path.isAbsolute target then [] else start) (Path.segments target ++ rest)
      | some n => if rest.isEmpty then .ok (.found (start ++ [seg]) n) else .error .notADirectory
      | none => if rest.all (· == "") then .ok (.free (start ++ [seg])) else .error .notFound

def follow (t : FileTree) (followLast : Bool) : Nat → Place → List RawText → Except IoFault Target
  | 0, _, _ => .error .linkLoop
  | links + 1, start, segs => t.walk followLast (t.follow followLast links) start segs

def locate (t : FileTree) (followLast : Bool) (cwd : Place) (path : RawText) : Except IoFault Target :=
  match Path.flaw? path with
  | some fault => .error fault
  | none => t.follow followLast 41 (if Path.isAbsolute path then [] else cwd) (Path.segments path)

def resolve (t : FileTree) (cwd : Place) (path : RawText) : Except IoFault (Place × Node) := do
  (← t.locate true cwd path).node

/-- The place where a file is to be written. A path with a slash behind it is that of a directory, whatever
its last name leads to. -/
def resolveOutput (t : FileTree) (cwd : Place) (path : RawText) : Except IoFault Place := do
  if Path.endsWithSlash path then
    let _ ← t.locate false cwd (Path.trimSlashes path)
    .error .isADirectory
  else (← t.locate true cwd path).output

def reach (t : FileTree) (followLast : Bool) (p : Place) : Except IoFault Target := t.follow followLast 41 [] p

def makeDirectoryAt (t : FileTree) (cwd : Place) (path : RawText) : Except IoFault FileTree := do
  match ← t.locate false cwd (Path.trimSlashes path) with
  | .found _ _ => .error .alreadyExists
  | .free p => t.makeDirectory p

def isDirectoryAt (t : FileTree) (cwd : Place) (path : RawText) : Bool :=
  match t.resolve cwd path with
  | .ok (_, n) => n.isDirectory
  | .error _ => false

def makeDirectoriesFrom (cwd : Place) : Nat → RawText → FileTree → Except IoFault FileTree
  | 0, _, _ => .error .notFound
  | fuel + 1, path, t =>
    if path.octets.isEmpty then .ok t
    else
      match t.makeDirectoryAt cwd path with
      | .ok t => .ok t
      | .error .notFound =>
        match Path.parent? path with
        | none => .error .notFound
        | some parent => do
          let t ← makeDirectoriesFrom cwd fuel parent t
          match t.makeDirectoryAt cwd path with
          | .ok t => .ok t
          | .error fault => if t.isDirectoryAt cwd path then .ok t else .error fault
      | .error fault => if t.isDirectoryAt cwd path then .ok t else .error fault

def makeDirectoriesAt (t : FileTree) (cwd : Place) (path : RawText) : Except IoFault FileTree :=
  makeDirectoriesFrom cwd (path.octets.length + 1) path t

end FileTree

end NamespaceMigration
