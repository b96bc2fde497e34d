import NamespaceMigration.Text.Utf8

/-! Plain files, directories and symbolic links under a root. Whatever is there can be read, written and deleted, and
a name is any octets but a slash. A place is the list of names that leads to a node. -/

namespace NamespaceMigration

inductive IoFault where
  | notFound
  | notADirectory
  | isADirectory
  | alreadyExists
  | linkLoop
  | nameTooLong
  | invalidText
  | invalidPath
  deriving DecidableEq, Repr

def IoFault.message : IoFault → String
  | notFound => "No such file or directory (os error 2)"
  | notADirectory => "Not a directory (os error 20)"
  | isADirectory => "Is a directory (os error 21)"
  | alreadyExists => "File exists (os error 17)"
  | linkLoop => "Too many levels of symbolic links (os error 40)"
  | nameTooLong => "File name too long (os error 36)"
  | invalidPath => "file name contained an unexpected NUL byte"
  | invalidText => "stream did not contain valid UTF-8"

abbrev Place := List RawText

inductive Node where
  | file (content : Bytes)
  | directory
  | link (target : RawText)
  deriving DecidableEq, Repr

def Node.isDirectory : Node → Bool
  | directory => true
  | _ => false

def Node.isFile : Node → Bool
  | file _ => true
  | _ => false

/-- The nodes below the root, which is a directory, and numbers of files that have several names: two places with
one number are hard links to one file. -/
structure FileTree where
  nodes : List (Place × Node)
  shared : List (Place × Nat) := []
  deriving DecidableEq, Repr

namespace FileTree

def empty : FileTree := ⟨[], []⟩

def find? (t : FileTree) (p : Place) : Option Node := if p = [] then some .directory else t.nodes.lookup p

/-- Takes a name away. The file stays under its other names. -/
def erase (t : FileTree) (p : Place) : FileTree := ⟨t.nodes.filter fun (q, _) => q != p, t.shared.filter fun (q, _) => q != p⟩

def put (t : FileTree) (p : Place) (n : Node) : FileTree := ⟨(p, n) :: (t.erase p).nodes, (t.erase p).shared⟩

def childName? (p : Place) : Place → Option RawText
  | [] => none
  | q => if q.dropLast = p then q.getLast? else none

def names (t : FileTree) (p : Place) : List RawText :=
  (t.nodes.filterMap fun (q, _) => childName? p q).mergeSort fun a b => a ≤ b

def isFile (t : FileTree) (p : Place) : Bool := (t.find? p).any Node.isFile

def isDirectory (t : FileTree) (p : Place) : Bool := (t.find? p).any Node.isDirectory

def enter (t : FileTree) (start : Place) : List RawText → Except IoFault Place
  | [] => .ok start
  | name :: rest =>
    match t.find? (start ++ [name]) with
    | some .directory => enter t (start ++ [name]) rest
    | some _ => .error .notADirectory
    | none => .error .notFound

def status (t : FileTree) (p : Place) : Except IoFault Node := do
  let _ ← t.enter [] p.dropLast
  match t.find? p with
  | some n => return n
  | none => .error .notFound

def read (t : FileTree) (p : Place) : Except IoFault Bytes := do
  match ← t.status p with
  | .file content => return content
  | .directory => .error .isADirectory
  | .link _ => .error .notFound

def list (t : FileTree) (p : Place) : Except IoFault (List RawText) := do
  match ← t.status p with
  | .directory => return t.names p
  | _ => .error .notADirectory

def isSame (t : FileTree) (p q : Place) : Bool :=
  q == p || t.isFile p && t.isFile q && (t.shared.lookup p).isSome && t.shared.lookup q == t.shared.lookup p

/-- Writes a file anew. One that is there has the content under all its names. -/
def fill (t : FileTree) (p : Place) (content : Bytes) : FileTree :=
  if t.isFile p then { t with nodes := t.nodes.map fun (q, n) => (q, if t.isSame p q then .file content else n) }
  else t.put p (.file content)

def contentAt (t : FileTree) (p : Place) : Bytes :=
  match t.find? p with
  | some (.file content) => content
  | _ => []

def create (t : FileTree) (p : Place) : Except IoFault FileTree := do
  let _ ← t.enter [] p.dropLast
  if (t.find? p).isSome then .error .alreadyExists else return t.put p (.file [])

/-- For a file that has one name, as one that is new has. -/
def append (t : FileTree) (p : Place) (content : Bytes) : FileTree :=
  match t.find? p with
  | some (.file old) => t.put p (.file (old ++ content))
  | _ => t

def makeDirectory (t : FileTree) (p : Place) : Except IoFault FileTree := do
  let _ ← t.enter [] p.dropLast
  if (t.find? p).isSome then .error .alreadyExists else return t.put p .directory

def makeBelow (t : FileTree) (start : Place) : List RawText → Except IoFault FileTree
  | [] => .ok t
  | name :: rest =>
    match t.find? (start ++ [name]) with
    | some .directory => makeBelow t (start ++ [name]) rest
    | some _ => .error (if rest.isEmpty then .alreadyExists else .notADirectory)
    | none => makeBelow (t.put (start ++ [name]) .directory) (start ++ [name]) rest

def makeDirectories (t : FileTree) (p : Place) : Except IoFault FileTree := t.makeBelow [] p

def removeAll (t : FileTree) (p : Place) : FileTree :=
  ⟨t.nodes.filter fun (q, _) => !p.isPrefixOf q, t.shared.filter fun (q, _) => !p.isPrefixOf q⟩

def move (t : FileTree) (source target : Place) : Except IoFault FileTree := do
  let n ← t.status source
  let _ ← t.enter [] target.dropLast
  if t.isDirectory target then .error .isADirectory else return (t.erase source).put target n

end FileTree

end NamespaceMigration
