import NamespaceMigration.Files.Path

/-! What is below a directory, as the `walkdir` library lists it when it follows links and sorts by name: a directory
before its content. -/

namespace NamespaceMigration

structure WalkEntry where
  path : List RawText
  isDirectory : Bool
  deriving DecidableEq, Repr

inductive WalkFault where
  | unreadable (place : Place) (cause : IoFault)
  | loop (place ancestor : Place)
  deriving DecidableEq, Repr

def WalkFault.message : WalkFault → String
  | unreadable place cause => "IO error for operation on " ++ (Path.ofPlace place).shown ++ ": " ++ cause.message
  | loop place ancestor =>
    "File system loop found: " ++ (Path.ofPlace place).shown ++ " points to an ancestor " ++ (Path.ofPlace ancestor).shown

def WalkFault.cause? : WalkFault → Option IoFault
  | unreadable _ cause => some cause
  | loop _ _ => none

structure Ancestor where
  path : List RawText
  place : Place
  deriving DecidableEq, Repr

namespace FileTree

def isLink (t : FileTree) (p : Place) : Bool :=
  match t.find? p with
  | some (.link _) => true
  | _ => false

def visit (t : FileTree) (start : Place) (dir : Ancestor) (above : List Ancestor) (name : RawText) :
    Except WalkFault (WalkEntry × Place) := do
  let path := dir.path ++ [name]
  let (place, node) ← (t.reach true (start ++ path) >>= Target.node).mapError (.unreadable (start ++ path))
  match (dir :: above).find? (·.place == place) with
  | some ancestor =>
    if node.isDirectory && t.isLink (dir.place ++ [name]) then
      .error (.loop (start ++ path) (start ++ ancestor.path))
    else return (⟨path, node.isDirectory⟩, place)
  | none => return (⟨path, node.isDirectory⟩, place)

def walkBelow (t : FileTree) (start : Place) : Nat → Ancestor → List Ancestor → Except WalkFault (List WalkEntry)
  | 0, dir, _ => .error (.unreadable (start ++ dir.path) .linkLoop)
  | depth + 1, dir, above => do
    let parts ← (t.names dir.place).mapM fun name => do
      let (entry, place) ← t.visit start dir above name
      if entry.isDirectory then
        return entry :: (← t.walkBelow start depth ⟨entry.path, place⟩ (dir :: above))
      else return [entry]
    return parts.flatten

/-- No way down is longer: between two links a path only descends, and no two of them lead to one directory. -/
def walkDepth (t : FileTree) : Nat := (t.nodes.length + 2) * (t.nodes.length + 2)

def walkEntries (t : FileTree) (start : Place) : Except WalkFault (List WalkEntry) :=
  t.walkBelow start t.walkDepth ⟨[], start⟩ []

end FileTree

end NamespaceMigration
