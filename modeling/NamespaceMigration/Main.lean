import NamespaceMigration.CommandLine.Run

/-! The program: takes in the files that a run needs, runs it, and writes what changed. -/

namespace NamespaceMigration

structure Snapshot where
  files : FileTree
  complete : List Place

abbrev Disk := StateT Snapshot IO

def keep (p : Place) (n : Node) : Disk Unit := modify fun s => { s with files := s.files.put p n }

mutual

partial def takeNode (p : Place) : Disk (Option Place) := do
  let path := (← IO.currentDir) / (Path.ofPlace p).shown
  match (← path.symlinkMetadata.toBaseIO) with
  | .error _ => return none
  | .ok data =>
    match data.type with
    | .dir =>
      keep p .directory
      return some p
    | .symlink =>
      match (← (IO.FS.realPath path).toBaseIO) with
      | .error _ =>
        keep p (.link "")
        return none
      | .ok target =>
        keep p (.link target.toString)
        takeWay [] (Path.segments target.toString)
    | _ =>
      keep p (.file (← IO.FS.readBinFile path).toList)
      return none

partial def takeWay (start : Place) : List RawText → Disk (Option Place)
  | [] => do
    takeBelow start
    return some start
  | name :: rest => do
    if name = "" ∨ name = "." then takeWay start rest
    else if name = ".." then takeWay start.dropLast rest
    else match ← takeNode (start ++ [name]) with
      | some p => takeWay p rest
      | none => return none

partial def takeBelow (p : Place) : Disk Unit := do
  if (← get).complete.contains p || p.isEmpty then return
  modify fun s => { s with complete := p :: s.complete }
  for entry in ← ((← IO.currentDir) / (Path.ofPlace p).shown).readDir do
    if let some q ← takeNode (p ++ [.ofText entry.fileName]) then takeBelow q

end

def takePaths (cwd : Place) (paths : List RawText) : Disk Unit :=
  paths.forM fun path => do
    let _ ← takeWay (if Path.isAbsolute path then [] else cwd) (Path.segments path)

def writeBack (before after : FileTree) : IO Unit := do
  let byDepth (t : FileTree) := t.nodes.mergeSort fun a b => a.1.length ≤ b.1.length
  for (p, n) in (byDepth before).reverse do
    if (after.find? p).isNone then
      if n.isDirectory then IO.FS.removeDirAll (Path.ofPlace p).shown else IO.FS.removeFile (Path.ofPlace p).shown
  for (p, n) in byDepth after do
    if before.find? p ≠ some n then
      match n with
      | .directory => IO.FS.createDirAll (Path.ofPlace p).shown
      | .file content => IO.FS.writeBinFile (Path.ofPlace p).shown content.toByteArray
      | .link _ => pure ()

def today : IO Date := do
  let (_, path) ← IO.FS.createTempFile
  let data ← path.metadata
  IO.FS.removeFile path
  return Date.ofDayNumber ((⟨1970, 1, 1⟩ : Date).dayNumber + data.modified.sec / 86400)

def start (arguments : List String) : IO UInt32 := do
  let began ← IO.monoMsNow
  let cwd := (Path.segments (← IO.FS.realPath (← IO.currentDir)).toString).filter (· ≠ .ofText "")
  let c : CommandLine.Circumstances := ⟨cwd, ← today, ← IO.rand 1 (Nat.pow 2 31)⟩
  let ((), s) ← (takePaths cwd (Path.ofPlace cwd :: CommandLine.configPaths arguments)).run ⟨.empty, [cwd]⟩
  let ((), s) ← (takePaths cwd (CommandLine.touchedPaths c arguments s.files)).run { s with complete := [] }
  let (result, files) := CommandLine.run c arguments s.files
  writeBack s.files files
  let out := (result.withElapsed ((← IO.monoMsNow) - began)).output
  IO.print out.stdout
  IO.eprint out.stderr
  return UInt32.ofNat out.code

end NamespaceMigration

def main (arguments : List String) : IO UInt32 := NamespaceMigration.start arguments
