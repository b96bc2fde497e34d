import NamespaceMigration.Bytes
import NamespaceMigration.Manifest.Basic
import NamespaceMigration.Text.Search

/-! Reading manifests line by line. -/

namespace NamespaceMigration.Manifest

def linesFrom (acc : List Char) : List Char → List (List Char)
  | [] => if acc.isEmpty then [] else [acc.reverse]
  | c :: s =>
    if c == '\r' then
      match s with
      | d :: rest => if d == '\n' then acc.reverse :: linesFrom [] rest else acc.reverse :: linesFrom [] (d :: rest)
      | [] => [acc.reverse]
    else if c == '\n' then acc.reverse :: linesFrom [] s
    else linesFrom (c :: acc) s
termination_by s => s.length

def lines (s : List Char) : List (List Char) := linesFrom [] s

structure Progress where
  main : Option Section
  entries : List Section
  current : List (String × String)
  deriving DecidableEq, Repr

def Progress.start : Progress := ⟨none, [], []⟩

def Progress.endSection (p : Progress) : Progress :=
  let ended : Section := ⟨p.current.reverse⟩
  match p.main with
  | none => { p with main := some ended, current := [] }
  | some _ => if ended.isEmpty then p else { p with entries := ended :: p.entries, current := [] }

def Progress.finish (p : Progress) : Manifest :=
  let p := p.endSection
  ⟨p.main.getD .empty, p.entries.reverse⟩

def continueLast (rest : List Char) : List (String × String) → Option (List (String × String))
  | [] => none
  | (name, value) :: before => some ((name, value ++ String.ofList rest) :: before)

def header? (line : List Char) : Option (String × String) :=
  match Text.splitFirst? (· == ':') line with
  | none => none
  | some (name, value) =>
    if name.isEmpty || name.contains ' ' then none
    else some (String.ofList name, String.ofList ((Text.strip? [' '] value).getD value))

def Progress.step (p : Progress) (number : Nat) (line : List Char) : Except ManifestFault Progress :=
  match line with
  | [] => .ok p.endSection
  | c :: rest =>
    if c == ' ' then
      match continueLast rest p.current with
      | none => .error (.orphanContinuation number)
      | some attributes => .ok { p with current := attributes }
    else
      match header? line with
      | none => .error (.invalidHeader number)
      | some (name, value) =>
        if p.main.isSome && p.current.isEmpty && !Text.sameLetters name "Name" then
          .error (.missingName number)
        else .ok { p with current := (name, value) :: p.current }

def stepAll (p : Progress) (number : Nat) : List (List Char) → Except ManifestFault Progress
  | [] => .ok p
  | line :: rest => do stepAll (← p.step number line) (number + 1) rest

def parseText (s : List Char) : Except ManifestFault Manifest := do
  let s := (Text.strip? [Char.ofNat 0xFEFF] s).getD s
  return (← stepAll .start 1 (lines s)).finish

def parse (bs : Bytes) : Except ManifestFault Manifest :=
  match Bytes.ofUtf8? bs with
  | none => .error .invalidUtf8
  | some s => parseText s.toList

end NamespaceMigration.Manifest
