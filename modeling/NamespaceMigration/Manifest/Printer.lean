import NamespaceMigration.Bytes
import NamespaceMigration.Manifest.Basic

/-! Writing manifests. -/

namespace NamespaceMigration.Manifest

def lineEnd : List Char := ['\r', '\n']

def takeRoom : Nat → List Char → List Char × List Char
  | _, [] => ([], [])
  | room, c :: s =>
    if c.utf8Size ≤ room then
      let (taken, rest) := takeRoom (room - c.utf8Size) s
      (c :: taken, rest)
    else ([], c :: s)

theorem takeRoom_append (room : Nat) (s : List Char) :
    (takeRoom room s).1 ++ (takeRoom room s).2 = s := by
  induction s generalizing room with
  | nil => rfl
  | cons c s ih =>
    simp only [takeRoom]
    split
    · simp [ih]
    · rfl

theorem length_takeRoom_lt {room : Nat} {s : List Char} (hs : s ≠ []) (h : 4 ≤ room) :
    (takeRoom room s).2.length < s.length := by
  cases s with
  | nil => exact absurd rfl hs
  | cons c s =>
    have hc : c.utf8Size ≤ room := Nat.le_trans (Char.utf8Size_le_four c) h
    have hl := congrArg List.length (takeRoom_append (room - c.utf8Size) s)
    simp only [List.length_append] at hl
    simp only [takeRoom, if_pos hc, List.length_cons]
    omega

def continuations (s : List Char) : List Char :=
  if h : s = [] then lineEnd
  else
    have : (takeRoom 71 s).2.length < s.length := length_takeRoom_lt h (by decide)
    lineEnd ++ ' ' :: (takeRoom 71 s).1 ++ continuations (takeRoom 71 s).2
termination_by s.length

def writeFolded (name value : String) : List Char :=
  let line := takeRoom 72 (name.toList ++ [':', ' '] ++ value.toList)
  line.1 ++ continuations line.2

def writeAttributes (attributes : List (String × String)) : List Char :=
  attributes.flatMap (fun a => writeFolded a.1 a.2) ++ lineEnd

def versionFirst (attributes : List (String × String)) : List (String × String) :=
  let isVersion (a : String × String) := Text.sameLetters a.1 "Manifest-Version"
  (attributes.find? isVersion).toList ++ attributes.eraseP isVersion

def writeChars (m : Manifest) : List Char :=
  writeAttributes (versionFirst m.main.attributes) ++
    m.entries.flatMap (fun s => writeAttributes s.attributes)

def toText (m : Manifest) : String := String.ofList m.writeChars

def toBytes (m : Manifest) : Bytes := Bytes.utf8 m.toText

end NamespaceMigration.Manifest
