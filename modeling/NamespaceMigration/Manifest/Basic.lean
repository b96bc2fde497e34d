import NamespaceMigration.Text.Basic

/-! Manifests: a main section and entry sections, each a list of attributes in their order. -/

namespace NamespaceMigration

structure Section where
  attributes : List (String × String)
  deriving DecidableEq, Repr

structure Manifest where
  main : Section
  entries : List Section
  deriving DecidableEq, Repr

inductive ManifestFault where
  | invalidUtf8
  | invalidHeader (line : Nat)
  | orphanContinuation (line : Nat)
  | missingName (line : Nat)
  deriving DecidableEq, Repr

def ManifestFault.message : ManifestFault → String
  | invalidUtf8 => "manifest is not valid UTF-8"
  | invalidHeader line => "line " ++ toString line ++ ": invalid header"
  | orphanContinuation line => "line " ++ toString line ++ ": continuation line without a header"
  | missingName line =>
    "line " ++ toString line ++ ": section does not start with a `Name` attribute"

namespace Section

def empty : Section := ⟨[]⟩

def isEmpty (s : Section) : Bool := s.attributes.isEmpty

def get? (s : Section) (name : String) : Option String :=
  (s.attributes.find? fun a => Text.sameLetters a.1 name).map (·.2)

def updateFirst (name : String) (f : String → String) : List (String × String) → List (String × String)
  | [] => []
  | (key, value) :: rest =>
    if Text.sameLetters key name then (key, f value) :: rest
    else (key, value) :: updateFirst name f rest

def update (s : Section) (name : String) (f : String → String) : Section :=
  ⟨updateFirst name f s.attributes⟩

def insert (s : Section) (name value : String) : Section :=
  if (s.get? name).isSome then s.update name (fun _ => value)
  else ⟨s.attributes ++ [(name, value)]⟩

def erase (s : Section) (name : String) : Section :=
  ⟨s.attributes.eraseP fun a => Text.sameLetters a.1 name⟩

def keep (s : Section) (p : String → String → Bool) : Section :=
  ⟨s.attributes.filter fun a => p a.1 a.2⟩

def mapValues (s : Section) (f : String → String → String) : Section :=
  ⟨s.attributes.map fun a => (a.1, f a.1 a.2)⟩

end Section

namespace Manifest

def empty : Manifest := ⟨.empty, []⟩

def sections (m : Manifest) : List Section := m.main :: m.entries

end Manifest

end NamespaceMigration
