import NamespaceMigration.ClassFile.Fault
import NamespaceMigration.Text.Search

/-! Field and method descriptors, with their written form and its parser. -/

namespace NamespaceMigration

inductive BaseType where
  | byte
  | char
  | double
  | float
  | int
  | long
  | short
  | boolean
  deriving DecidableEq, Repr

namespace BaseType

def letter : BaseType → Char
  | byte => 'B'
  | char => 'C'
  | double => 'D'
  | float => 'F'
  | int => 'I'
  | long => 'J'
  | short => 'S'
  | boolean => 'Z'

def all : List BaseType := [byte, char, double, float, int, long, short, boolean]

def ofLetter? (c : Char) : Option BaseType := all.find? (fun b => b.letter == c)

end BaseType

inductive FieldType where
  | base (type : BaseType)
  | object (name : String)
  | array (element : FieldType)
  deriving DecidableEq, Repr

namespace FieldType

def className : FieldType → Option String
  | object name => some (name.map fun c => if c == '/' then '.' else c)
  | _ => none

def writeChars : FieldType → List Char
  | base type => [type.letter]
  | object name => 'L' :: name.toList ++ [';']
  | array element => '[' :: element.writeChars

/-- Takes a type from the head of a text. An object's name goes up to the first semicolon and is
not empty. -/
def take? : List Char → Option (FieldType × List Char)
  | [] => none
  | c :: s =>
    if c == '[' then (take? s).map fun (element, rest) => (array element, rest)
    else if c == 'L' then
      match Text.splitFirst? (· == ';') s with
      | some (name, rest) => if name.isEmpty then none else some (object (String.ofList name), rest)
      | none => none
    else (BaseType.ofLetter? c).map fun type => (base type, s)

theorem length_of_take? {s rest : List Char} {type : FieldType} (h : take? s = some (type, rest)) :
    rest.length < s.length := by
  induction s generalizing type rest with
  | nil => simp [take?] at h
  | cons c s ih =>
    simp only [take?] at h
    split at h
    · simp only [Option.map_eq_some_iff] at h
      obtain ⟨⟨element, after⟩, ht, he⟩ := h
      simp only [Prod.mk.injEq] at he
      have := ih ht
      rw [← he.2]
      simp only [List.length_cons]
      omega
    · split at h
      · split at h
        · rename_i name after hs
          have := Text.length_of_splitFirst? hs
          split at h
          · simp at h
          · simp only [Option.some.injEq, Prod.mk.injEq] at h
            rw [← h.2]
            simp only [List.length_cons]
            omega
        · simp at h
      · simp only [Option.map_eq_some_iff] at h
        obtain ⟨b, _, he⟩ := h
        simp only [Prod.mk.injEq] at he
        rw [← he.2]
        simp

def parse? (s : List Char) : Option FieldType :=
  match take? s with
  | some (type, []) => some type
  | _ => none

end FieldType

structure MethodDescriptor where
  params : List FieldType
  result : Option FieldType
  deriving DecidableEq, Repr

namespace MethodDescriptor

def types (d : MethodDescriptor) : List FieldType := d.params ++ d.result.toList

def writeChars (d : MethodDescriptor) : List Char :=
  '(' :: d.params.flatMap FieldType.writeChars ++ ')' ::
    match d.result with
    | some type => type.writeChars
    | none => ['V']

def takeParams (acc : List FieldType) (s : List Char) : Option (List FieldType × List Char) :=
  match s with
  | [] => none
  | c :: rest =>
    if c == ')' then some (acc.reverse, rest)
    else
      match _h : FieldType.take? (c :: rest) with
      | some (type, after) => takeParams (type :: acc) after
      | none => none
termination_by s.length
decreasing_by exact FieldType.length_of_take? (by assumption)

def parseResult? : List Char → Option (Option FieldType)
  | ['V'] => some none
  | s => (FieldType.parse? s).map some

def parse? : List Char → Option MethodDescriptor
  | [] => none
  | c :: s =>
    if c == '(' then do
      let (params, rest) ← takeParams [] s
      return ⟨params, ← parseResult? rest⟩
    else none

end MethodDescriptor

def FieldType.parse (s : String) : Except ClassFault FieldType :=
  match FieldType.parse? s.toList with
  | some type => .ok type
  | none => .error (.invalidDescriptor s)

def MethodDescriptor.parse (s : String) : Except ClassFault MethodDescriptor :=
  match MethodDescriptor.parse? s.toList with
  | some d => .ok d
  | none => .error (.invalidDescriptor s)

end NamespaceMigration
