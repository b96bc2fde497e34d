import NamespaceMigration.ClassFile.Basic
import NamespaceMigration.ClassFile.Descriptor

namespace NamespaceMigration

structure ProtectedClasses where
  names : List String
  deriving DecidableEq, Repr

def referencedClasses (symbol : String) : List String :=
  let s := symbol.toList
  if s.head? = some '<' ∧ s.getLast? = some '>' then []
  else if s.head? = some '(' then
    match MethodDescriptor.parse? s with
    | some d => d.types.filterMap FieldType.className
    | none => []
  else
    match FieldType.parse? s with
    | some type => type.className.toList
    | none =>
      if s.contains '/' ∧ !s.any (fun c => c == ';' || c == '(' || c == '<' || c == ' ') then
        [String.ofList (s.map fun c => if c == '/' then '.' else c)]
      else []

namespace ProtectedClasses

def empty : ProtectedClasses := ⟨[]⟩

def insertSorted (name : String) : List String → List String
  | [] => [name]
  | x :: rest =>
    if name < x then name :: x :: rest
    else if name = x then x :: rest
    else x :: insertSorted name rest

def contains (set : ProtectedClasses) (name : String) : Bool := set.names.contains name

def insert (set : ProtectedClasses) (name : String) : ProtectedClasses := ⟨insertSorted name set.names⟩

def protects (set : ProtectedClasses) (symbol : String) : Bool :=
  !set.names.isEmpty && (referencedClasses symbol).any set.contains

def factoryPath : Bytes := Bytes.utf8 "javax/xml/xpath/"

def readsFactory (pool : ConstantPool) : Bool :=
  pool.constants.any fun (_, c) => match c with
    | .fieldRef owner _ =>
      match pool.classNameBytes owner with
      | .ok name => (Text.strip? factoryPath name).isSome
      | .error _ => false
    | _ => false

def startsWith (word s : String) : Bool := (Text.strip? word.toList s.toList).isSome

def ofInstruction (pool : ConstantPool) (i : Instruction) : Except ClassFault (Option String) :=
  if i.opcode ≠ Instruction.getstatic then .ok none
  else
    match i.poolIndex? with
    | none => .ok none
    | some index => do
      let field ← pool.field index
      let owner ← ConstantPool.decoded field.owner
      if startsWith "javax.xml.xpath." (owner.map fun c => if c == '/' then '.' else c) then
        let type ← FieldType.parse (← ConstantPool.decoded field.descriptor)
        return type.className.filter (startsWith "javax.xml." ·)
      else return none

/-- The classes that a method protects. A fault anywhere in it leaves none. -/
def ofMethod (pool : ConstantPool) (m : Member) : Except ClassFault (List String) := do
  match ← m.code pool with
  | none => return []
  | some code =>
    let walk := Instruction.walk code.code
    let found ← walk.instructions.mapM (ofInstruction pool)
    let _ ← walk.complete
    return found.filterMap id

def ofMethods (pool : ConstantPool) (methods : List Member) : ProtectedClasses :=
  methods.foldl
    (fun set m => match ofMethod pool m with
      | .ok names => names.foldl insert set
      | .error _ => set)
    empty

def ofClass (c : ClassFile) : ProtectedClasses :=
  if readsFactory c.pool then ofMethods c.pool c.body.methods else empty

end ProtectedClasses

end NamespaceMigration
