import NamespaceMigration.ClassFile.Basic

namespace NamespaceMigration

inductive DraftInstruction where
  | getstatic (owner name descriptor : String)
  | ldc (text : String)
  | raw (code : Bytes)
  deriving DecidableEq, Repr

structure DraftMember where
  access : UInt16
  name : String
  descriptor : String
  code : Option (List DraftInstruction)
  deriving DecidableEq, Repr

structure PoolDraft where
  constants : Array Constant
  deriving DecidableEq, Repr

structure ClassDraft where
  pool : PoolDraft
  thisClass : String
  superClass : String
  interfaces : List String
  fields : List DraftMember
  methods : List DraftMember
  sourceFile : Option String
  deriving DecidableEq, Repr

namespace PoolDraft

def width (c : Constant) : Nat := if c.takesTwoSlots then 2 else 1

def slotsOf (cs : List Constant) : Nat := (cs.map width).foldr (· + ·) 0

def slots (pool : PoolDraft) : Nat := slotsOf pool.constants.toList

def find? (c : Constant) : Nat → List Constant → Option Nat
  | _, [] => none
  | start, d :: rest => if d = c then some start else find? c (start + width d) rest

def intern (c : Constant) : StateM PoolDraft UInt16 := fun pool =>
  match find? c 1 pool.constants.toList with
  | some i => (UInt16.ofNat i, pool)
  | none => (UInt16.ofNat (pool.slots + 1), ⟨pool.constants.push c⟩)

def utf8 (s : String) : StateM PoolDraft UInt16 := intern (.utf8 (Bytes.utf8 s))

def classInfo (name : String) : StateM PoolDraft UInt16 := do intern (.classInfo (← utf8 name))

def string (s : String) : StateM PoolDraft UInt16 := do intern (.string (← utf8 s))

def fieldRef (owner name descriptor : String) : StateM PoolDraft UInt16 := do
  let owner ← classInfo owner
  let name ← utf8 name
  let descriptor ← utf8 descriptor
  intern (.fieldRef owner (← intern (.nameAndType name descriptor)))

def write (pool : PoolDraft) : Bytes :=
  Bytes.big16 (UInt16.ofNat (pool.slots + 1)) ++ pool.constants.toList.flatMap Constant.write

end PoolDraft

namespace DraftInstruction

/-- The instruction's octets: a value that is loaded is popped again. -/
def layOut : DraftInstruction → StateM PoolDraft Bytes
  | getstatic owner name descriptor =>
    return 0xB2 :: Bytes.big16 (← PoolDraft.fieldRef owner name descriptor) ++ [0x57]
  | ldc text => return 0x13 :: Bytes.big16 (← PoolDraft.string text) ++ [0x57]
  | raw code => return code

end DraftInstruction

namespace DraftMember

def codeInfo (code : Bytes) : Bytes :=
  Bytes.big16 4 ++ Bytes.big16 4 ++ Bytes.big32 (UInt32.ofNat code.length) ++ code ++
    Bytes.big16 0 ++ Bytes.big16 0

def layOut (m : DraftMember) : StateM PoolDraft Bytes := do
  let head := Bytes.big16 m.access ++ Bytes.big16 (← PoolDraft.utf8 m.name) ++
    Bytes.big16 (← PoolDraft.utf8 m.descriptor)
  match m.code with
  | none => return head ++ Bytes.big16 0
  | some instructions =>
    let code := (← instructions.mapM DraftInstruction.layOut).flatten ++ [0xB1]
    let name ← PoolDraft.utf8 "Code"
    let info := codeInfo code
    return head ++ Bytes.big16 1 ++ Bytes.big16 name ++ Bytes.big32 (UInt32.ofNat info.length) ++ info

end DraftMember

namespace ClassDraft

def ofName (name : String) : ClassDraft := ⟨⟨#[]⟩, name, "java/lang/Object", [], [], [], none⟩

def withSuper (d : ClassDraft) (name : String) : ClassDraft := { d with superClass := name }

def addInterface (d : ClassDraft) (name : String) : ClassDraft :=
  { d with interfaces := d.interfaces ++ [name] }

def addField (d : ClassDraft) (access : UInt16) (name descriptor : String) : ClassDraft :=
  { d with fields := d.fields ++ [⟨access, name, descriptor, none⟩] }

def addMethod (d : ClassDraft) (access : UInt16) (name descriptor : String) : ClassDraft :=
  { d with methods := d.methods ++ [⟨access, name, descriptor, some []⟩] }

/-- Appends to the last method; a class without methods gets a static `run` first. -/
def addInstruction (d : ClassDraft) (i : DraftInstruction) : ClassDraft :=
  let d := if d.methods.isEmpty then d.addMethod 0x0009 "run" "()V" else d
  match d.methods.reverse with
  | [] => d
  | last :: before =>
    { d with methods := before.reverse ++ [{ last with code := last.code.map (· ++ [i]) }] }

def withSourceFile (d : ClassDraft) (name : String) : ClassDraft := { d with sourceFile := some name }

def addLong (d : ClassDraft) (value : Int64) : ClassDraft :=
  { d with pool := (PoolDraft.intern (.long value) d.pool).2 }

def layOutSource : Option String → StateM PoolDraft Bytes
  | none => return Bytes.big16 0
  | some name =>
    return Bytes.big16 1 ++ Bytes.big16 (← PoolDraft.utf8 "SourceFile") ++ Bytes.big32 2 ++
      Bytes.big16 (← PoolDraft.utf8 name)

def layOutBody (d : ClassDraft) : StateM PoolDraft Bytes := do
  let thisClass ← PoolDraft.classInfo d.thisClass
  let superClass ← PoolDraft.classInfo d.superClass
  let interfaces ← d.interfaces.mapM PoolDraft.classInfo
  let fields ← d.fields.mapM DraftMember.layOut
  let methods ← d.methods.mapM DraftMember.layOut
  let source ← layOutSource d.sourceFile
  return Bytes.big16 0x0021 ++ Bytes.big16 thisClass ++ Bytes.big16 superClass ++
    Bytes.big16 (UInt16.ofNat interfaces.length) ++ interfaces.flatMap Bytes.big16 ++
    Bytes.big16 (UInt16.ofNat fields.length) ++ fields.flatten ++
    Bytes.big16 (UInt16.ofNat methods.length) ++ methods.flatten ++ source

def toBytes (d : ClassDraft) : Bytes :=
  let (body, pool) := d.layOutBody d.pool
  Bytes.big32 ClassFile.magic ++ Bytes.big16 0 ++ Bytes.big16 52 ++ pool.write ++ body

end ClassDraft

end NamespaceMigration
