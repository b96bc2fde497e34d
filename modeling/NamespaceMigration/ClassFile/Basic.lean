import NamespaceMigration.ClassFile.ConstantPool
import NamespaceMigration.ClassFile.Instruction

/-! Class files. -/

namespace NamespaceMigration

structure Attribute where
  name : UInt16
  info : Bytes
  deriving DecidableEq, Repr

structure Member where
  access : UInt16
  name : UInt16
  descriptor : UInt16
  attributes : List Attribute
  deriving DecidableEq, Repr

structure Code where
  maxStack : UInt16
  maxLocals : UInt16
  code : Bytes
  deriving DecidableEq, Repr

structure ClassBody where
  access : UInt16
  thisClass : UInt16
  superClass : UInt16
  interfaces : List UInt16
  fields : List Member
  methods : List Member
  attributes : List Attribute
  deriving DecidableEq, Repr

structure ClassFile where
  minor : UInt16
  major : UInt16
  pool : ConstantPool
  body : ClassBody
  bodyBytes : Bytes
  deriving DecidableEq, Repr

def Attribute.read : Reader Attribute := do
  let name ← Reader.u2
  let size ← Reader.u4
  return ⟨name, ← Reader.bytes size.toNat⟩

def Attribute.readTable : Reader (List Attribute) := do
  let count ← Reader.u2
  Reader.times count.toNat Attribute.read

namespace Member

def read : Reader Member :=
  return ⟨← Reader.u2, ← Reader.u2, ← Reader.u2, ← Attribute.readTable⟩

def readTable : Reader (List Member) := do
  let count ← Reader.u2
  Reader.times count.toNat read

def readCode : Reader Code := do
  let maxStack ← Reader.u2
  let maxLocals ← Reader.u2
  let size ← Reader.u4
  fun s =>
    match Reader.bytes size.toNat s with
    | .ok (code, rest) => .ok (⟨maxStack, maxLocals, code⟩, rest)
    | .error _ => .error (.malformedAttribute "Code")

/-- The first attribute of this name, if all names up to it are Utf8 constants. -/
def findAttribute (pool : ConstantPool) (name : Bytes) : List Attribute → Except ClassFault (Option Attribute)
  | [] => .ok none
  | a :: rest => do
    if (← pool.utf8Bytes a.name) = name then return some a
    else findAttribute pool name rest

/-- The member's code; octets after the code in its attribute are not looked at. -/
def code (m : Member) (pool : ConstantPool) : Except ClassFault (Option Code) := do
  match ← findAttribute pool (Bytes.utf8 "Code") m.attributes with
  | none => return none
  | some a =>
    let (code, _) ← readCode a.info
    return some code

end Member

def ClassBody.read : Reader ClassBody := do
  let access ← Reader.u2
  let thisClass ← Reader.u2
  let superClass ← Reader.u2
  let count ← Reader.u2
  let interfaces ← Reader.times count.toNat Reader.u2
  return ⟨access, thisClass, superClass, interfaces, ← Member.readTable, ← Member.readTable,
    ← Attribute.readTable⟩

namespace ClassFile

def magic : UInt32 := 0xCAFEBABE

def read : Reader ClassFile := do
  let found ← Reader.u4
  if found ≠ magic then throw (.invalidMagic found)
  let minor ← Reader.u2
  let major ← Reader.u2
  let pool ← ConstantPool.read
  let bodyBytes ← get
  return ⟨minor, major, pool, ← ClassBody.read, bodyBytes⟩

def parse (bs : Bytes) : Except ClassFault ClassFile := Reader.run read bs

def toBytes (c : ClassFile) : Bytes :=
  Bytes.big32 magic ++ Bytes.big16 c.minor ++ Bytes.big16 c.major ++ c.pool.write ++ c.bodyBytes

def thisName (c : ClassFile) : Except ClassFault String := c.pool.className c.body.thisClass

end ClassFile

end NamespaceMigration
