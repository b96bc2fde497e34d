import NamespaceMigration.ClassFile.Reader
import NamespaceMigration.ClassFile.ModifiedUtf8

namespace NamespaceMigration

inductive Constant where
  | utf8 (bytes : Bytes)
  | integer (value : Int32)
  | float (bits : UInt32)
  | long (value : Int64)
  | double (bits : UInt64)
  | classInfo (name : UInt16)
  | string (text : UInt16)
  | fieldRef (owner member : UInt16)
  | methodRef (owner member : UInt16)
  | interfaceMethodRef (owner member : UInt16)
  | nameAndType (name descriptor : UInt16)
  | methodHandle (referenceKind : UInt8) (reference : UInt16)
  | methodType (descriptor : UInt16)
  | dynamic (bootstrap member : UInt16)
  | invokeDynamic (bootstrap member : UInt16)
  | moduleInfo (name : UInt16)
  | package (name : UInt16)
  deriving DecidableEq, Repr

namespace Constant

def kind : Constant → String
  | utf8 _ => "Utf8"
  | integer _ => "Integer"
  | float _ => "Float"
  | long _ => "Long"
  | double _ => "Double"
  | classInfo _ => "Class"
  | string _ => "String"
  | fieldRef _ _ => "Fieldref"
  | methodRef _ _ => "Methodref"
  | interfaceMethodRef _ _ => "InterfaceMethodref"
  | nameAndType _ _ => "NameAndType"
  | methodHandle _ _ => "MethodHandle"
  | methodType _ => "MethodType"
  | dynamic _ _ => "Dynamic"
  | invokeDynamic _ _ => "InvokeDynamic"
  | moduleInfo _ => "Module"
  | package _ => "Package"

def tag : Constant → UInt8
  | utf8 _ => 1
  | integer _ => 3
  | float _ => 4
  | long _ => 5
  | double _ => 6
  | classInfo _ => 7
  | string _ => 8
  | fieldRef _ _ => 9
  | methodRef _ _ => 10
  | interfaceMethodRef _ _ => 11
  | nameAndType _ _ => 12
  | methodHandle _ _ => 15
  | methodType _ => 16
  | dynamic _ _ => 17
  | invokeDynamic _ _ => 18
  | moduleInfo _ => 19
  | package _ => 20

def takesTwoSlots : Constant → Bool
  | long _ => true
  | double _ => true
  | _ => false

def payload : Constant → Bytes
  | utf8 bytes => Bytes.big16 (UInt16.ofNat bytes.length) ++ bytes
  | integer value => Bytes.big32 value.toUInt32
  | float bits => Bytes.big32 bits
  | long value => Bytes.big64 value.toUInt64
  | double bits => Bytes.big64 bits
  | classInfo name => Bytes.big16 name
  | string text => Bytes.big16 text
  | fieldRef owner member => Bytes.big16 owner ++ Bytes.big16 member
  | methodRef owner member => Bytes.big16 owner ++ Bytes.big16 member
  | interfaceMethodRef owner member => Bytes.big16 owner ++ Bytes.big16 member
  | nameAndType name descriptor => Bytes.big16 name ++ Bytes.big16 descriptor
  | methodHandle referenceKind reference => referenceKind :: Bytes.big16 reference
  | methodType descriptor => Bytes.big16 descriptor
  | dynamic bootstrap member => Bytes.big16 bootstrap ++ Bytes.big16 member
  | invokeDynamic bootstrap member => Bytes.big16 bootstrap ++ Bytes.big16 member
  | moduleInfo name => Bytes.big16 name
  | package name => Bytes.big16 name

def write (c : Constant) : Bytes := c.tag :: c.payload

def readPayload (tag : UInt8) : Reader Constant :=
  match tag with
  | 1 => do
    let size ← Reader.u2
    return utf8 (← Reader.bytes size.toNat)
  | 3 => return integer (← Reader.u4).toInt32
  | 4 => return float (← Reader.u4)
  | 5 => return long (← Reader.u8).toInt64
  | 6 => return double (← Reader.u8)
  | 7 => return classInfo (← Reader.u2)
  | 8 => return string (← Reader.u2)
  | 9 => return fieldRef (← Reader.u2) (← Reader.u2)
  | 10 => return methodRef (← Reader.u2) (← Reader.u2)
  | 11 => return interfaceMethodRef (← Reader.u2) (← Reader.u2)
  | 12 => return nameAndType (← Reader.u2) (← Reader.u2)
  | 15 => return methodHandle (← Reader.u1) (← Reader.u2)
  | 16 => return methodType (← Reader.u2)
  | 17 => return dynamic (← Reader.u2) (← Reader.u2)
  | 18 => return invokeDynamic (← Reader.u2) (← Reader.u2)
  | 19 => return moduleInfo (← Reader.u2)
  | 20 => return package (← Reader.u2)
  | other => throw (.invalidPoolTag other)

def read : Reader Constant := do readPayload (← Reader.u1)

end Constant

structure ConstantPool where
  slots : Array (Option Constant)
  deriving DecidableEq, Repr

structure ResolvedField where
  owner : Bytes
  name : Bytes
  descriptor : Bytes
  deriving DecidableEq, Repr

namespace ConstantPool

def readSlots (count : Nat) (slots : Array (Option Constant)) : Reader (Array (Option Constant)) := fun s =>
  if slots.size < count then
    match Constant.read s with
    | .ok (c, rest) =>
      if c.takesTwoSlots then readSlots count ((slots.push (some c)).push none) rest
      else readSlots count (slots.push (some c)) rest
    | .error e => .error e
  else .ok (slots, s)
termination_by count - slots.size
decreasing_by all_goals simp only [Array.size_push]; omega

def read : Reader ConstantPool := do
  let count ← Reader.u2
  return ⟨← readSlots count.toNat #[none]⟩

def count (pool : ConstantPool) : UInt16 := UInt16.ofNat pool.slots.size

def write (pool : ConstantPool) : Bytes :=
  Bytes.big16 pool.count ++ (pool.slots.toList.filterMap id).flatMap Constant.write

def get (pool : ConstantPool) (index : UInt16) : Except ClassFault Constant :=
  match pool.slots[index.toNat]? with
  | some (some c) => .ok c
  | _ => .error (.invalidPoolIndex index)

def utf8Bytes (pool : ConstantPool) (index : UInt16) : Except ClassFault Bytes := do
  match ← pool.get index with
  | .utf8 bytes => .ok bytes
  | other => .error (.poolKindMismatch index "Utf8" other.kind)

def decoded (bytes : Bytes) : Except ClassFault String :=
  match ModifiedUtf8.decode? bytes with
  | some s => .ok s
  | none => .error .invalidModifiedUtf8

def utf8 (pool : ConstantPool) (index : UInt16) : Except ClassFault String := do
  decoded (← pool.utf8Bytes index)

def classNameBytes (pool : ConstantPool) (index : UInt16) : Except ClassFault Bytes := do
  match ← pool.get index with
  | .classInfo name => pool.utf8Bytes name
  | other => .error (.poolKindMismatch index "Class" other.kind)

def className (pool : ConstantPool) (index : UInt16) : Except ClassFault String := do
  decoded (← pool.classNameBytes index)

def field (pool : ConstantPool) (index : UInt16) : Except ClassFault ResolvedField := do
  match ← pool.get index with
  | .fieldRef owner member =>
    match ← pool.get member with
    | .nameAndType name descriptor =>
      return ⟨← pool.classNameBytes owner, ← pool.utf8Bytes name, ← pool.utf8Bytes descriptor⟩
    | other => .error (.poolKindMismatch member "NameAndType" other.kind)
  | other => .error (.poolKindMismatch index "Fieldref" other.kind)

def constants (pool : ConstantPool) : List (UInt16 × Constant) :=
  pool.slots.toList.zipIdx.filterMap fun (slot, i) => slot.map fun c => (UInt16.ofNat i, c)

def textSlots (pool : ConstantPool) : List UInt16 :=
  pool.constants.filterMap fun (i, c) => match c with
    | .utf8 _ => some i
    | _ => none

def replaceBytes (pool : ConstantPool) (index : UInt16) (bytes : Bytes) : Except ClassFault ConstantPool :=
  if 65535 < bytes.length then .error (.utf8TooLong bytes.length)
  else
    match pool.slots[index.toNat]? with
    | some (some (.utf8 _)) => .ok ⟨pool.slots.setIfInBounds index.toNat (some (.utf8 bytes))⟩
    | some (some other) => .error (.poolKindMismatch index "Utf8" other.kind)
    | _ => .error (.invalidPoolIndex index)

def replaceText (pool : ConstantPool) (index : UInt16) (value : String) : Except ClassFault ConstantPool :=
  pool.replaceBytes index (ModifiedUtf8.encode value)

end ConstantPool

end NamespaceMigration
