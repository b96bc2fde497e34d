import NamespaceMigration.Bytes

/-! What can be wrong with a class file. -/

namespace NamespaceMigration

inductive ClassFault where
  | unexpectedEnd
  | invalidMagic (found : UInt32)
  | invalidPoolIndex (index : UInt16)
  | invalidPoolTag (tag : UInt8)
  | poolKindMismatch (index : UInt16) (expected found : String)
  | invalidModifiedUtf8
  | utf8TooLong (size : Nat)
  | invalidDescriptor (text : String)
  | invalidOpcode (opcode : UInt8) (offset : Nat)
  | malformedAttribute (name : String)
  | trailingBytes (count : Nat)
  deriving DecidableEq, Repr

namespace ClassFault

def message : ClassFault → String
  | unexpectedEnd => "unexpected end of input"
  | invalidMagic found => "invalid classfile magic: 0x" ++ (Bytes.big32 found : Bytes).toHex
  | invalidPoolIndex index => "invalid constant pool index: " ++ toString index
  | invalidPoolTag tag => "invalid constant pool tag: " ++ toString tag
  | poolKindMismatch index expected found =>
    "constant pool type mismatch at index " ++ toString index ++ ": expected " ++ expected ++
      ", found " ++ found
  | invalidModifiedUtf8 => "invalid modified UTF-8 constant"
  | utf8TooLong size => "constant pool UTF-8 entry too long (" ++ toString size ++ " bytes)"
  | invalidDescriptor text => "invalid descriptor: " ++ text
  | invalidOpcode opcode offset =>
    "invalid opcode 0x" ++ Bytes.toHex [opcode] ++ " at offset " ++ toString offset
  | malformedAttribute name => "malformed " ++ name ++ " attribute"
  | trailingBytes count => toString count ++ " trailing bytes after class file"

end ClassFault

end NamespaceMigration
