import NamespaceMigration.ClassFile.Reader

/-! Instructions of a method's code, each with its opcode and raw operands. -/

namespace NamespaceMigration

structure Instruction where
  offset : Nat
  opcode : UInt8
  operands : Bytes
  deriving DecidableEq, Repr

structure Walk where
  instructions : List Instruction
  fault : Option ClassFault
  deriving DecidableEq, Repr

namespace Instruction

def getstatic : UInt8 := 0xB2

def tableswitch : UInt8 := 0xAA

def lookupswitch : UInt8 := 0xAB

def wide : UInt8 := 0xC4

def iinc : UInt8 := 0x84

def poolIndex? (i : Instruction) : Option UInt16 :=
  match i.operands with
  | a :: b :: _ => some (Bytes.joinBig16 a b)
  | _ => none

def lengths : List (UInt8 × UInt8 × Nat) :=
  [(0x00, 0x0F, 1), (0x10, 0x10, 2), (0x11, 0x11, 3), (0x12, 0x12, 2), (0x13, 0x14, 3),
    (0x15, 0x19, 2), (0x1A, 0x35, 1), (0x36, 0x3A, 2), (0x3B, 0x83, 1), (0x84, 0x84, 3),
    (0x85, 0x98, 1), (0x99, 0xA8, 3), (0xA9, 0xA9, 2), (0xAC, 0xB1, 1), (0xB2, 0xB8, 3),
    (0xB9, 0xBA, 5), (0xBB, 0xBB, 3), (0xBC, 0xBC, 2), (0xBD, 0xBD, 3), (0xBE, 0xBF, 1),
    (0xC0, 0xC1, 3), (0xC2, 0xC3, 1), (0xC5, 0xC5, 4), (0xC6, 0xC7, 3), (0xC8, 0xC9, 5),
    (0xCA, 0xCA, 1), (0xFE, 0xFF, 1)]

def fixedLength? (opcode : UInt8) : Option Nat :=
  (lengths.find? fun (first, last, _) => first ≤ opcode && opcode ≤ last).map (·.2.2)

def padding (offset : Nat) : Nat := (4 - (offset + 1) % 4) % 4

def int32At (s : Bytes) (start : Nat) : Except ClassFault Int :=
  match Bytes.slice s start 4 with
  | [a, b, c, d] => .ok (Bytes.joinBig32 a b c d).toInt32.toInt
  | _ => .error .unexpectedEnd

def operandCount (offset : Nat) (opcode : UInt8) (rest : Bytes) : Except ClassFault Nat :=
  if opcode = tableswitch then do
    let low ← int32At rest (padding offset + 4)
    let high ← int32At rest (padding offset + 8)
    if high < low then throw (.malformedAttribute "Code")
    else return padding offset + 12 + (high - low + 1).toNat * 4
  else if opcode = lookupswitch then do
    let pairs ← int32At rest (padding offset + 4)
    if pairs < 0 then throw (.malformedAttribute "Code")
    else return padding offset + 8 + pairs.toNat * 8
  else if opcode = wide then
    match rest with
    | next :: _ => .ok (if next = iinc then 5 else 3)
    | [] => .error .unexpectedEnd
  else
    match fixedLength? opcode with
    | some n => .ok (n - 1)
    | none => .error (.invalidOpcode opcode offset)

def walkFrom (acc : List Instruction) (offset : Nat) (code : Bytes) : Walk :=
  match code with
  | [] => ⟨acc.reverse, none⟩
  | opcode :: rest =>
    match operandCount offset opcode rest with
    | .error e => ⟨acc.reverse, some e⟩
    | .ok n =>
      let operands := rest.take n
      if operands.length < n then ⟨acc.reverse, some .unexpectedEnd⟩
      else walkFrom (⟨offset, opcode, operands⟩ :: acc) (offset + 1 + n) (rest.drop n)
termination_by code.length
decreasing_by simp only [List.length_drop, List.length_cons]; omega

def walk (code : Bytes) : Walk := walkFrom [] 0 code

end Instruction

def Walk.complete (w : Walk) : Except ClassFault (List Instruction) :=
  match w.fault with
  | none => .ok w.instructions
  | some e => .error e

end NamespaceMigration
