/-! Byte strings: big- and little-endian numbers, hexadecimal digits and UTF-8. -/

namespace NamespaceMigration

abbrev Bytes := List UInt8

namespace Bytes

def big16 (n : UInt16) : Bytes := [(n >>> 8).toUInt8, n.toUInt8]

def big32 (n : UInt32) : Bytes :=
  [(n >>> 24).toUInt8, (n >>> 16).toUInt8, (n >>> 8).toUInt8, n.toUInt8]

def big64 (n : UInt64) : Bytes := big32 (n >>> 32).toUInt32 ++ big32 n.toUInt32

def joinBig16 (a b : UInt8) : UInt16 := a.toUInt16 <<< 8 ||| b.toUInt16

def joinBig32 (a b c d : UInt8) : UInt32 :=
  a.toUInt32 <<< 24 ||| b.toUInt32 <<< 16 ||| c.toUInt32 <<< 8 ||| d.toUInt32

def joinBig64 (high low : UInt32) : UInt64 := high.toUInt64 <<< 32 ||| low.toUInt64

def little : Nat → Nat → Bytes
  | 0, _ => []
  | width + 1, n => UInt8.ofNat n :: little width (n / 256)

def ofLittle : Bytes → Nat
  | [] => 0
  | b :: rest => b.toNat + 256 * ofLittle rest

def slice (bs : Bytes) (start size : Nat) : Bytes := (bs.drop start).take size

def part (file : Array UInt8) (start size : Nat) : Bytes := (file.extract start (start + size)).toList

def little? (bs : Bytes) (start width : Nat) : Option Nat :=
  let part := slice bs start width
  if part.length = width then some (ofLittle part) else none

def hexDigit (n : UInt8) : Char :=
  if n < 10 then Char.ofNat (48 + n.toNat) else Char.ofNat (87 + n.toNat)

def toHex (bs : Bytes) : String :=
  String.ofList (bs.flatMap fun (b : UInt8) => [hexDigit (b >>> 4), hexDigit (b &&& 15)])

def hexValue? (c : Char) : Option UInt8 :=
  if '0' ≤ c ∧ c ≤ '9' then some (UInt8.ofNat (c.toNat - 48))
  else if 'a' ≤ c ∧ c ≤ 'f' then some (UInt8.ofNat (c.toNat - 87))
  else if 'A' ≤ c ∧ c ≤ 'F' then some (UInt8.ofNat (c.toNat - 55))
  else none

def ofHex? : List Char → Option Bytes
  | [] => some []
  | a :: b :: s => do return ((← hexValue? a) * 16 + (← hexValue? b)) :: (← ofHex? s)
  | _ => none

def utf8 (s : String) : Bytes := s.toUTF8.data.toList

def ofUtf8? (bs : Bytes) : Option String := String.fromUTF8? bs.toByteArray

theorem part_toArray (bs : Bytes) (start size : Nat) : part bs.toArray start size = slice bs start size := by
  simp [part, slice, List.extract_eq_take_drop]

@[simp] theorem length_big16 (n : UInt16) : (big16 n).length = 2 := rfl

@[simp] theorem length_big32 (n : UInt32) : (big32 n).length = 4 := rfl

end Bytes

end NamespaceMigration
