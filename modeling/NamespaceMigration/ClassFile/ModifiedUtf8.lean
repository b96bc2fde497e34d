import NamespaceMigration.Bytes

namespace NamespaceMigration.ModifiedUtf8

def charUnits (c : Char) : List Nat :=
  let n := c.toNat
  if n < 0x10000 then [n] else [0xD800 + (n - 0x10000) / 0x400, 0xDC00 + (n - 0x10000) % 0x400]

def units (s : List Char) : List Nat := s.flatMap charUnits

def isHigh (u : Nat) : Bool := 0xD800 ≤ u && u < 0xDC00

def isLow (u : Nat) : Bool := 0xDC00 ≤ u && u < 0xE000

def ofUnitsFrom (acc : List Char) : List Nat → Option (List Char)
  | [] => some acc.reverse
  | u :: rest =>
    if isHigh u then
      match rest with
      | v :: rest =>
        if isLow v then
          ofUnitsFrom (Char.ofNat (0x10000 + (u - 0xD800) * 0x400 + (v - 0xDC00)) :: acc) rest
        else none
      | [] => none
    else if isLow u then none
    else ofUnitsFrom (Char.ofNat u :: acc) rest

def ofUnits? (us : List Nat) : Option (List Char) := ofUnitsFrom [] us

def encodeUnit (u : Nat) : Bytes :=
  if 1 ≤ u ∧ u ≤ 0x7F then [UInt8.ofNat u]
  else if u ≤ 0x7FF then [UInt8.ofNat (0xC0 + u / 64), UInt8.ofNat (0x80 + u % 64)]
  else [UInt8.ofNat (0xE0 + u / 4096), UInt8.ofNat (0x80 + u / 64 % 64), UInt8.ofNat (0x80 + u % 64)]

def encodeChars (s : List Char) : Bytes := (units s).flatMap encodeUnit

def encode (s : String) : Bytes := encodeChars s.toList

def isTail (b : UInt8) : Bool := 0x80 ≤ b && b < 0xC0

def decodeUnitsFrom (acc : List Nat) : Bytes → Option (List Nat)
  | [] => some acc.reverse
  | a :: rest =>
    if a < 0x80 then decodeUnitsFrom (a.toNat :: acc) rest
    else if 0xC0 ≤ a ∧ a < 0xE0 then
      match rest with
      | b :: rest =>
        if isTail b then decodeUnitsFrom ((a.toNat % 32 * 64 + b.toNat % 64) :: acc) rest else none
      | [] => none
    else if 0xE0 ≤ a ∧ a < 0xF0 then
      match rest with
      | b :: c :: rest =>
        if isTail b && isTail c then
          decodeUnitsFrom ((a.toNat % 16 * 4096 + b.toNat % 64 * 64 + c.toNat % 64) :: acc) rest
        else none
      | _ => none
    else none

def decodeUnits? (bs : Bytes) : Option (List Nat) := decodeUnitsFrom [] bs

def decodeByUnits? (bs : Bytes) : Option String :=
  (decodeUnits? bs).bind fun us => (ofUnits? us).map String.ofList

def isPlain (bs : Bytes) : Bool := bs.all fun b => b != 0 && b < 0xED

def decodePlain? (bs : Bytes) : Option String := if isPlain bs then Bytes.ofUtf8? bs else none

def decode? (bs : Bytes) : Option String :=
  match decodePlain? bs with
  | some s => some s
  | none => decodeByUnits? bs

end NamespaceMigration.ModifiedUtf8
