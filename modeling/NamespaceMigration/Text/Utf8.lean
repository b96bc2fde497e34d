import NamespaceMigration.Bytes

namespace NamespaceMigration

namespace Text

structure Pending where
  value : Nat
  missing : Nat
  low : UInt8
  high : UInt8
  deriving DecidableEq, Repr

def replacement : Char := '\ufffd'

def beginChar (b : UInt8) : List Char × Option Pending :=
  let pending (bits missing : Nat) (low high : UInt8) : List Char × Option Pending :=
    ([], some ⟨b.toNat % bits, missing, low, high⟩)
  if b < 0x80 then ([Char.ofNat b.toNat], none)
  else if b < 0xC2 then ([replacement], none)
  else if b < 0xE0 then pending 32 1 0x80 0xBF
  else if b = 0xE0 then pending 16 2 0xA0 0xBF
  else if b = 0xED then pending 16 2 0x80 0x9F
  else if b < 0xF0 then pending 16 2 0x80 0xBF
  else if b = 0xF0 then pending 8 3 0x90 0xBF
  else if b < 0xF4 then pending 8 3 0x80 0xBF
  else if b = 0xF4 then pending 8 3 0x80 0x8F
  else ([replacement], none)

def feed (state : Option Pending) (b : UInt8) : List Char × Option Pending :=
  match state with
  | none => beginChar b
  | some p =>
    if p.low ≤ b ∧ b ≤ p.high then
      let value := p.value * 64 + b.toNat % 64
      if p.missing ≤ 1 then ([Char.ofNat value], none) else ([], some ⟨value, p.missing - 1, 0x80, 0xBF⟩)
    else
      let (chars, state) := beginChar b
      (replacement :: chars, state)

def decodeChars : Option Pending → Bytes → List Char
  | none, [] => []
  | some _, [] => [replacement]
  | state, b :: bs =>
    let (chars, state) := feed state b
    chars ++ decodeChars state bs

def decodeLossy (bs : Bytes) : String := String.ofList (decodeChars none bs)

def dropOctets? : Nat → List Char → Option (List Char)
  | 0, s => some s
  | _ + 1, [] => none
  | n + 1, c :: s => if c.utf8Size ≤ n + 1 then dropOctets? (n + 1 - c.utf8Size) s else none

def takeOctets? : Nat → List Char → Option (List Char)
  | 0, _ => some []
  | _ + 1, [] => none
  | n + 1, c :: s => if c.utf8Size ≤ n + 1 then (takeOctets? (n + 1 - c.utf8Size) s).map (c :: ·) else none

def slice? (s : List Char) (first last : Nat) : Option String := do
  return String.ofList (← takeOctets? (last - first) (← dropOctets? first s))

def sliceFrom? (s : List Char) (first : Nat) : Option String := (dropOctets? first s).map String.ofList

end Text

/-- A text as the file system has it: any octets, of which those of a Unicode text are its UTF-8 form. -/
@[ext]
structure RawText where
  octets : Bytes
  deriving DecidableEq, Repr

namespace RawText

def ofText (text : String) : RawText := ⟨Bytes.utf8 text⟩

instance : Coe String RawText := ⟨ofText⟩

instance : Append RawText := ⟨fun a b => ⟨a.octets ++ b.octets⟩⟩

instance : LE RawText := ⟨fun a b => a.octets ≤ b.octets⟩

instance : DecidableLE RawText := fun a b => inferInstanceAs (Decidable (a.octets ≤ b.octets))

def text? (r : RawText) : Option String := Bytes.ofUtf8? r.octets

def shown (r : RawText) : String := Text.decodeLossy r.octets

end RawText

end NamespaceMigration
