import NamespaceMigration.Archive.Basic
import NamespaceMigration.Deflate.Decoder
import NamespaceMigration.Zip.EndRecord
import NamespaceMigration.Text.Utf8

/-! Headers in the directory of a zip archive. -/

namespace NamespaceMigration

namespace Crc32

def shift (crc : UInt32) : UInt32 := if crc &&& 1 = 1 then crc >>> 1 ^^^ 0xEDB88320 else crc >>> 1

def step (crc : UInt32) (b : UInt8) : UInt32 := Nat.repeat shift 8 (crc ^^^ b.toUInt32)

def checksum (message : Bytes) : UInt32 := message.foldl step 0xFFFFFFFF ^^^ 0xFFFFFFFF

end Crc32

namespace Zip

def codePage : List Char :=
  ("ÇüéâäàåçêëèïîìÄÅÉæÆôöòûùÿÖÜ¢£¥₧ƒ" ++
    "áíóúñÑªº¿⌐¬½¼¡«»░▒▓│┤╡╢╖╕╣║╗╝╜╛┐" ++
    "└┴┬├─┼╞╟╚╔╩╦╠═╬╧╨╤╥╙╘╒╓╫╪┘┌█▄▌▐▀" ++
    "αßΓπΣσµτΦΘΩδ∞φε∩≡±≥≤⌠⌡÷≈°∙·√ⁿ²■\u00a0").toList

def ofCodePage (b : UInt8) : Char :=
  if b < 128 then Char.ofNat b.toNat else codePage.getD (b.toNat - 128) ' '

def readName (isUtf8 : Bool) (bs : Bytes) : String :=
  if isUtf8 then Text.decodeLossy bs else String.ofList (bs.map ofCodePage)

structure Header where
  isUnix : Bool
  isDos : Bool
  flags : Nat
  method : UInt16
  time : UInt16
  date : UInt16
  checksum : UInt32
  packedSize : Nat
  size : Nat
  external : UInt32
  start : Nat
  rawName : Bytes
  name : String
  comment : String
  isSealed : Bool
  deriving DecidableEq, Repr

inductive AfterExtra where
  | goOn (h : Header) (rest : Bytes)
  | cutOff (h : Header)
  | unsound
  deriving DecidableEq, Repr

namespace Header

inductive WideField where
  | size
  | packedSize
  | start
  deriving DecidableEq, Repr

def wideFields : List WideField := [.size, .packedSize, .start]

def get (h : Header) : WideField → Nat
  | .size => h.size
  | .packedSize => h.packedSize
  | .start => h.start

def set (h : Header) (n : Nat) : WideField → Header
  | .size => { h with size := n }
  | .packedSize => { h with packedSize := n }
  | .start => { h with start := n }

def readWide (length : Nat) (h : Header) (used : Nat) (bs : Bytes) : List WideField → AfterExtra
  | [] =>
    if length < used then .unsound
    else if bs.length < length - used then .cutOff h
    else .goOn h (bs.drop (length - used))
  | f :: fields =>
    if 24 ≤ length ∨ h.get f = fullDoubleWord then
      match Bytes.little? bs 0 8 with
      | some n => readWide length (h.set n f) (used + 8) (bs.drop 8) fields
      | none => .cutOff h
    else readWide length h used bs fields

def readTimes (length : Nat) (h : Header) (bs : Bytes) : AfterExtra :=
  if length ≠ 32 then .unsound
  else if bs.length < 6 then .cutOff h
  else if word bs 4 ≠ 1 then .unsound
  else if bs.length < 8 then .cutOff h
  else if word bs 6 ≠ 24 then .unsound
  else if bs.length < 32 then .cutOff h
  else .goOn h (bs.drop 32)

def readSeal (length : Nat) (h : Header) (bs : Bytes) : AfterExtra :=
  if length ≠ 7 then .unsound
  else if bs.length < 7 then .cutOff h
  else
    let strength := bs.getD 4 0
    if word bs 2 ≠ 0x4541 ∨ word bs 0 < 1 ∨ 2 < word bs 0 ∨ strength < 1 ∨ 3 < strength then .unsound
    else .goOn { h with isSealed := true, method := .ofNat (word bs 5) } (bs.drop 7)

def readClock (length : Nat) (h : Header) : Bytes → AfterExtra
  | [] => .cutOff h
  | flags :: bs =>
    let bit (i : Nat) : Nat := flags.toNat / Nat.pow 2 i % 2
    let ones := ((List.range 8).map bit).foldr (· + ·) 0
    let size := 4 * if length = 5 then 1 else bit 0 + bit 1 + bit 2
    if length ≠ 5 ∧ length ≠ 1 + 4 * ones then .unsound
    else if bs.length < size then .cutOff h
    else .goOn h (bs.drop size)

def readUnicode (length : Nat) (h : Header) (meant : Bytes) (put : Bytes → String → Header) (bs : Bytes) : AfterExtra :=
  if bs.length < 5 then .cutOff h
  else if length < 5 then .unsound
  else if bs.length < length then .cutOff h
  else
    let content := Bytes.slice bs 5 (length - 5)
    match Bytes.ofUtf8? content with
    | some text =>
      if doubleWord bs 1 = (Crc32.checksum meant).toNat then .goOn (put content text) (bs.drop length) else .unsound
    | none => .unsound

def readExtra (kind length : Nat) (h : Header) (bs : Bytes) : AfterExtra :=
  match kind with
  | 0x0001 => h.readWide length 0 bs wideFields
  | 0x000A => h.readTimes length bs
  | 0x9901 => h.readSeal length bs
  | 0x5455 => h.readClock length bs
  | 0x6375 => h.readUnicode length (Bytes.utf8 h.comment) (fun _ text => { h with comment := text }) bs
  | 0x7075 => h.readUnicode length h.rawName (fun raw text => { h with rawName := raw, name := text }) bs
  | _ => if bs.length < length then .cutOff h else .goOn h (bs.drop length)

def readExtras : Nat → Header → Bytes → Option Header
  | fuel + 1, h, a :: b :: c :: d :: bs =>
    match readExtra (Bytes.ofLittle [a, b]) (Bytes.ofLittle [c, d]) h bs with
    | .goOn h rest => readExtras fuel h rest
    | .cutOff h => some h
    | .unsound => none
  | _, h, _ => some h

def sealedMethod : UInt16 := 99

def isSound (h : Header) (shift : Nat) : Bool := (h.method != sealedMethod || h.isSealed) && h.start + shift < Nat.pow 2 64

def read? (shift : Nat) (bs : Bytes) : Option (Header × Bytes) := do
  let named := word bs 28
  let extra := word bs 30
  let commented := word bs 32
  let after := bs.drop headerSize
  if (Text.strip? directorySignature bs).isNone || (bs.take headerSize).length < headerSize then none
  else if (after.take (named + extra + commented)).length < named + extra + commented then none
  else
    let isUtf8 := word bs 8 / 2048 % 2 == 1
    let rawName := after.take named
    let h : Header := ⟨word bs 4 / 256 == 3, word bs 4 / 256 == 0, word bs 8, .ofNat (word bs 10), .ofNat (word bs 12),
      .ofNat (word bs 14), .ofNat (doubleWord bs 16), doubleWord bs 20, doubleWord bs 24, .ofNat (doubleWord bs 38),
      doubleWord bs 42, rawName, readName isUtf8 rawName, readName isUtf8 (Bytes.slice after (named + extra) commented), false⟩
    let h ← readExtras extra h (Bytes.slice after named extra)
    if h.isSound shift then some ({ h with start := h.start + shift }, after.drop (named + extra + commented)) else none

def methodOf (h : Header) : Method :=
  if h.method = 0 then .stored else if h.method = 8 then .deflated else .other h.method

def mode (h : Header) : Option UInt32 :=
  if h.external = 0 then none
  else if h.isUnix then some (h.external >>> 16)
  else if h.isDos then
    let all : UInt32 := if h.external &&& 0x10 = 0x10 then 0o40775 else 0o100664
    some (if h.external &&& 1 = 1 then all &&& 0o555 else all)
  else none

def inflated (h : Header) (data : Bytes) : Except EntryFault Bytes :=
  match h.methodOf with
  | .stored => .ok data
  | .deflated => (Deflate.decode data).mapError fun
    | .corrupt => .corrupt
    | .endOfData => .incomplete
  | .other _ => .error (.unsupported .unknownMethod)

def unpacked (h : Header) (data : Bytes) : Except EntryFault Bytes :=
  if h.flags % 2 = 1 then .error (.unsupported .encrypted)
  else if h.isSealed then .error (.unsupported .closed)
  else
    match h.inflated data with
    | .ok bytes => if Crc32.checksum bytes = h.checksum then .ok bytes else .error .wrongChecksum
    | .error fault => .error fault

def localSignature : Bytes := [0x50, 0x4B, 3, 4]

def localSize : Nat := 30

def data? (h : Header) (file : Array UInt8) : Option Bytes :=
  let bs := Bytes.part file h.start localSize
  if bs.length < localSize || (Text.strip? localSignature bs).isNone then none
  else some (Bytes.part file (h.start + localSize + word bs 26 + word bs 28) h.packedSize)

def entry (h : Header) (file : Array UInt8) : ArchiveEntry :=
  ⟨h.name, ⟨h.methodOf, Timestamp.ofWords? h.date h.time, h.mode⟩,
    (h.data? file).map fun data => ⟨⟨h.checksum, h.size, h.packedSize, data⟩, h.unpacked data⟩⟩

end Header

end Zip

end NamespaceMigration
