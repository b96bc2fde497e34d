import NamespaceMigration.Deflate.CodeLengths
import NamespaceMigration.Deflate.Matcher

/-! Encoding of deflate streams. -/

namespace NamespaceMigration.Deflate

abbrev Bits := List Bool

namespace Bits

def ofNat : Nat → Nat → Bits
  | 0, _ => []
  | width + 1, n => (n % 2 == 1) :: ofNat width (n / 2)

def ofBytes (bs : Bytes) : Bits := bs.flatMap fun (b : UInt8) => ofNat 8 b.toNat

def value : Bits → Nat
  | [] => 0
  | bit :: bits => bit.toNat + 2 * value bits

def toBytes : Bits → Bytes
  | a :: b :: c :: d :: e :: f :: g :: h :: bits => UInt8.ofNat (value [a, b, c, d, e, f, g, h]) :: toBytes bits
  | [] => []
  | bits => [UInt8.ofNat (value bits)]

def padding (n : Nat) : Bits := List.replicate ((8 - n % 8) % 8) false

end Bits

structure Words where
  literals : Array Bits
  distances : Array Bits

namespace Words

def longest : Nat := 15

def ofLengths (literals distances : List Nat) : Words :=
  ⟨(CodeLengths.canonicalWords longest literals).toArray, (CodeLengths.canonicalWords longest distances).toArray⟩

def fixed : Words := ofLengths fixedLiteralLengths fixedDistanceLengths

def coded (words : Array Bits) (c : Coded) : Bits := words.getD c.symbol [] ++ Bits.ofNat c.width c.extra

def item (w : Words) : Item → Bits
  | .literal b => w.literals.getD b.toNat []
  | .endOfBlock => w.literals.getD 256 []
  | .copy length distance => coded w.literals (lengthSymbol length) ++ coded w.distances (distanceSymbol distance)

def items (w : Words) (is : List Item) : Bits := is.flatMap w.item ++ w.item .endOfBlock

end Words

def literalSymbol : Item → Nat
  | .literal b => b.toNat
  | .copy length _ => (lengthSymbol length).symbol
  | .endOfBlock => 256

def distanceSymbol? : Item → Option Nat
  | .copy _ distance => some (distanceSymbol distance).symbol
  | _ => none

def tally (size : Nat) (symbols : List Nat) : List Nat :=
  (symbols.foldl (fun counts symbol => counts.modify symbol (· + 1)) (Array.replicate size 0)).toList

def trimTo (size : Nat) (lengths : List Nat) : List Nat :=
  lengths.take size ++ ((lengths.drop size).reverse.dropWhile (· == 0)).reverse

def zeros (n : Nat) : List Coded :=
  if n < 3 then List.replicate n ⟨0, 0, 0⟩ else if n ≤ 10 then [⟨17, 3, n - 3⟩] else [⟨18, 7, n - 11⟩]

def repeats (length n : Nat) : List Coded :=
  if n < 3 then List.replicate n ⟨length, 0, 0⟩ else [⟨16, 2, n - 3⟩]

def parts (size n : Nat) : List Nat := List.replicate (n / size) size ++ [n % size]

def run : List Nat → List Coded
  | [] => []
  | 0 :: rest => (parts 138 (rest.length + 1)).flatMap zeros
  | length :: rest => ⟨length, 0, 0⟩ :: (parts 6 rest.length).flatMap (repeats length)

def runs (lengths : List Nat) : List Coded := (lengths.splitBy (· == ·)).flatMap run

def codesHeader (literals distances : List Nat) : Bits :=
  let written := runs (literals ++ distances)
  let lengths := CodeLengths.ofFrequencies 7 (tally 19 (written.map (·.symbol)))
  let words := (CodeLengths.canonicalWords 7 lengths).toArray
  let ordered := trimTo 4 (lengthOrder.map fun symbol => lengths.getD symbol 0)
  Bits.ofNat 5 (literals.length - 257) ++ Bits.ofNat 5 (distances.length - 1) ++
    Bits.ofNat 4 (ordered.length - 4) ++ ordered.flatMap (Bits.ofNat 3) ++ written.flatMap (Words.coded words)

def fixedBlock (items : List Item) : Bits := Bits.ofNat 2 1 ++ Words.fixed.items items

def dynamicBlock (items : List Item) : Bits :=
  let literals := CodeLengths.ofFrequencies 15 (tally 288 ((items ++ [Item.endOfBlock]).map literalSymbol))
  let distances := CodeLengths.ofFrequencies 15 (tally 32 (items.filterMap distanceSymbol?))
  Bits.ofNat 2 2 ++ codesHeader (trimTo 257 (literals.take 286)) (trimTo 1 (distances.take 30)) ++
    (Words.ofLengths literals distances).items items

def storedBlock (offset : Nat) (data : Bytes) : Bits :=
  Bits.ofNat 2 0 ++ Bits.padding (offset + 2) ++ Bits.ofNat 16 data.length ++ Bits.ofNat 16 (0xFFFF - data.length) ++
    Bits.ofBytes data

structure Block where
  items : List Item
  data : Bytes
  deriving DecidableEq, Repr

def Block.bits (offset : Nat) (last : Bool) (b : Block) : Bits :=
  let size := b.data.length
  let body := if size < 48 then fixedBlock b.items else dynamicBlock b.items
  let octets := (offset + 1 + body.length) / 8 - (offset + 1) / 8
  let grows := 32 < size && size ≤ octets + 1 && size ≤ Matcher.window
  last :: (if grows then storedBlock (offset + 1) b.data else body)

/-- The items collected for a block: their room in memory is what ends a block. -/
structure Draft where
  items : List Item
  size : Nat
  room : Nat

namespace Draft

def empty : Draft := ⟨[], 0, 0⟩

def push (d : Draft) (item : Item) : Draft :=
  ⟨item :: d.items, d.size + item.size, d.room + (match item with
    | .literal _ => 1
    | _ => 3)⟩

def isFull (d : Draft) : Bool :=
  let room := 1 + d.room + d.items.length / 8
  0xFFF8 < room || (31 * 1024 < d.size && d.size ≤ room * 115 / 128)

def block (d : Draft) (data : Bytes) : Block := ⟨d.items.reverse, data.take d.size⟩

end Draft

def blocks (d : Draft) (data : Bytes) : List (List Item) → List Block
  | [] => [d.block data]
  | group :: groups =>
    let d := group.foldl Draft.push d
    if d.isFull then d.block data :: blocks .empty (data.drop d.size) groups else blocks d data groups

def blockBits (offset : Nat) : List Block → Bits
  | [] => []
  | [b] => b.bits offset true
  | b :: bs =>
    let bits := b.bits offset false
    bits ++ blockBits ((offset + bits.length) % 8) bs

def encode (data : Bytes) : Bytes :=
  (blockBits 0 (blocks .empty data (itemGroups data.toArray))).toBytes

end NamespaceMigration.Deflate
