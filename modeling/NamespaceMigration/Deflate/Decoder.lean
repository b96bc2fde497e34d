import NamespaceMigration.Deflate.Item

/-! Decoding of deflate streams. -/

namespace NamespaceMigration.Deflate

structure BitSource where
  held : Nat
  count : Nat
  rest : Bytes
  deriving DecidableEq, Repr

inductive Halt where
  | endOfData
  | corrupt
  deriving DecidableEq, Repr

namespace BitSource

def ofBytes (bs : Bytes) : BitSource := ⟨0, 0, bs⟩

def next (s : BitSource) : Except Halt (Nat × BitSource) :=
  match s.count, s.rest with
  | count + 1, rest => .ok (s.held % 2, ⟨s.held / 2, count, rest⟩)
  | 0, b :: rest => .ok (b.toNat % 2, ⟨b.toNat / 2, 7, rest⟩)
  | 0, [] => .error .endOfData

def take : Nat → BitSource → Except Halt (Nat × BitSource)
  | 0, s => .ok (0, s)
  | width + 1, s => do
    let (bit, s) ← s.next
    let (high, s) ← take width s
    return (bit + 2 * high, s)

end BitSource

structure Code where
  counts : List Nat
  symbols : Array Nat
  deriving DecidableEq, Repr

namespace Code

def longest : Nat := 15

def symbolsOf (lengths : List Nat) (n : Nat) : List Nat :=
  (lengths.zipIdx.filter fun (length, _) => length == n).map (·.2)

def widths : List Nat := (List.range longest).map (· + 1)

def ofLengths (lengths : List Nat) : Code :=
  ⟨widths.map fun n => lengths.count n, (widths.flatMap (symbolsOf lengths)).toArray⟩

def filled (width : Nat) (counts : List Nat) : Nat :=
  (counts.zipIdx.map fun (count, i) => count * Nat.pow 2 (width - (i + 1))).foldr (· + ·) 0

def isComplete (c : Code) : Bool := filled longest c.counts == Nat.pow 2 longest

/-- A code of no symbol, or of one with a word of one bit, may leave words open. -/
def isValid (c : Code) : Bool := c.isComplete || c.symbols.isEmpty || (c.symbols.size == 1 && c.counts.head? == some 1)

def decodeFrom (symbols : Array Nat) : List Nat → Nat → Nat → Nat → BitSource → Except Halt (Nat × BitSource)
  | [], _, _, _, _ => .error .corrupt
  | count :: counts, word, first, index, s => do
    let (bit, s) ← s.next
    let word := word + bit
    if word < first + count then
      match symbols[index + (word - first)]? with
      | some symbol => return (symbol, s)
      | none => .error .corrupt
    else if symbols.size ≤ index + count then .error .corrupt
    else decodeFrom symbols counts (2 * word) (2 * (first + count)) (index + count) s

def decode (c : Code) (s : BitSource) : Except Halt (Nat × BitSource) := decodeFrom c.symbols c.counts 0 0 0 s

def fixedLiterals : Code := ofLengths fixedLiteralLengths

def fixedDistances : Code := ofLengths fixedDistanceLengths

end Code

def takeInRange (ranges : List (Nat × Nat)) (symbol : Nat) (s : BitSource) : Except Halt (Nat × BitSource) :=
  match ranges[symbol]? with
  | none => .error .corrupt
  | some (first, width) => do
    let (extra, s) ← s.take width
    return (first + extra, s)

def readItem (literals distances : Code) (s : BitSource) : Except Halt (Item × BitSource) := do
  let (symbol, s) ← literals.decode s
  if symbol < 256 then return (.literal (UInt8.ofNat symbol), s)
  else if symbol = 256 then return (.endOfBlock, s)
  else
    let (length, s) ← takeInRange lengthRanges (symbol - 257) s
    let (symbol, s) ← distances.decode s
    let (distance, s) ← takeInRange distanceRanges symbol s
    return (.copy length distance, s)

def copyBack (distance : Nat) : Nat → Array UInt8 → Array UInt8
  | 0, out => out
  | length + 1, out =>
    copyBack distance length (out.push (if distance ≤ out.size then out.getD (out.size - distance) 0 else 0))

structure Progress where
  output : Array UInt8
  next : Except Halt BitSource

def decodeItems (literals distances : Code) : Nat → BitSource → Array UInt8 → Progress
  | 0, _, out => ⟨out, .error .endOfData⟩
  | fuel + 1, s, out =>
    match readItem literals distances s with
    | .error h => ⟨out, .error h⟩
    | .ok (.literal b, s) => decodeItems literals distances fuel s (out.push b)
    | .ok (.copy length distance, s) => decodeItems literals distances fuel s (copyBack distance length out)
    | .ok (.endOfBlock, s) => ⟨out, .ok s⟩

def decodeStored (s : BitSource) (out : Array UInt8) : Progress :=
  match s.rest with
  | a :: b :: c :: d :: rest =>
    let length := Bytes.ofLittle [a, b]
    if length + Bytes.ofLittle [c, d] ≠ 0xFFFF then ⟨out, .error .corrupt⟩
    else
      let part := rest.take length
      ⟨out.appendList part, if part.length < length then .error .endOfData else .ok (.ofBytes (rest.drop length))⟩
  | _ => ⟨out, .error .endOfData⟩

def takeLengths : Nat → BitSource → Except Halt (List Nat × BitSource)
  | 0, s => .ok ([], s)
  | n + 1, s => do
    let (length, s) ← s.take 3
    let (lengths, s) ← takeLengths n s
    return (length :: lengths, s)

def readLengths (code : Code) (total : Nat) : Nat → List Nat → BitSource → Except Halt (List Nat × BitSource)
  | 0, _, _ => .error .endOfData
  | fuel + 1, lengths, s => do
    if lengths.length = total then return (lengths.reverse, s)
    else if total < lengths.length then .error .corrupt
    else
      let (symbol, s) ← code.decode s
      match symbol, lengths with
      | 16, [] => .error .corrupt
      | 16, last :: _ => do
        let (n, s) ← s.take 2
        readLengths code total fuel (List.replicate (n + 3) last ++ lengths) s
      | 17, _ => do
        let (n, s) ← s.take 3
        readLengths code total fuel (List.replicate (n + 3) 0 ++ lengths) s
      | 18, _ => do
        let (n, s) ← s.take 7
        readLengths code total fuel (List.replicate (n + 11) 0 ++ lengths) s
      | length, _ => readLengths code total fuel (length :: lengths) s

def checked (isValid : Code → Bool) (code : Code) : Except Halt Code :=
  if isValid code then .ok code else .error .corrupt

def readCodes (s : BitSource) : Except Halt (Code × Code × BitSource) := do
  let (literals, s) ← s.take 5
  let (distances, s) ← s.take 5
  let (written, s) ← s.take 4
  if 286 < literals + 257 ∨ 30 < distances + 1 then .error .corrupt
  else
    let (lengths, s) ← takeLengths (written + 4) s
    let ordered := (List.range 19).map fun symbol =>
      ((lengthOrder.zip lengths).find? fun (other, _) => other == symbol).elim 0 (·.2)
    let code ← checked (·.isComplete) (.ofLengths ordered)
    let total := literals + 257 + (distances + 1)
    let (all, s) ← readLengths code total (total + 1) [] s
    return (← checked (·.isValid) (.ofLengths (all.take (literals + 257))),
      ← checked (·.isValid) (.ofLengths (all.drop (literals + 257))), s)

def decodeBlock (fuel : Nat) (kind : Nat) (s : BitSource) (out : Array UInt8) : Progress :=
  match kind with
  | 0 => decodeStored s out
  | 1 => decodeItems .fixedLiterals .fixedDistances fuel s out
  | 2 => match readCodes s with
    | .ok (literals, distances, s) => decodeItems literals distances fuel s out
    | .error h => ⟨out, .error h⟩
  | _ => ⟨out, .error .corrupt⟩

def readHeader (s : BitSource) : Except Halt (Bool × Nat × BitSource) := do
  let (last, s) ← s.next
  let (kind, s) ← s.take 2
  return (last == 1, kind, s)

def decodeBlocks (limit : Nat) : Nat → BitSource → Array UInt8 → Progress
  | 0, _, out => ⟨out, .error .endOfData⟩
  | fuel + 1, s, out =>
    match readHeader s with
    | .error h => ⟨out, .error h⟩
    | .ok (last, kind, s) =>
      let p := decodeBlock limit kind s out
      match p.next with
      | .ok s => if last then p else decodeBlocks limit fuel s p.output
      | .error _ => p

def decode (bs : Bytes) : Except Halt Bytes :=
  let bits := 8 * bs.length + 1
  let p := decodeBlocks bits bits (.ofBytes bs) #[]
  match p.next with
  | .ok _ => .ok p.output.toList
  | .error h => .error h

end NamespaceMigration.Deflate
