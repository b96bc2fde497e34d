import NamespaceMigration.Bytes
import NamespaceMigration.Text.Search

/-! End records of zip archives, and where the directory is that they point at. -/

namespace NamespaceMigration.Zip

def word (bs : Bytes) (pos : Nat) : Nat := Bytes.ofLittle (Bytes.slice bs pos 2)

def doubleWord (bs : Bytes) (pos : Nat) : Nat := Bytes.ofLittle (Bytes.slice bs pos 4)

def quadWord (bs : Bytes) (pos : Nat) : Nat := Bytes.ofLittle (Bytes.slice bs pos 8)

def fullWord : Nat := 0xFFFF

def fullDoubleWord : Nat := 0xFFFFFFFF

def directorySignature : Bytes := [0x50, 0x4B, 1, 2]

def endSignature : Bytes := [0x50, 0x4B, 5, 6]

def wideEndSignature : Bytes := [0x50, 0x4B, 6, 6]

def locatorSignature : Bytes := [0x50, 0x4B, 6, 7]

/-- The places of a signature in a file whose head has the place `pos`, the last one first. -/
def placesFrom (signature : Bytes) : Nat → List Nat → Bytes → List Nat
  | _, found, [] => found
  | pos, found, b :: bs =>
    placesFrom signature (pos + 1) (if (Text.strip? signature (b :: bs)).isSome then pos :: found else found) bs

def placesOf (signature : Bytes) (bs : Bytes) : List Nat := placesFrom signature 0 [] bs

structure EndRecord where
  pos : Nat
  disk : Nat
  directoryDisk : Nat
  count : Nat
  total : Nat
  directory : Nat
  deriving DecidableEq, Repr

def endSize : Nat := 22

def readEnd? (file : Array UInt8) (pos : Nat) : Option EndRecord :=
  let bs := Bytes.part file pos endSize
  if file.size < pos + endSize + word bs 20 then none
  else some ⟨pos, word bs 4, word bs 6, word bs 8, word bs 10, doubleWord bs 16⟩

structure Directory where
  start : Nat
  shift : Nat
  count : Nat
  deriving DecidableEq, Repr

structure Locator where
  pos : Nat
  directoryDisk : Nat
  wideEnd : Nat
  disks : Nat
  deriving DecidableEq, Repr

def locatorSize : Nat := 20

structure WideEnd where
  pos : Nat
  size : Nat
  madeBy : Nat
  needed : Nat
  disk : Nat
  directoryDisk : Nat
  count : Nat
  total : Nat
  directory : Nat
  deriving DecidableEq, Repr

def wideEndSize : Nat := 56

def headerSize : Nat := 46

def readWideEnd (file : Array UInt8) (pos : Nat) : WideEnd :=
  let bs := Bytes.part file pos wideEndSize
  ⟨pos, quadWord bs 4, word bs 12, word bs 14, doubleWord bs 16, doubleWord bs 20, quadWord bs 24, quadWord bs 32,
    quadWord bs 48⟩

namespace WideEnd

def fits (w : WideEnd) (l : Locator) : Bool :=
  44 ≤ w.size && w.pos + w.size + 12 == l.pos && w.directoryDisk == l.directoryDisk &&
    headerSize * w.total + w.directory ≤ w.pos

def directory? (w : WideEnd) (l : Locator) : Option Directory :=
  let shift := w.pos - l.wideEnd
  if w.count ≤ w.total ∧ w.needed ≤ w.madeBy ∧ w.disk = w.directoryDisk then some ⟨w.directory + shift, shift, w.total⟩
  else none

end WideEnd

namespace EndRecord

def locator? (r : EndRecord) (file : Array UInt8) : Option Locator :=
  let pos := r.pos - locatorSize
  let bs := Bytes.part file pos locatorSize
  if (r.total = fullWord ∨ r.directory = fullDoubleWord) ∧ locatorSize ≤ r.pos ∧
      (Text.strip? locatorSignature bs).isSome then
    some ⟨pos, doubleWord bs 4, quadWord bs 8, doubleWord bs 16⟩
  else none

def wideDirectory? (file : Array UInt8) (places : List Nat) (l : Locator) : Option Directory :=
  if l.pos ≤ l.wideEnd ∨ 1 < l.disks then none
  else do
    let ends := (places.filter fun pos => l.wideEnd ≤ pos && pos < l.pos).map (readWideEnd file)
    (← ends.find? (·.fits l)).directory? l

def narrowDirectory? (r : EndRecord) (headers : List Nat) : Option Directory :=
  if r.disk ≠ r.directoryDisk then none
  else if r.total = 0 then some ⟨max r.pos r.directory, r.pos - r.directory, r.count⟩
  else if r.pos ≤ r.directory then none
  else (headers.find? fun pos => r.directory ≤ pos && pos < r.pos).map fun pos => ⟨pos, pos - r.directory, r.count⟩

def directory? (r : EndRecord) (file : Array UInt8) (headers wideEnds : List Nat) : Option Directory :=
  match r.locator? file with
  | some l => wideDirectory? file wideEnds l
  | none => r.narrowDirectory? headers

end EndRecord

def directories (file : Array UInt8) (bs : Bytes) : List Directory :=
  let headers := (placesOf directorySignature bs).reverse
  let wideEnds := (placesOf wideEndSignature bs).reverse
  (placesOf endSignature bs).filterMap fun pos => do (← readEnd? file pos).directory? file headers wideEnds

end NamespaceMigration.Zip
