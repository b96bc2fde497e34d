import NamespaceMigration.Archive.Migrator
import NamespaceMigration.Deflate.Encoder
import NamespaceMigration.Zip.Header

/-! Zip archives, listed and written as the `zip` library does it. -/

namespace NamespaceMigration

namespace Zip

def readHeaders? (shift : Nat) : Nat → Bytes → Option (List Header)
  | 0, _ => some []
  | count + 1, bs => do
    let (h, rest) ← Header.read? shift bs
    return h :: (← readHeaders? shift count rest)

def place (entries : List ArchiveEntry) (e : ArchiveEntry) : List ArchiveEntry :=
  if entries.any (·.name == e.name) then entries.map fun old => if old.name == e.name then e else old
  else entries ++ [e]

def listFrom? (file : Array UInt8) (bs : Bytes) (d : Directory) : Option (List ArchiveEntry) := do
  let headers ← readHeaders? d.shift d.count (bs.drop d.start)
  return (headers.map fun h => h.entry file).foldl place []

def list (bs : Bytes) : Option (List ArchiveEntry) :=
  let file := bs.toArray
  (directories file bs).findSome? (listFrom? file bs)

structure Written where
  name : String
  method : UInt16
  modified : Timestamp
  mode : UInt32
  packed : Packed
  deriving DecidableEq, Repr

namespace Written

def methodCode : Method → UInt16
  | .stored => 0
  | .deflated => 8
  | .other code => code

def permissions (a : Attributes) : UInt32 := a.mode.getD 0o644 &&& 0o777

def pack (method : Method) (content : Bytes) : Packed :=
  let data := match method with
    | .deflated => Deflate.encode content
    | _ => content
  ⟨Crc32.checksum content, content.length, data.length, data⟩

def ofParts (name : String) (a : Attributes) (packed : Packed) : Written :=
  ⟨name, methodCode a.method, a.modified.getD .earliest, permissions a, packed⟩

def ofOutput : OutputEntry → Written
  | .copied name a packed => ofParts name a packed
  | .fresh name a content => ofParts name a (pack a.method content)

def nameBytes (w : Written) : Bytes := Bytes.utf8 w.name

def isLarge (w : Written) : Bool := fullDoubleWord < max w.packed.packedSize w.packed.size

def version (w : Written) : Nat := if w.isLarge then 45 else if w.method = 8 then 20 else 10

def extra (w : Written) : Bytes :=
  let sizes := [w.packed.size, w.packed.packedSize].filter fun n => w.isLarge || fullDoubleWord ≤ n
  if sizes.isEmpty then []
  else Bytes.little 2 1 ++ Bytes.little 2 (8 * sizes.length) ++ sizes.flatMap (Bytes.little 8)

def flags (w : Written) : Nat := if w.nameBytes.all (· < 128) then 0 else 2048

def fields (w : Written) (written : Nat → Nat) : Bytes :=
  Bytes.little 2 w.version ++ Bytes.little 2 w.flags ++ Bytes.little 2 w.method.toNat ++
    Bytes.little 2 w.modified.timeWord.toNat ++ Bytes.little 2 w.modified.dateWord.toNat ++
    Bytes.little 4 w.packed.checksum.toNat ++ Bytes.little 4 (written w.packed.packedSize) ++
    Bytes.little 4 (written w.packed.size) ++ Bytes.little 2 w.nameBytes.length ++ Bytes.little 2 w.extra.length

def localPart (w : Written) : Bytes :=
  Header.localSignature ++ w.fields (fun n => if w.isLarge then fullDoubleWord else min n fullDoubleWord) ++ w.nameBytes ++
    w.extra ++ w.packed.data

def directoryPart (w : Written) (start : Nat) : Bytes :=
  directorySignature ++ [UInt8.ofNat w.version, 3] ++ w.fields (fun n => min n fullDoubleWord) ++ Bytes.little 6 0 ++
    Bytes.little 4 ((w.mode ||| 0o100000) <<< 16).toNat ++ Bytes.little 4 start ++ w.nameBytes ++ w.extra

end Written

def directoryFrom : Nat → List Written → Bytes
  | _, [] => []
  | start, w :: ws => w.directoryPart start ++ directoryFrom (start + w.localPart.length) ws

def endPart (count size start : Nat) : Bytes :=
  endSignature ++ Bytes.little 4 0 ++ Bytes.little 2 count ++ Bytes.little 2 count ++ Bytes.little 4 size ++
    Bytes.little 4 start ++ Bytes.little 2 0

def assemble (ws : List Written) : Bytes :=
  let body := ws.flatMap Written.localPart
  let directory := directoryFrom 0 ws
  body ++ directory ++ endPart ws.length directory.length body.length

def write (entries : List OutputEntry) : Bytes := assemble (entries.map Written.ofOutput)

def format : ArchiveFormat := ⟨list, write⟩

end Zip

def Migrator.forZip (p : Profile) : Migrator := ⟨Zip.format, p, .builtIn, .standard, 1000⟩

end NamespaceMigration
