import NamespaceMigration.Conversion.Basic
import NamespaceMigration.Date

/-! Archives as lists of named entries, and formats in which they are listed and written. -/

namespace NamespaceMigration

structure Timestamp where
  date : Date
  hour : Nat
  minute : Nat
  second : Nat
  deriving DecidableEq, Repr

namespace Timestamp

def earliest : Timestamp := ⟨⟨1980, 1, 1⟩, 0, 0, 0⟩

/-- A leap second counts as the last step of its minute. -/
def ofWords? (date time : UInt16) : Option Timestamp :=
  let d := date.toNat
  let t := time.toNat
  let day : Date := ⟨1980 + (d / 512 : Nat), d / 32 % 16, d % 32⟩
  if day.isValid && t / 2048 ≤ 23 && t / 32 % 64 ≤ 59 && t % 32 ≤ 30 then
    some ⟨day, t / 2048, t / 32 % 64, min (2 * (t % 32)) 58⟩
  else none

def dateWord (t : Timestamp) : UInt16 :=
  UInt16.ofNat ((t.date.year - 1980).toNat * 512 + t.date.month * 32 + t.date.day)

def timeWord (t : Timestamp) : UInt16 := UInt16.ofNat (t.hour * 2048 + t.minute * 32 + t.second / 2)

end Timestamp

inductive Method where
  | stored
  | deflated
  | other (code : UInt16)
  deriving DecidableEq, Repr

structure Attributes where
  method : Method
  modified : Option Timestamp
  mode : Option UInt32
  deriving DecidableEq, Repr

inductive Unsupported where
  | encrypted
  | closed
  | unknownMethod
  deriving DecidableEq, Repr

inductive EntryFault where
  | unsupported (cause : Unsupported)
  | wrongChecksum
  | corrupt
  | incomplete
  deriving DecidableEq, Repr

structure Packed where
  checksum : UInt32
  size : Nat
  packedSize : Nat
  data : Bytes
  deriving DecidableEq, Repr

structure EntryBody where
  packed : Packed
  content : Except EntryFault Bytes

inductive ArchiveFlaw where
  | malformed
  | repeatedName
  | unsupported (cause : Unsupported)
  deriving DecidableEq, Repr

structure ArchiveEntry where
  name : String
  attributes : Attributes
  body : Option EntryBody

namespace ArchiveEntry

def content? (e : ArchiveEntry) : Option Bytes := e.body.bind (·.content.toOption)

def isDirectory (e : ArchiveEntry) : Bool :=
  match e.name.toList.getLast? with
  | some c => c == '/' || c == '\\'
  | none => false

end ArchiveEntry

inductive OutputEntry where
  | copied (name : String) (attributes : Attributes) (packed : Packed)
  | fresh (name : String) (attributes : Attributes) (content : Bytes)

namespace OutputEntry

def name : OutputEntry → String
  | copied name _ _ => name
  | fresh name _ _ => name

end OutputEntry

structure ArchiveFormat where
  list : Bytes → Option (List ArchiveEntry)
  write : List OutputEntry → Bytes

def archiveExtensions : List String := ["jar", "war", "ear", "zip", "rar"]

def isArchiveName (name : String) : Bool := archiveExtensions.contains (extension name)

def signatureSuffixes : List String := [".SF", ".RSA", ".DSA", ".EC"]

/-- Signature files and blocks become invalid with any change. -/
def isSignatureName (name : String) : Bool :=
  (Text.strip? "META-INF/".toList name.toList).isSome &&
    signatureSuffixes.any fun suffix => (Text.strip? suffix.toList.reverse name.toList.reverse).isSome

end NamespaceMigration
