import NamespaceMigration.Archive.Basic

/-! Archives as lists of names and contents, for building and reading small ones. -/

namespace NamespaceMigration

structure PlainEntry where
  name : String
  content : Bytes
  isStored : Bool
  deriving DecidableEq, Repr

namespace PlainEntry

def plainAttributes (isStored : Bool) : Attributes :=
  ⟨if isStored then .stored else .deflated, none, none⟩

def directoryName (name : String) : String :=
  let stem := (name.toList.reverse.dropWhile (· == '/')).reverse
  String.ofList (if stem.getLast? = some '\\' then stem else stem ++ ['/'])

def output (e : PlainEntry) : OutputEntry :=
  if e.name.toList.getLast? = some '/' then .fresh (directoryName e.name) (plainAttributes true) []
  else .fresh e.name (plainAttributes e.isStored) e.content

def ofEntry? (e : ArchiveEntry) : Option PlainEntry :=
  e.content?.map fun content => ⟨e.name, content, e.attributes.method == .stored⟩

end PlainEntry

namespace ArchiveFormat

def build (f : ArchiveFormat) (entries : List PlainEntry) : Bytes := f.write (entries.map PlainEntry.output)

def readAll? (f : ArchiveFormat) (archive : Bytes) : Option (List PlainEntry) := do
  (← f.list archive).mapM PlainEntry.ofEntry?

def readEntry? (f : ArchiveFormat) (archive : Bytes) (name : String) : Option Bytes := do
  return (← (← f.readAll? archive).find? (·.name == name)).content

end ArchiveFormat

end NamespaceMigration
