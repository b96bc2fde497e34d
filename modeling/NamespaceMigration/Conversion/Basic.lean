import NamespaceMigration.ClassFile.Fault
import NamespaceMigration.Manifest.Basic
import NamespaceMigration.Text.Search

/-! Results of converting one file's content. -/

namespace NamespaceMigration

structure Conversion where
  replacement : Option Bytes
  changed : Bool
  asked : List String
  deriving DecidableEq, Repr

namespace Conversion

def kept : Conversion := ⟨none, false, []⟩

def replaced (bytes : Bytes) (changed : Bool) : Conversion := ⟨some bytes, changed, []⟩

def isReplaced (c : Conversion) : Bool := c.replacement.isSome

def bytes (c : Conversion) (source : Bytes) : Bytes := c.replacement.getD source

end Conversion

inductive ConvertFault where
  | classFile (path : String) (cause : ClassFault)
  | manifest (path : String) (cause : ManifestFault)
  deriving DecidableEq, Repr

def ConvertFault.message : ConvertFault → String
  | classFile path _ => path ++ ": not a valid class file"
  | manifest path _ => path ++ ": not a valid manifest"

def fileName (path : String) : String :=
  String.ofList (Text.afterLast (fun c => c == '/' || c == '\\') path.toList)

def extension (path : String) : String :=
  let name := (fileName path).toList
  if name.contains '.' then String.ofList ((Text.afterLast (· == '.') name).map Char.toLower) else ""

end NamespaceMigration
