import NamespaceMigration.Cache.Basic
import NamespaceMigration.JsonValue

/-! The report of a migration, as text and as JSON. -/

namespace NamespaceMigration

structure Report where
  source : RawText
  destination : RawText
  profile : String
  files : Nat
  convertedFiles : Nat
  elapsed : Nat
  cache : Option Pruning
  deriving DecidableEq, Repr

namespace Report

def start (source destination : RawText) (profile : String) : Report := ⟨source, destination, profile, 0, 0, 0, none⟩

def count (r : Report) (converted : Bool) : Report :=
  { r with files := r.files + 1, convertedFiles := r.convertedFiles + converted.toNat }

def converted (r : Report) : Bool := 0 < r.convertedFiles

def cacheLine (p : Pruning) : String :=
  "  cache: pruned " ++ toString p.removed ++ " (" ++ toString p.freed ++ " bytes), retained " ++ toString p.retained

def toText (r : Report) : String :=
  "\n".intercalate (
    ["converted: " ++ toString r.converted, "  profile: " ++ r.profile, "  files: " ++ toString r.files,
      "  converted_files: " ++ toString r.convertedFiles, "  elapsed_ms: " ++ toString r.elapsed] ++
      (r.cache.map cacheLine).toList)

def cacheJson (p : Pruning) : JsonValue :=
  .object [("pruned", .number p.removed), ("freed_bytes", .number p.freed), ("retained", .number p.retained)]

def toJson? (r : Report) : Option JsonValue := do
  let source ← r.source.text?
  let destination ← r.destination.text?
  return .object (
    [("source", .text source), ("destination", .text destination), ("profile", .text r.profile),
      ("converted", .boolean r.converted), ("files", .number r.files), ("converted_files", .number r.convertedFiles),
      ("elapsed_ms", .number r.elapsed)] ++ (r.cache.map fun p => ("cache", cacheJson p)).toList)

end Report

end NamespaceMigration
