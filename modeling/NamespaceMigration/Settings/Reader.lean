import NamespaceMigration.Files.Path
import NamespaceMigration.Settings.Basic
import NamespaceMigration.Toml.Parser

/-! Reading of settings from TOML. -/

namespace NamespaceMigration

namespace Toml.Value

def kind : Value → String
  | string s => "string " ++ Text.quoted s
  | integer n => "integer `" ++ toString n ++ "`"
  | float x => "floating point `" ++ x.toText ++ "`"
  | boolean b => "boolean `" ++ toString b ++ "`"
  | datetime => "map"
  | table _ _ => "map"
  | array _ => "sequence"
  | tables _ => "sequence"

def wrongType {α : Type} (v : Value) (expected : String) : Except DecodeFault α :=
  .error (.wrongType v.kind expected)

def toText (expected : String) : Value → Except DecodeFault String
  | string s => .ok s
  | v => v.wrongType expected

def toBool : Value → Except DecodeFault Bool
  | boolean b => .ok b
  | v => v.wrongType "a boolean"

def toWord : Value → Except DecodeFault Nat
  | integer n => if 0 ≤ n ∧ n < Nat.pow 2 32 then .ok n.toNat else .error (.outOfRange n)
  | v => v.wrongType "u32"

def items? : Value → Option (List Value)
  | array items => some items
  | tables items => some (items.map (table .header))
  | _ => none

def toTexts (v : Value) : Except DecodeFault (List String) :=
  match v.items? with
  | some items => items.mapM (toText "a string")
  | none => v.wrongType "a sequence"

end Toml.Value

namespace Settings

open Toml (Value)

abbrev Fields (α : Type) := List (String × (Value → α → Except DecodeFault α))

namespace Fields

variable {α : Type}

def names (fields : Fields α) : List String := fields.map (·.1)

def readEntry (fields : Fields α) (a : α) (name : String) (v : Value) : Except DecodeFault α :=
  match fields.lookup name with
  | some read => read v a
  | none => .error (.unknownField name fields.names)

def readTable (fields : Fields α) (entries : Toml.Entries) (a : α) : Except DecodeFault α :=
  entries.foldlM (fun a (name, v) => fields.readEntry a name v) a

def readItems (fields : Fields α) (items : List Value) (a : α) : Except DecodeFault α :=
  (fields.zip items).foldlM (fun a ((_, read), v) => read v a) a

def timeField : String := "$__toml_private_datetime"

def read (fields : Fields α) (what : String) (v : Value) (a : α) : Except DecodeFault α :=
  match v with
  | .table _ entries => fields.readTable entries a
  | .datetime => .error (.unknownField timeField fields.names)
  | v => match v.items? with
    | some items => fields.readItems items a
    | none => v.wrongType what

end Fields

def cacheFields : Fields CacheSettings :=
  [("dir", fun v c => do return { c with dir := some (.ofText (← v.toText "path string")) }),
    ("retention_days", fun v c => do return { c with retention := ← v.toWord })]

def logFields : Fields LogSettings :=
  [("level", fun v l => do return { l with level := ← v.toText "a string" }),
    ("json", fun v l => do return { l with json := ← v.toBool }),
    ("stderr", fun v l => do return { l with stderr := ← v.toBool }),
    ("file", fun v l => do return { l with file := some (.ofText (← v.toText "path string")) })]

def fields : Fields Settings :=
  [("profile", fun v s => do return { s with profile := ← v.toText "a string" }),
    ("excludes", fun v s => do return { s with excludes := ← v.toTexts }),
    ("enable_default_excludes", fun v s => do return { s with defaultExcludes := ← v.toBool }),
    ("match_excludes_against_path_name", fun v s => do return { s with matchPath := ← v.toBool }),
    ("zip_in_memory", fun v s => do return { s with inMemory := ← v.toBool }),
    ("cache", fun v s => do return { s with cache := ← cacheFields.read "struct CacheConfig" v defaultCache }),
    ("logging", fun v s => do return { s with log := ← logFields.read "struct LoggingConfig" v defaultLog })]

def parse (text : String) : Except SettingsFault Settings :=
  match Toml.parse? text with
  | none => .error .malformed
  | some entries => (fields.readTable entries default).mapError .undecodable

def under (s : Settings) (base : RawText) : Settings :=
  { s with
    cache.dir := s.cache.dir.map (Path.join base)
    log.file := s.log.file.map (Path.join base) }

def load (t : FileTree) (cwd : Place) (path : RawText) : Except SettingsFault Settings := do
  let content ← (do
    let (p, _) ← t.resolve cwd path
    let content ← t.read p
    match Bytes.ofUtf8? content with
    | some text => return text
    | none => .error .invalidText : Except IoFault String).mapError (.unreadable path)
  let s ← parse content
  return match Path.parent? path with
    | some base => s.under base
    | none => s

end Settings

end NamespaceMigration
