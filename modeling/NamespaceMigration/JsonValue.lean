import NamespaceMigration.Bytes

/-! JSON values with their fields in order, printed over several lines. -/

namespace NamespaceMigration

inductive JsonValue where
  | boolean (b : Bool)
  | number (n : Nat)
  | text (s : String)
  | object (fields : List (String × JsonValue))

namespace JsonValue

def shortEscapes : List (Char × Char) :=
  [('"', '"'), ('\\', '\\'), ('\x08', 'b'), ('\x0c', 'f'), ('\n', 'n'), ('\r', 'r'), ('\t', 't')]

def escapeChar (c : Char) : List Char :=
  match shortEscapes.lookup c with
  | some e => ['\\', e]
  | none => if c < ' ' then ("\\u00" ++ Bytes.toHex [UInt8.ofNat c.toNat]).toList else [c]

def quoted (s : String) : String := "\"" ++ String.ofList (s.toList.flatMap escapeChar) ++ "\""

mutual

def print (indent : String) : JsonValue → String
  | boolean b => toString b
  | number n => toString n
  | text s => quoted s
  | object fields =>
    let lines := printFields (indent ++ "  ") fields
    if lines.isEmpty then "\x7b\x7d" else "\x7b\n" ++ ",\n".intercalate lines ++ "\n" ++ indent ++ "\x7d"

def printFields (indent : String) : List (String × JsonValue) → List String
  | [] => []
  | (name, v) :: fields => (indent ++ quoted name ++ ": " ++ print indent v) :: printFields indent fields

end

def toText (j : JsonValue) : String := print "" j

end JsonValue

end NamespaceMigration
