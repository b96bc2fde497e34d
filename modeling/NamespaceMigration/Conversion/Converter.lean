import NamespaceMigration.Conversion.ClassFile
import NamespaceMigration.Conversion.Manifest

/-! Converters and their registry: the first converter that accepts a path converts the file. -/

namespace NamespaceMigration

def textExtensions : List String :=
  ["java", "jsp", "jspf", "jspx", "tag", "tagf", "tagx", "tld", "txt", "xml", "json", "properties",
    "groovy", "html", "vm", "ftl", "sql", "yaml", "yml", "xhtml", "jsf", "faces"]

inductive Converter where
  | text
  | classFile (resolver : Option Resolver)
  | manifest
  | passThrough

namespace Converter

def name : Converter → String
  | text => "text"
  | classFile _ => "class"
  | manifest => "manifest"
  | passThrough => "pass-through"

def isManifestPath (path : String) : Bool :=
  path == Manifest.fileName ||
    (Text.strip? ('/' :: Manifest.fileName.toList).reverse path.toList.reverse).isSome

def accepts : Converter → String → Bool
  | text, path => textExtensions.contains (extension path)
  | classFile _, path => extension path == "class"
  | manifest, path => isManifestPath path
  | passThrough, _ => true

def convertText (p : Profile) (source : Bytes) : Conversion :=
  let moved := p.migrateBytes source
  if moved.changed then .replaced moved.value true else .kept

def convert (c : Converter) (p : Profile) (path : String) (source : Bytes) : Except ConvertFault Conversion :=
  match c with
  | text => .ok (convertText p source)
  | classFile resolver => ClassFile.convert p resolver path source
  | manifest => Manifest.convert p path source
  | passThrough => .ok .kept

def fingerprint? : Converter → Option String
  | classFile (some _) => none
  | c => some c.name

end Converter

structure Registry where
  converters : List Converter

namespace Registry

def withResolver (resolver : Option Resolver) : Registry :=
  ⟨[.text, .classFile resolver, .manifest, .passThrough]⟩

def builtIn : Registry := withResolver none

def find (r : Registry) (path : String) : Converter :=
  (r.converters.find? (·.accepts path)).getD .passThrough

def convert (r : Registry) (p : Profile) (path : String) (source : Bytes) : Except ConvertFault Conversion :=
  (r.find path).convert p path source

def fingerprint? (r : Registry) : Option String :=
  (r.converters.mapM Converter.fingerprint?).map (String.intercalate ",")

end Registry

end NamespaceMigration
