import NamespaceMigration.Text.Basic
import NamespaceMigration.Text.Search

/-! Package lists in bundle headers: clauses between commas, each with parts between semicolons, where quoted text is
not split. -/

namespace NamespaceMigration

inductive PackageHeader where
  | exportPackage
  | importPackage
  deriving DecidableEq, Repr

namespace PackageHeader

def ofName? (name : String) : Option PackageHeader :=
  if Text.sameLetters name "Export-Package" then some exportPackage
  else if Text.sameLetters name "Import-Package" then some importPackage
  else none

/-- The versions of the servlet packages under their new name: one to export, a range to import. -/
def version : PackageHeader → List Char
  | exportPackage => "5.0.0".toList
  | importPackage => "[5.0.0,7.0.0)".toList

def servletPackage : List Char := "jakarta.servlet".toList

def versionStart : List Char := ";version=\"".toList

def splitFrom (sep : Char) (quoted : Bool) (acc : List Char) : List Char → Option (List (List Char))
  | [] => if quoted then none else some [acc.reverse]
  | c :: s =>
    if c == '"' then splitFrom sep (!quoted) (c :: acc) s
    else if c == sep && !quoted then (splitFrom sep false [] s).map (acc.reverse :: ·)
    else splitFrom sep quoted (c :: acc) s

def splitOutsideQuotes? (sep : Char) (s : List Char) : Option (List (List Char)) := splitFrom sep false [] s

inductive Part where
  | package (raw : List Char)
  | setting (key value : List Char)
  deriving DecidableEq, Repr

namespace Part

def ofText (raw : List Char) : Part :=
  match Text.splitFirst? (· == '=') raw with
  | some (key, value) => setting key value
  | none => package raw

def trimColons (s : List Char) : List Char := (s.reverse.dropWhile (· == ':')).reverse

def keyName (key : List Char) : List Char := trimColons (Text.trimChars key)

/-- Whether the key is `version` and does not end in a colon, as that of a directive does. -/
def isVersionKey (key : List Char) : Bool :=
  keyName key == "version".toList && key.getLast? != some ':'

def isServlet : Part → Bool
  | package raw => (Text.strip? servletPackage (Text.trimChars raw)).isSome
  | setting _ _ => false

def isSetting : Part → Bool
  | package _ => false
  | setting _ _ => true

def isValid : Part → Bool
  | package raw => !(Text.trimChars raw).isEmpty
  | setting key _ => !(keyName key).isEmpty

def write : Part → List Char
  | package raw => raw
  | setting key value => key ++ '=' :: value

def withVersion (version : List Char) : Part → Part
  | package raw => package raw
  | setting key value =>
    if isVersionKey key then setting key ('"' :: version ++ ['"']) else setting key value

end Part

def isClause (parts : List Part) : Bool :=
  parts.all Part.isValid && !(parts.takeWhile (fun p => !p.isSetting)).isEmpty &&
    (parts.dropWhile (fun p => !p.isSetting)).all Part.isSetting

def updateClause (header : PackageHeader) (clause : List Char) : Option (List Char) := do
  let parts := (← splitOutsideQuotes? ';' clause).map Part.ofText
  if isClause parts then
    let updated := if parts.any Part.isServlet then parts.map (Part.withVersion header.version) else parts
    some ([';'].intercalate (updated.map Part.write))
  else none

def updateClauses (header : PackageHeader) (s : List Char) : Option (List Char) := do
  let clauses ← (← splitOutsideQuotes? ',' s).mapM header.updateClause
  some ([','].intercalate clauses)

def versionedPackage? (s : List Char) : Option (List Char × List Char) := do
  let rest ← Text.strip? servletPackage s
  let inner := rest.takeWhile (fun c => c != ',' && c != ';')
  let quoted ← Text.strip? versionStart (rest.dropWhile (fun c => c != ',' && c != ';'))
  let (old, _) ← Text.splitFirst? (· == '"') quoted
  some (servletPackage ++ inner ++ versionStart, old)

/-- The leftmost matches of an expression for a servlet package with a quoted version, as the `regex` library finds
them, get another version. -/
def replaceVersions (header : PackageHeader) : Nat → List Char → List Char
  | _, [] => []
  | skip + 1, _ :: s => replaceVersions header skip s
  | 0, c :: s =>
    match versionedPackage? (c :: s) with
    | some (package, old) =>
      package ++ header.version ++ '"' :: replaceVersions header (package.length + old.length) s
    | none => c :: replaceVersions header 0 s

def updateVersions (header : PackageHeader) (value : String) : String :=
  let s := value.toList
  if Text.contains servletPackage s then
    String.ofList ((header.updateClauses s).getD (header.replaceVersions 0 s))
  else value

end PackageHeader

end NamespaceMigration
