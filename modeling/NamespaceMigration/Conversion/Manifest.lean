import NamespaceMigration.Conversion.Basic
import NamespaceMigration.Manifest.PackageHeader
import NamespaceMigration.Manifest.Parser
import NamespaceMigration.Manifest.Printer
import NamespaceMigration.Profile.Basic

namespace NamespaceMigration

def toolVersion : String := "0.1.0"

namespace Manifest

def fileName : String := "META-INF/MANIFEST.MF"

/-- Marks the implementation version. This alone is not a change to report. -/
def markVersion (s : Section) : Section :=
  s.update "Implementation-Version" (· ++ "-" ++ toolVersion)

def updateValue (p : Profile) (name value : String) : String :=
  let moved := p.migrate value
  if moved.changed then
    match PackageHeader.ofName? name with
    | some header => header.updateVersions moved.value
    | none => moved.value
  else value

def updateSection (p : Profile) (s : Section) : Section := (markVersion s).mapValues (updateValue p)

def migratesAny (p : Profile) (s : Section) : Bool :=
  (markVersion s).attributes.any fun a => (p.migrate a.2).changed

def isDigestName (name : String) : Bool :=
  (Text.strip? "-digest".toList.reverse (Text.lower name).toList.reverse).isSome

def hasDigest (s : Section) : Bool := s.attributes.any fun a => isDigestName a.1

def unsignMain (s : Section) : Section :=
  (s.erase "Signature-Version").keep fun name _ => !isDigestName name

def unsign (m : Manifest) : Manifest := ⟨unsignMain m.main, m.entries.filter fun s => !hasDigest s⟩

def isSigned (m : Manifest) : Bool :=
  (m.main.get? "Signature-Version").isSome || m.sections.any hasDigest

def updated (p : Profile) (m : Manifest) : Manifest :=
  ⟨updateSection p m.main, m.entries.map (updateSection p)⟩

def migrated (p : Profile) (m : Manifest) : Manifest := unsign (updated p m)

def convertBytes (p : Profile) (source : Bytes) : Except ManifestFault Conversion := do
  if p.isTrivial then return .kept
  let m ← parse source
  if migrated p m = m then return .kept
  else return .replaced (migrated p m).toBytes (m.sections.any (migratesAny p) || isSigned m)

def convert (p : Profile) (path : String) (source : Bytes) : Except ConvertFault Conversion :=
  (convertBytes p source).mapError (.manifest path)

end Manifest

end NamespaceMigration
