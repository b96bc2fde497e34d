import NamespaceMigration.Archive.Basic
import NamespaceMigration.Archive.ExcludePatterns
import NamespaceMigration.Cache.Slot
import NamespaceMigration.Conversion.Converter

/-! Every entry of an archive is dropped, copied, migrated as an archive of its own or converted. -/

namespace NamespaceMigration

inductive ArchiveFault where
  | invalidArchive (archive : String) (flaw : ArchiveFlaw)
  | unreadable (cause : EntryFault)
  | convert (cause : ConvertFault)
  | cache (cause : CacheFault)
  | tooDeep (archive : String)
  deriving DecidableEq, Repr

structure Outcome where
  bytes : Bytes
  changed : Bool
  asked : List String
  deriving DecidableEq, Repr

def Outcome.conversion (o : Outcome) : Conversion := ⟨if o.changed then some o.bytes else none, o.changed, o.asked⟩

structure Migrator where
  format : ArchiveFormat
  profile : Profile
  registry : Registry
  excludes : ExcludePatterns
  depth : Nat

namespace Migrator

inductive Treatment where
  | dropped
  | copied
  | nested
  | converted
  deriving DecidableEq, Repr

def treatment (g : Migrator) (entry : ArchiveEntry) : Treatment :=
  if !g.profile.isTrivial && isSignatureName entry.name then .dropped
  else if entry.isDirectory || g.excludes.skips entry.name then .copied
  else if isArchiveName entry.name then .nested
  else .converted

def freshAttributes (a : Attributes) : Attributes :=
  { a with method := if a.method = .stored then .stored else .deflated }

structure Draft where
  written : List OutputEntry
  changed : Bool
  asked : List String

namespace Draft

def empty : Draft := ⟨[], false, []⟩

def note (d : Draft) (changed : Bool) (asked : List String) : Draft :=
  { d with changed := d.changed || changed, asked := d.asked ++ asked }

def isTaken (d : Draft) (name : String) : Bool := d.written.any (·.name == name)

end Draft

def convertEntry (g : Migrator) (entry : ArchiveEntry) (content : Bytes) : Except ArchiveFault Conversion :=
  (g.registry.convert g.profile entry.name content).mapError .convert

section Loop

variable {m : Type → Type} [Monad m] [MonadExceptOf ArchiveFault m]

def unpack (archive : String) (body : EntryBody) : m Bytes :=
  match body.content with
  | .ok content => pure content
  | .error (.unsupported cause) => throw (.invalidArchive archive (.unsupported cause))
  | .error cause => throw (.unreadable cause)

def convertKept (g : Migrator) (nested : String → Bytes → m Outcome) (archive : String) (entry : ArchiveEntry)
    (body : EntryBody) : m Conversion := do
  match g.treatment entry with
  | .nested => return (← nested entry.name (← unpack archive body)).conversion
  | .converted =>
    match g.convertEntry entry (← unpack archive body) with
    | .ok c => return c
    | .error fault => throw fault
  | _ => return .kept

def output (name : String) (a : Attributes) (packed : Packed) (c : Conversion) : OutputEntry :=
  match c.replacement with
  | some bytes => .fresh name (freshAttributes a) bytes
  | none => .copied name a packed

def addEntry (g : Migrator) (nested : String → Bytes → m Outcome) (archive : String) (d : Draft)
    (entry : ArchiveEntry) : m Draft := do
  let some body := entry.body | throw (.invalidArchive archive .malformed)
  if g.treatment entry = .dropped then return d.note true []
  let c ← g.convertKept nested archive entry body
  let renamed := g.profile.migrate entry.name
  if d.isTaken renamed.value then throw (.invalidArchive archive .repeatedName)
  let d := d.note (renamed.changed || c.changed) c.asked
  return { d with written := output renamed.value entry.attributes body.packed c :: d.written }

def migrateArchiveWith (g : Migrator) (nested : String → Bytes → m Outcome) (archive : String) (source : Bytes) :
    m Outcome := do
  let some entries := g.format.list source | throw (.invalidArchive archive .malformed)
  let d ← entries.foldlM (g.addEntry nested archive) .empty
  if d.changed then return ⟨g.format.write d.written.reverse, true, d.asked⟩
  else return ⟨source, false, d.asked⟩

end Loop

def migrateNested (g : Migrator) : Nat → String → Bytes → Except ArchiveFault Outcome
  | 0, archive, _ => .error (.tooDeep archive)
  | depth + 1, archive, source => g.migrateArchiveWith (g.migrateNested depth) archive source

def migrateArchive (g : Migrator) (archive : String) (source : Bytes) : Except ArchiveFault Outcome :=
  g.migrateNested g.depth archive source

def migrateWith {m : Type → Type} [Monad m] [MonadExceptOf ArchiveFault m]
    (archives : String → Bytes → m Outcome) (g : Migrator) (name : String) (source : Bytes) : m Outcome :=
  if g.excludes.skips name then return ⟨source, false, []⟩
  else if isArchiveName name then archives name source
  else
    match g.registry.convert g.profile name source with
    | .ok c => return ⟨c.bytes source, c.changed, c.asked⟩
    | .error fault => throw (.convert fault)

def migrate (g : Migrator) (name : String) (source : Bytes) : Except ArchiveFault Outcome :=
  g.migrateWith g.migrateArchive name source

def convertWith {m : Type → Type} [Monad m] [MonadExceptOf ArchiveFault m]
    (archives : String → Bytes → m Outcome) (g : Migrator) (name : String) (source : Bytes) : m Conversion := do
  if g.excludes.skips name then return .kept
  else if isArchiveName name then return (← archives name source).conversion
  else
    match g.registry.convert g.profile name source with
    | .ok c => return c
    | .error fault => throw (.convert fault)

def convert (g : Migrator) (name : String) (source : Bytes) : Except ArchiveFault Conversion :=
  g.convertWith g.migrateArchive name source

end Migrator

end NamespaceMigration
