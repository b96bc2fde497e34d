import NamespaceMigration.Archive.Migrator

namespace NamespaceMigration.Migrator

abbrev CachedM := EStateM ArchiveFault CacheSession

def settingsKey? (g : Migrator) : Option String :=
  g.registry.fingerprint?.map fun converters =>
    g.profile.identity ++ "|" ++ g.excludes.identity ++ "|" ++ converters

def liftCache {α : Type} (x : CacheM α) : CachedM α := x.adaptExcept .cache

def remember (today : Date) (entry : CacheSlot) (bytes : Bytes) : CachedM Unit :=
  tryCatch (liftCache (entry.store today bytes)) fun _ => pure ()

def fetch (today : Date) (key : String) (source : Bytes) (convert : CachedM Outcome) : CachedM Outcome := do
  let entry ← liftCache (CacheSlot.lookup today (.compute key source))
  if entry.isHit then
    let stored ← liftCache entry.read
    return ⟨stored, stored != source, []⟩
  else
    let outcome ← convert
    remember today entry outcome.bytes
    return outcome

def migrateNestedCached (g : Migrator) (today : Date) : Nat → String → Bytes → CachedM Outcome
  | 0, archive, _ => throw (.tooDeep archive)
  | depth + 1, archive, source =>
    let convert : CachedM Outcome := g.migrateArchiveWith (g.migrateNestedCached today depth) archive source
    match g.settingsKey? with
    | some key => fetch today key source convert
    | none => convert

def migrateArchiveCached (g : Migrator) (today : Date) (archive : String) (source : Bytes) : CachedM Outcome :=
  g.migrateNestedCached today g.depth archive source

def migrateCached (g : Migrator) (today : Date) (name : String) (source : Bytes) : CachedM Outcome :=
  migrateWith (g.migrateArchiveCached today) g name source

def convertCached (g : Migrator) (today : Date) (name : String) (source : Bytes) : CachedM Conversion :=
  convertWith (g.migrateArchiveCached today) g name source

end NamespaceMigration.Migrator
