import NamespaceMigration.Migration.Basic
import NamespaceMigration.Zip.Format

/-! Migrations from settings. -/

namespace NamespaceMigration

namespace Settings

def migrator (s : Settings) : Except MigrationFault Migrator := do
  s.validate.mapError .settings
  let profile ← s.findProfile.mapError .settings
  let excludes ← (ExcludePatterns.ofPatterns s.excludes s.defaultExcludes s.matchPath).mapError .excludes
  return { Migrator.forZip profile with excludes := excludes }

def openCache (s : Settings) (cwd : Place) (today : Date) (owner : Nat) (t : FileTree) :
    EStateM.Result CacheFault FileTree (Option Cache) :=
  match s.cache.dir with
  | none => .ok none t
  | some dir => (some <$> Cache.openWith dir s.cache.retention owner today cwd).run t

end Settings

namespace Migration

def run (s : Settings) (source destination : RawText) (cwd : Place) (today : Date) (owner : Nat) (t : FileTree) :
    Except MigrationFault Report × FileTree :=
  match s.migrator with
  | .error fault => (.error fault, t)
  | .ok migrator =>
    match s.openCache cwd today owner t with
    | .error cause t => (.error (.cache cause), t)
    | .ok cache t =>
      match (perform ⟨migrator, source, destination, cwd, today⟩).run ⟨t, cache⟩ with
      | .ok r w => (.ok r, w.files)
      | .error fault w => (.error fault, w.files)

end Migration

end NamespaceMigration
