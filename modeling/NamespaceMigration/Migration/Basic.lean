import NamespaceMigration.Archive.CachedMigrator
import NamespaceMigration.Cache.Workspace
import NamespaceMigration.Files.Walk
import NamespaceMigration.Migration.Report
import NamespaceMigration.Settings.Basic

/-! Migration of a file or of a directory tree. -/

namespace NamespaceMigration

inductive MigrationFault where
  | settings (cause : SettingsFault)
  | excludes (cause : InvalidExclude)
  | sourceUnreadable (path : RawText) (cause : IoFault)
  | createDirectory (path : RawText) (cause : IoFault)
  | io (path : RawText) (cause : IoFault)
  | convert (path : RawText) (cause : ArchiveFault)
  | cache (cause : CacheFault)
  | walk (cause : WalkFault)
  deriving DecidableEq, Repr

def MigrationFault.message : MigrationFault → String
  | settings cause => cause.message
  | excludes _ => "invalid exclude configuration"
  | sourceUnreadable path _ => "cannot read source " ++ path.shown
  | createDirectory path _ => "cannot create directory " ++ path.shown
  | io path _ => path.shown
  | convert path _ => "failed to convert " ++ path.shown
  | cache _ => "failed to open conversion cache"
  | walk _ => "failed to walk source tree"

abbrev MigrationM := EStateM MigrationFault Workspace

structure Migration where
  migrator : Migrator
  source : RawText
  destination : RawText
  cwd : Place
  today : Date

namespace Migration

def onFiles {α : Type} (wrap : IoFault → MigrationFault) (f : FileTree → Except IoFault α) : MigrationM α := do
  match f (← get).files with
  | .ok a => return a
  | .error cause => throw (wrap cause)

def changeFiles (wrap : IoFault → MigrationFault) (f : FileTree → Except IoFault FileTree) : MigrationM Unit := do
  let t ← onFiles wrap f
  modify fun w => { w with files := t }

def putFile (p : Place) (content : Bytes) : MigrationM Unit :=
  modify fun w => { w with files := w.files.fill p content }

def convert (m : Migration) (path : RawText) (name : String) (content : Bytes) : MigrationM Outcome :=
  (Workspace.onCache (m.migrator.migrate name content) (m.migrator.migrateCached m.today name content)).adaptExcept
    (.convert path)

structure Location where
  path : RawText
  target : FileTree → Except IoFault Target
  output : FileTree → Except IoFault Place

namespace Location

def ofPath (cwd : Place) (path : RawText) : Location :=
  ⟨path, fun t => t.locate true cwd path, fun t => t.resolveOutput cwd path⟩

def ofPlace (p : Place) : Location := ⟨Path.ofPlace p, fun t => t.reach true p, fun t => t.reach true p >>= Target.output⟩

def node (l : Location) (t : FileTree) : Except IoFault (Place × Node) := do (← l.target t).node

def content (l : Location) (t : FileTree) : Except IoFault (Place × Bytes) := do
  match ← l.node t with
  | (p, .file content) => return (p, content)
  | _ => .error .isADirectory

end Location

/-- Migrates one file. A destination that is not the source is emptied before the source is read, which is empty
then too if the two are names of one file. -/
def migrateFile (m : Migration) (source destination : Location) : MigrationM Bool := do
  let name := ((Path.fileName? source.path).map RawText.shown).getD ""
  let (place, content) ← onFiles (.io source.path) source.content
  let isSame := match destination.node (← get).files with
    | .ok (p, _) => p == place
    | .error _ => false
  if isSame then
    let o ← m.convert source.path name content
    putFile place o.bytes
    return o.changed
  else
    let target ← onFiles (.io destination.path) destination.output
    putFile target []
    let o ← m.convert source.path name ((← get).files.contentAt place)
    putFile target o.bytes
    return o.changed

/-- A name that is not UTF-8 is kept. -/
def rename (m : Migration) (name : RawText) : RawText :=
  match name.text? with
  | some text => (m.migrator.profile.migrate text).value
  | none => name

def targetPath (m : Migration) (root : Place) (path : List RawText) : RawText :=
  path.foldl (fun base name => Path.join base (m.rename name)) (Path.ofPlace root)

def makeDirectories (m : Migration) (path : RawText) : MigrationM Unit :=
  changeFiles (.createDirectory path) fun t => t.makeDirectoriesAt m.cwd path

def migrateEntry (m : Migration) (source destination : Place) (r : Report) (e : WalkEntry) : MigrationM Report := do
  let target := m.targetPath destination e.path
  if e.isDirectory then
    m.makeDirectories target
    return r
  else return r.count (← m.migrateFile (.ofPlace (source ++ e.path)) (.ofPath m.cwd target))

def selected (source destination : Place) (entries : List WalkEntry) : List WalkEntry :=
  if destination != source && source.isPrefixOf destination then
    entries.filter fun e => !destination.isPrefixOf (source ++ e.path)
  else entries

def migrateTree (m : Migration) (r : Report) : MigrationM Report := do
  let (source, _) ← onFiles (.sourceUnreadable m.source) (·.resolve m.cwd m.source)
  let (destination, _) ← onFiles (.io m.destination) (·.resolve m.cwd m.destination)
  match (← get).files.walkEntries source with
  | .error fault => throw (.walk fault)
  | .ok entries => (selected source destination entries).foldlM (m.migrateEntry source destination) r

def tidyCache (m : Migration) : MigrationM (Option Pruning) := do
  if (← get).isEnabled then
    tryCatch (some <$> (Workspace.prune m.today).adaptExcept .cache) fun _ => return none
  else return none

def perform (m : Migration) : MigrationM Report := do
  let start := Report.start m.source m.destination m.migrator.profile.name
  let (_, node) ← onFiles (.sourceUnreadable m.source) (·.resolve m.cwd m.source)
  let r ←
    if node.isDirectory then do
      m.makeDirectories m.destination
      m.migrateTree start
    else do
      match Path.parent? m.destination with
      | some parent => if !parent.octets.isEmpty then m.makeDirectories parent
      | none => pure ()
      pure (start.count (← m.migrateFile (.ofPath m.cwd m.source) (.ofPath m.cwd m.destination)))
  return { r with cache := ← m.tidyCache }

end Migration

end NamespaceMigration
