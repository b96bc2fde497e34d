import NamespaceMigration.CommandLine.Command
import NamespaceMigration.CommandLine.Explanation
import NamespaceMigration.Migration.Start
import NamespaceMigration.Settings.Reader

namespace NamespaceMigration.CommandLine

structure Output where
  code : Nat
  stdout : String
  stderr : String
  deriving DecidableEq, Repr

inductive Result where
  | migrated (report : Report) (json : Bool)
  | done (text : String)
  | failed (texts : List String)
  | misused (fault : UsageFault)
  deriving DecidableEq, Repr

def programName : String := "jakartify"

def helpText : String :=
  "Usage: " ++ programName ++ " [OPTIONS] <SOURCE> <DESTINATION>\n       " ++ programName ++ " cache <COMMAND>"

namespace Result

def withElapsed (milliseconds : Nat) : Result → Result
  | migrated report json => migrated { report with elapsed := milliseconds } json
  | r => r

def output : Result → Output
  | migrated report false => ⟨0, report.toText ++ "\n", ""⟩
  | migrated report true =>
    match report.toJson? with
    | some json => ⟨0, json.toText ++ "\n", ""⟩
    | none => ⟨2, "", Explanation.line ["path contains invalid UTF-8 characters"]⟩
  | done text => ⟨0, text ++ "\n", ""⟩
  | failed texts => ⟨2, "", Explanation.line texts⟩
  | misused fault => ⟨2, "", "error: " ++ fault.message ++ "\n\n" ++ helpText ++ "\n"⟩

end Result

structure Circumstances where
  cwd : Place
  today : Date
  owner : Nat
  deriving DecidableEq, Repr

def openLog (c : Circumstances) (l : LogSettings) (t : FileTree) : FileTree :=
  match l.file with
  | none => t
  | some path =>
    match t.resolveOutput c.cwd path >>= t.create with
    | .ok t => t
    | .error _ => t

def settingsOf (c : Circumstances) (r : MigrationRequest) (t : FileTree) : Except SettingsFault Settings := do
  let s ← match r.config with
    | some path => Settings.load t c.cwd path
    | none => .ok .default
  return r.apply s

def migrate (c : Circumstances) (r : MigrationRequest) (t : FileTree) : Result × FileTree :=
  match settingsOf c r t with
  | .error fault => (.failed (Explanation.ofSettings fault), t)
  | .ok s =>
    match Migration.run s r.source r.destination c.cwd c.today c.owner (openLog c s.log t) with
    | (.ok report, t) => (.migrated report r.json, t)
    | (.error fault, t) => (.failed (Explanation.ofMigration fault), t)

def statsText (dir : String) (json : Bool) (s : CacheSize) : String :=
  if json then
    (JsonValue.object [("dir", .text dir), ("entries", .number s.entries), ("total_bytes", .number s.bytes)]).toText
  else
    "cache: " ++ dir ++ "\n  entries: " ++ toString s.entries ++ "\n  bytes: " ++ toString s.bytes

def clearText (dir : String) (json : Bool) : String :=
  if json then (JsonValue.object [("ok", .boolean true)]).toText else "cache: cleared " ++ dir

def pruneText (json : Bool) (p : Pruning) : String :=
  if json then
    (JsonValue.object [("freed_bytes", .number p.freed), ("removed", .number p.removed),
      ("retained", .number p.retained)]).toText
  else
    "cache: pruned " ++ toString p.removed ++ " entries (" ++ toString p.freed ++ " bytes), retained " ++
      toString p.retained

def act (c : Circumstances) (r : CacheRequest) (dir : String) : CacheM String :=
  match r.action with
  | .stats => statsText dir r.json <$> Cache.stats
  | .clear => (fun _ => clearText dir r.json) <$> Cache.clear
  | .prune => pruneText r.json <$> Cache.prune c.today

def maintain (c : Circumstances) (r : CacheRequest) (t : FileTree) : Result × FileTree :=
  match r.dir with
  | none => (.failed ["`--cache-dir` is required"], t)
  | some dir =>
    match (Cache.openWith dir r.retention c.owner c.today c.cwd).run t with
    | .error fault t => (.failed (("failed to open cache " ++ dir) :: Explanation.ofCache fault), t)
    | .ok cache t =>
      match (act c r dir).run ⟨cache, t⟩ with
      | .ok text s => (.done text, s.files)
      | .error fault s => (.failed (Explanation.ofCache fault), s.files)

def run (c : Circumstances) (arguments : List String) (t : FileTree) : Result × FileTree :=
  match Command.parse arguments with
  | .ok (.migrate r) => migrate c r t
  | .ok (.cache r) => maintain c r t
  | .error .version => (.done (programName ++ " " ++ toolVersion), t)
  | .error .help => (.done helpText, t)
  | .error (.usage fault) => (.misused fault, t)

def configPaths (arguments : List String) : List RawText :=
  match Command.parse arguments with
  | .ok (.migrate r) => (r.config.map RawText.ofText).toList
  | _ => []

def touchedPaths (c : Circumstances) (arguments : List String) (t : FileTree) : List RawText :=
  match Command.parse arguments with
  | .ok (.migrate r) =>
    match settingsOf c r t with
    | .ok s => [.ofText r.source, .ofText r.destination] ++ s.cache.dir.toList ++ s.log.file.toList
    | .error _ => []
  | .ok (.cache r) => (r.dir.map RawText.ofText).toList
  | .error _ => []

end NamespaceMigration.CommandLine
