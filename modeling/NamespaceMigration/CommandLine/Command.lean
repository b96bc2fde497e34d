import NamespaceMigration.CommandLine.Options
import NamespaceMigration.Settings.Basic

/-! The commands: a migration, and the care of a cache directory. -/

namespace NamespaceMigration.CommandLine

inductive CacheAction where
  | stats
  | clear
  | prune
  deriving DecidableEq, Repr

structure MigrationRequest where
  source : String
  destination : String
  profile : Option String
  excludes : List String
  withoutDefaultExcludes : Bool
  matchPath : Bool
  inMemory : Bool
  cacheDir : Option String
  retention : Option Nat
  config : Option String
  logLevel : Option String
  json : Bool
  deriving DecidableEq, Repr

structure CacheRequest where
  action : CacheAction
  dir : Option String
  retention : Nat
  json : Bool
  deriving DecidableEq, Repr

inductive Command where
  | migrate (request : MigrationRequest)
  | cache (request : CacheRequest)
  deriving DecidableEq, Repr

def MigrationRequest.apply (r : MigrationRequest) (s : Settings) : Settings :=
  { s with
    profile := r.profile.getD s.profile
    excludes := s.excludes ++ r.excludes
    defaultExcludes := s.defaultExcludes && !r.withoutDefaultExcludes
    matchPath := s.matchPath || r.matchPath
    inMemory := s.inMemory || r.inMemory
    cache := ⟨(r.cacheDir.map RawText.ofText).or s.cache.dir, r.retention.getD s.cache.retention⟩
    log.level := r.logLevel.getD s.log.level }

namespace Command

def actionNames : List String := ["stats", "clear", "prune"]

def migrationRule : CommandRule where
  options :=
    [⟨"profile", .text, false⟩, ⟨"exclude", .text, true⟩, ⟨"no-default-excludes", .flag, false⟩,
      ⟨"match-excludes-against-path-name", .flag, false⟩, ⟨"zip-in-memory", .flag, false⟩,
      ⟨"cache-dir", .path, false⟩, ⟨"cache-retention-days", .number, false⟩, ⟨"config", .path, false⟩,
      ⟨"log-level", .text, false⟩, ⟨"json", .flag, false⟩]
  positions := 2
  commands := [("cache", actionNames)]
  commandsFirst := true
  versioned := true

def cacheOptions : List OptionRule :=
  [⟨"cache-dir", .path, false⟩, ⟨"retention-days", .number, false⟩, ⟨"json", .flag, false⟩]

def cacheRule : CommandRule := ⟨cacheOptions, 0, actionNames.map (·, []), false, false⟩

def actionRule : CommandRule := ⟨cacheOptions, 0, [], false, false⟩

def actionNamed (name : String) : CacheAction :=
  if name = "stats" then .stats else if name = "clear" then .clear else .prune

/-- An option behind the action goes before the same one in front of it. -/
def parseCache (arguments : List String) : Except Stop CacheRequest := do
  let before ← scan cacheRule arguments
  let some (action, rest) := before.command | .error (.usage .missingCommand)
  let behind ← scan actionRule rest
  let value? (name : String) := (behind.value? name).or (before.value? name)
  return {
    action := actionNamed action
    dir := value? "cache-dir"
    retention := ((value? "retention-days").bind number?).getD Cache.defaultRetention
    json := before.has "json" || behind.has "json" }

def requestOf (s : Scanned) (source destination : String) : MigrationRequest where
  source := source
  destination := destination
  profile := s.value? "profile"
  excludes := s.values "exclude"
  withoutDefaultExcludes := s.has "no-default-excludes"
  matchPath := s.has "match-excludes-against-path-name"
  inMemory := s.has "zip-in-memory"
  cacheDir := s.value? "cache-dir"
  retention := (s.value? "cache-retention-days").bind number?
  config := s.value? "config"
  logLevel := s.value? "log-level"
  json := s.has "json"

def parse (arguments : List String) : Except Stop Command := do
  let s ← scan migrationRule arguments
  match s.command, s.positions with
  | some (_, rest), _ => return .cache (← parseCache rest)
  | none, [source, destination] => return .migrate (requestOf s source destination)
  | none, [] => .error (.usage (.missingArgument "SOURCE"))
  | none, _ => .error (.usage (.missingArgument "DESTINATION"))

end Command

end NamespaceMigration.CommandLine
