import NamespaceMigration.Archive.ExcludePatterns
import NamespaceMigration.Cache.Basic
import NamespaceMigration.Profile.BuiltIn

/-! Settings of a migration, of its cache and of its log. -/

namespace NamespaceMigration

structure CacheSettings where
  dir : Option RawText
  retention : Nat
  deriving DecidableEq, Repr

structure LogSettings where
  level : String
  json : Bool
  stderr : Bool
  file : Option RawText
  deriving DecidableEq, Repr

structure Settings where
  profile : String
  excludes : List String
  defaultExcludes : Bool
  matchPath : Bool
  inMemory : Bool
  cache : CacheSettings
  log : LogSettings
  deriving DecidableEq, Repr

inductive DecodeFault where
  | unknownField (name : String) (expected : List String)
  | wrongType (found expected : String)
  | outOfRange (n : Int)
  deriving DecidableEq, Repr

inductive SettingsFault where
  | unreadable (path : RawText) (cause : IoFault)
  | malformed
  | undecodable (cause : DecodeFault)
  | unknownProfile (cause : UnknownProfile)
  | invalidExclude (cause : InvalidExclude)
  deriving DecidableEq, Repr

namespace DecodeFault

def ticked (s : String) : String := "`" ++ s ++ "`"

def expectation : List String → String
  | [] => "there are no fields"
  | [a] => "expected " ++ ticked a
  | [a, b] => "expected " ++ ticked a ++ " or " ++ ticked b
  | names => "expected one of " ++ ", ".intercalate (names.map ticked)

def message : DecodeFault → String
  | unknownField name expected => "unknown field " ++ ticked name ++ ", " ++ expectation expected
  | wrongType found expected => "invalid type: " ++ found ++ ", expected " ++ expected
  | outOfRange n => "invalid value: integer " ++ ticked (toString n) ++ ", expected u32"

end DecodeFault

def SettingsFault.message : SettingsFault → String
  | unreadable path _ => "failed to read config file " ++ path.shown
  | malformed => "failed to parse toml config"
  | undecodable cause => "failed to parse toml config: " ++ cause.message
  | unknownProfile cause => cause.message
  | invalidExclude cause => cause.message

namespace Settings

def defaultProfile : BuiltIn := .tomcat

def defaultCache : CacheSettings := ⟨none, Cache.defaultRetention⟩

def defaultLog : LogSettings := ⟨"info", false, true, none⟩

def default : Settings := ⟨defaultProfile.name, [], true, false, false, defaultCache, defaultLog⟩

def findProfile (s : Settings) : Except SettingsFault Profile :=
  (Profile.named s.profile).mapError .unknownProfile

def validate (s : Settings) : Except SettingsFault Unit := do
  let _ ← s.findProfile
  let _ ← (s.excludes.mapM ExcludePatterns.parseGlob).mapError .invalidExclude

end Settings

end NamespaceMigration
