import NamespaceMigration.Conversion.Basic
import NamespaceMigration.Glob.Parser

namespace NamespaceMigration

structure ExcludePatterns where
  patterns : List String
  globs : List Glob
  defaults : Bool
  matchPath : Bool
  deriving DecidableEq, Repr

structure InvalidExclude where
  pattern : String
  cause : GlobFault
  deriving DecidableEq, Repr

def InvalidExclude.message (e : InvalidExclude) : String := "invalid exclude pattern `" ++ e.pattern ++ "`"

namespace ExcludePatterns

def defaultPatterns : List String :=
  ["commons-codec-*.jar", "commons-lang-*.jar", "httpclient-*.jar", "httpcore-*.jar", "asm-*.jar",
    "aspectjweaver-*.jar", "bcprov*.jar", "bcpkix*.jar", "closure-compiler-*.jar", "ecj-*.jar",
    "hystrix-core-*.jar", "hystrix-serialization-*.jar", "jackson-annotations-*.jar",
    "jackson-core-*.jar", "jackson-module-afterburner-*.jar", "jul-to-slf4j-*.jar",
    "log4j-to-slf4j-*.jar", "slf4j-api-*.jar", "spring-aop-*.jar", "spring-expression-*.jar",
    "spring-security-crypto-*.jar", "spring-security-rsa-*.jar"]

def defaultGlobs : List Glob := defaultPatterns.filterMap fun p => (Glob.parse p).toOption

def parseGlob (pattern : String) : Except InvalidExclude Glob := (Glob.parse pattern).mapError (⟨pattern, ·⟩)

def ofPatterns (patterns : List String) (defaults matchPath : Bool) : Except InvalidExclude ExcludePatterns := do
  let globs ← patterns.mapM parseGlob
  match globs.findIdx? (Glob.deepest < ·.depth) with
  | some index => .error ⟨",".intercalate patterns, .tooDeep index⟩
  | _ => return ⟨patterns, globs, defaults, matchPath⟩

def standard : ExcludePatterns := ⟨[], [], true, false⟩

def none : ExcludePatterns := ⟨[], [], false, false⟩

def matchesAny (globs : List Glob) (subject : String) : Bool :=
  globs.any (·.matchesBytes (Bytes.utf8 subject))

def skips (e : ExcludePatterns) (path : String) : Bool :=
  (e.defaults && matchesAny defaultGlobs (fileName path)) ||
    matchesAny e.globs (if e.matchPath then path else fileName path)

def identity (e : ExcludePatterns) : String :=
  "defaults=" ++ toString e.defaults ++ ";path=" ++ toString e.matchPath ++ ";" ++ ",".intercalate e.patterns

end ExcludePatterns

end NamespaceMigration
