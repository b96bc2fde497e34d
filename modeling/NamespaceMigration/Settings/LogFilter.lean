import NamespaceMigration.Settings.Basic
import NamespaceMigration.Settings.LogDirective

/-! Log filters: directives of the settings and of the environment. -/

namespace NamespaceMigration

structure LogFilter where
  statics : List LogDirective
  dynamics : List LogDirective
  deriving DecidableEq, Repr

namespace LogFilter

def ofLevel (level : LogLevel) : LogFilter := ⟨[⟨none, none, none, level⟩], []⟩

def ofDirectives (ds : List LogDirective) : LogFilter :=
  let dynamics := ds.filter (·.isDynamic)
  ⟨LogDirective.ordered (ds.filter (!·.isDynamic) ++ dynamics.filterMap (·.static?)), LogDirective.ordered dynamics⟩

def parse? (text : String) : Option LogFilter := do
  let parts := (text.toList.splitOnP (· == ',')).filter (!·.isEmpty)
  return ofDirectives (← parts.mapM LogDirective.parse?)

def toText (f : LogFilter) : String := ",".intercalate ((f.statics ++ f.dynamics).map (·.toText))

end LogFilter

namespace LogSettings

def levelNames : List (String × String) := ("warning", "warn") :: LogLevel.all.map fun l => (l.name, l.name)

def directives (s : LogSettings) : String :=
  let text := Text.trim s.level
  if text.isEmpty then Settings.defaultLog.level else (levelNames.lookup (Text.lower text)).getD text

def ownFilter (s : LogSettings) : LogFilter := (LogFilter.parse? s.directives).getD (.ofLevel .info)

def filter (s : LogSettings) (environment : Option String) : LogFilter :=
  let added := (environment.map Text.trim).getD ""
  if added.isEmpty then s.ownFilter
  else
    match LogFilter.parse? (s.directives ++ "," ++ added) with
    | some f => f
    | none => (LogFilter.parse? added).getD s.ownFilter

end LogSettings

end NamespaceMigration
