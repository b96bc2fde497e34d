import NamespaceMigration.Profile.Basic
import NamespaceMigration.Text.Basic

namespace NamespaceMigration

/-- Annotation classes that moved. The rest of their package belongs to another specification. -/
def annotationClasses : List String :=
  ["Generated", "ManagedBean", "PostConstruct", "PreDestroy", "Priority", "Resource", "Resources",
    "security.DeclareRoles", "security.DenyAll", "security.PermitAll", "security.RolesAllowed",
    "security.RunAs", "sql.DataSourceDefinition"]

inductive BuiltIn where
  | tomcat
  | ee
  | jee8
  deriving DecidableEq, Repr

namespace BuiltIn

def all : List BuiltIn := [.tomcat, .ee, .jee8]

def name : BuiltIn → String
  | .tomcat => "TOMCAT"
  | .ee => "EE"
  | .jee8 => "JEE8"

def movedAnnotations : Rule := .onlyLeaves "annotation" annotationClasses

def transactionRule : Rule := (Rule.whole "transaction").except "xa"

def containerRules : List Rule :=
  [movedAnnotations, .whole "ejb", .whole "el", .whole "mail", .whole "persistence",
    .whole "security.auth.message", .whole "servlet", transactionRule, .whole "websocket"]

def platformRules : List Rule :=
  [.whole "activation", movedAnnotations, .whole "batch", .whole "decorator", .whole "ejb", .whole "el",
    .whole "enterprise", .whole "faces", .whole "jms", .whole "json", .whole "jws",
    .whole "interceptor", .whole "inject", .whole "mail", .whole "management.j2ee",
    .whole "persistence", .whole "resource", .whole "security.auth.message",
    .whole "security.enterprise", .whole "security.jacc", .whole "servlet", transactionRule,
    .whole "validation", .whole "websocket", .whole "ws.rs", .whole "xml.bind", .whole "xml.soap",
    .whole "xml.ws"]

def tomcatProfile : Profile := ⟨"TOMCAT", "javax", "jakarta", containerRules⟩

def eeProfile : Profile := ⟨"EE", "javax", "jakarta", platformRules⟩

def profile : BuiltIn → Profile
  | .tomcat => tomcatProfile
  | .ee => eeProfile
  | .jee8 => eeProfile.reversedAs "JEE8"

def ofName? (s : String) : Option BuiltIn :=
  all.find? (fun b => Text.sameLetters b.name (Text.trim s))

end BuiltIn

structure UnknownProfile where
  name : String
  deriving DecidableEq, Repr

def UnknownProfile.message (e : UnknownProfile) : String :=
  "unknown profile `" ++ e.name ++ "` (expected one of: TOMCAT, EE, JEE8)"

def Profile.named (s : String) : Except UnknownProfile Profile :=
  match BuiltIn.ofName? s with
  | some b => .ok b.profile
  | none => .error ⟨s⟩

end NamespaceMigration
