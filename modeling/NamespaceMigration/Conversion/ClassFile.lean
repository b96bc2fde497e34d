import NamespaceMigration.ClassFile.Protection
import NamespaceMigration.Conversion.Basic
import NamespaceMigration.Profile.Basic

/-! Conversion of class files. -/

namespace NamespaceMigration

abbrev Resolver := String → Bool

namespace Profile

def namedClass? (p : Profile) (fragment : List Char) : Option (List Char × Bool) :=
  match Text.findTail? (p.target.toList ++ ['/']) fragment with
  | some name => some (name, false)
  | none => (Text.findTail? (p.target.toList ++ ['.']) fragment).map (·, true)

def resourcePath (name : List Char) (dotted : Bool) : String :=
  String.ofList ((if dotted then name.map fun c => if c == '.' then '/' else c else name) ++ ".class".toList)

def revert (p : Profile) (dotted : Bool) (fragment : List Char) : List Char :=
  let sep := if dotted then '.' else '/'
  Text.replaceAll (p.target.toList ++ [sep]) (p.source.toList ++ [sep]) fragment

def fragments (s : List Char) : List (List Char) := s.splitOnP fun c => c == ';' || c == '<'

def resources (p : Profile) (proposed : List Char) : List String :=
  (fragments proposed).filterMap fun fragment =>
    (p.namedClass? fragment).map fun (name, dotted) => resourcePath name dotted

def settle (p : Profile) (exists? : Resolver) (result : List Char) (fragment : List Char) : List Char :=
  match p.namedClass? fragment with
  | none => result
  | some (name, dotted) =>
    if exists? (resourcePath name dotted) then result
    else Text.replaceAll fragment (p.revert dotted fragment) result

def migrateResolvable (p : Profile) (exists? : Resolver) (symbol : String) : Option Bytes :=
  let proposed := (p.migrate symbol).value.toList
  let result := (fragments proposed).foldl (p.settle exists?) proposed
  if result = symbol.toList then none else some (ModifiedUtf8.encodeChars result)

end Profile

namespace ClassFile

def isProtected (protection : ProtectedClasses) (raw : Bytes) : Bool :=
  !protection.names.isEmpty &&
    match ModifiedUtf8.decode? raw with
    | some symbol => protection.protects symbol
    | none => false

def migrateConstant (p : Profile) (resolver : Option Resolver) (protection : ProtectedClasses) (raw : Bytes) :
    Option Bytes × List String :=
  let migrated := p.migrateBytes raw
  if !migrated.changed || isProtected protection raw then (none, [])
  else
    match resolver with
    | none => (some migrated.value, [])
    | some exists? =>
      match ModifiedUtf8.decode? raw with
      | none => (none, [])
      | some symbol =>
        (p.migrateResolvable exists? symbol, p.resources (p.migrate symbol).value.toList)

structure PoolMigration where
  pool : ConstantPool
  changed : Bool
  asked : List String
  deriving DecidableEq, Repr

def migrateSlot (p : Profile) (resolver : Option Resolver) (protection : ProtectedClasses) (state : PoolMigration)
    (index : UInt16) : Except ClassFault PoolMigration := do
  let (bytes?, asked) := migrateConstant p resolver protection (← state.pool.utf8Bytes index)
  match bytes? with
  | none => return { state with asked := state.asked ++ asked }
  | some bytes => return ⟨← state.pool.replaceBytes index bytes, true, state.asked ++ asked⟩

def migratePool (p : Profile) (resolver : Option Resolver) (c : ClassFile) : Except ClassFault PoolMigration :=
  c.pool.textSlots.foldlM (migrateSlot p resolver (ProtectedClasses.ofClass c)) ⟨c.pool, false, []⟩

def convertBytes (p : Profile) (resolver : Option Resolver) (source : Bytes) : Except ClassFault Conversion := do
  let c ← parse source
  if p.isTrivial then return .kept
  let result ← migratePool p resolver c
  if result.changed then
    return ⟨some { c with pool := result.pool }.toBytes, true, result.asked⟩
  else return { Conversion.kept with asked := result.asked }

def convert (p : Profile) (resolver : Option Resolver) (path : String) (source : Bytes) :
    Except ConvertFault Conversion :=
  (convertBytes p resolver source).mapError (.classFile path)

end ClassFile

end NamespaceMigration
