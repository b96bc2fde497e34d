import NamespaceMigration.Cache.Basic

/-! Entries of a cache: the result of one lookup. -/

namespace NamespaceMigration

structure CacheSlot where
  hash : CacheKey
  isHit : Bool
  pending : Option Place
  deriving DecidableEq, Repr

namespace CacheSlot

def lookup (today : Date) (h : CacheKey) : CacheM CacheSlot := do
  let s ← get
  if s.files.isFile (CacheLayout.objectPlace s.cache.root h) then
    Cache.onMetadata (·.touch h today)
    return ⟨h, true, none⟩
  else return ⟨h, false, none⟩

def place (e : CacheSlot) : CacheM Place := return CacheLayout.objectPlace (← get).cache.root e.hash

def lift {α : Type} (r : Except IoFault α) : CacheM α :=
  match r with
  | .ok a => pure a
  | .error fault => throw (.io fault)

def size (e : CacheSlot) : CacheM Nat := do
  let p ← e.place
  match ← lift ((← get).files.status p) with
  | .file content => return content.length
  | _ => return 0

def find (e : CacheSlot) : CacheM Node := do
  if e.isHit then
    let p ← e.place
    lift ((← get).files.status p)
  else throw (.missingEntry e.hash)

def read (e : CacheSlot) : CacheM Bytes := do
  match ← e.find with
  | .file content => return content
  | _ => throw (.io .isADirectory)

def unstage (e : CacheSlot) : CacheM Unit :=
  match e.pending with
  | some temporary => Cache.discard temporary
  | none => return

def stage (e : CacheSlot) : CacheM CacheSlot := do
  e.unstage
  return { e with pending := some (← Cache.createTemporary e.hash.text) }

def write (e : CacheSlot) (content : Bytes) : CacheM Unit :=
  match e.pending with
  | some temporary => modify fun s => { s with files := s.files.append temporary content }
  | none => return

def publish (today : Date) (e : CacheSlot) : CacheM Unit := do
  match e.pending with
  | none => throw (.noPendingStore e.hash)
  | some temporary => do
    let root := (← get).cache.root
    match (← get).files.makeDirectories (CacheLayout.shardPlace root e.hash) with
    | .error fault => do
      Cache.discard temporary
      throw (.commit e.hash fault)
    | .ok files => do
      modify fun s => { s with files := files }
      Cache.moveInto (.commit e.hash) temporary (CacheLayout.objectPlace root e.hash)
      Cache.onMetadata (·.touch e.hash today)

def store (today : Date) (e : CacheSlot) (content : Bytes) : CacheM Unit := do
  let e ← e.stage
  e.write content
  e.publish today

end CacheSlot

end NamespaceMigration
