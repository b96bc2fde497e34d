import NamespaceMigration.Cache.Layout
import NamespaceMigration.Decimal
import NamespaceMigration.Files.Path

/-! A cache of conversions in a directory that other handles may share. -/

namespace NamespaceMigration

inductive CacheFault where
  | disabled
  | io (cause : IoFault)
  | createDirectory (path : RawText) (cause : IoFault)
  | notADirectory (path : RawText)
  | noPendingStore (hash : CacheKey)
  | missingEntry (hash : CacheKey)
  | commit (hash : CacheKey) (cause : IoFault)
  deriving DecidableEq, Repr

namespace CacheFault

def message : CacheFault → String
  | disabled => "conversion cache is disabled"
  | io cause => "io error: " ++ cause.message
  | createDirectory path _ => "failed to create cache directory " ++ path.shown
  | notADirectory path => "cache path " ++ path.shown ++ " is not a directory"
  | noPendingStore hash => "no store in progress for cache entry " ++ hash.text
  | missingEntry hash => "cache entry " ++ hash.text ++ " does not exist"
  | commit hash _ => "failed to move a store into the cache at " ++ CacheLayout.relativePath hash

def cause? : CacheFault → Option IoFault
  | io cause => some cause
  | createDirectory _ cause => some cause
  | commit _ cause => some cause
  | _ => none

end CacheFault

structure Cache where
  path : RawText
  root : Place
  retention : Nat
  owner : Nat
  temporaries : Nat
  metadata : Metadata
  deriving DecidableEq, Repr

structure CacheSession where
  cache : Cache
  files : FileTree
  deriving DecidableEq, Repr

abbrev CacheM := EStateM CacheFault CacheSession

structure Pruning where
  removed : Nat
  freed : Nat
  retained : Nat
  deriving DecidableEq, Repr

structure CacheSize where
  entries : Nat
  bytes : Nat
  deriving DecidableEq, Repr

/-- The size in units of 2 ^ 20 octets, of whose number 53 bits count. -/
def CacheSize.toText (s : CacheSize) : String :=
  toString s.entries ++ " entries, " ++
    Decimal.tenths (Decimal.roundDiv (10 * Decimal.roundToBits 53 s.bytes) (Nat.pow 2 20)) ++ " MiB"

namespace Cache

def defaultRetention : Nat := 30

def readText (t : FileTree) (p : Place) : Except IoFault String := do
  match Bytes.ofUtf8? (← t.read p) with
  | some text => return text
  | none => .error .invalidText

def lockFile (root : Place) (t : FileTree) : Except IoFault FileTree := do
  let t ← t.makeDirectories root
  if t.isDirectory (CacheLayout.lockPlace root) then .error .isADirectory
  else if t.isFile (CacheLayout.lockPlace root) then return t
  else t.create (CacheLayout.lockPlace root)

def sweep (root : Place) (t : FileTree) : FileTree :=
  (t.names root).foldl (fun t name =>
    if CacheLayout.isTemporary name && t.isFile (root ++ [name]) then t.erase (root ++ [name]) else t) t

def loadMetadata (root : Place) (today : Date) (t : FileTree) : Except IoFault Metadata := do
  let known := match readText t (CacheLayout.metadataPlace root) with
    | .ok text => Metadata.parse text
    | .error _ => .empty
  return (← CacheLayout.objects t root).foldl (fun m h => m.supply h today) known

def openWith (path : RawText) (retention owner : Nat) (today : Date) (cwd : Place) : EStateM CacheFault FileTree Cache := do
  let step (wrap : IoFault → CacheFault) (f : FileTree → Except IoFault FileTree) : EStateM CacheFault FileTree Unit := do
    match f (← get) with
    | .ok t => set t
    | .error fault => throw (wrap fault)
  step (.createDirectory path) fun t => t.makeDirectoriesAt cwd path
  match (← get).resolve cwd path with
  | .ok (root, .directory) => do
    step .io (lockFile root)
    modify (sweep root)
    match loadMetadata root today (← get) with
    | .ok metadata => return ⟨path, root, retention, owner, 0, metadata⟩
    | .error fault => throw (.io fault)
  | _ => throw (.notADirectory path)

def onFiles (wrap : IoFault → CacheFault) (f : FileTree → Except IoFault FileTree) : CacheM Unit := do
  let s ← get
  match f s.files with
  | .ok t => set { s with files := t }
  | .error fault => throw (wrap fault)

def onMetadata (f : Metadata → Metadata) : CacheM Unit :=
  modify fun s => { s with cache.metadata := f s.cache.metadata }

def lock : CacheM Unit := do onFiles .io (lockFile (← get).cache.root)

def freeNumber (t : FileTree) (root : Place) (stem : String) (owner : Nat) : Nat → Nat → Nat
  | 0, n => n
  | fuel + 1, n =>
    if (t.find? (root ++ [.ofText (CacheLayout.temporaryName stem owner n)])).isSome then freeNumber t root stem owner fuel (n + 1)
    else n

def createTemporary (stem : String) : CacheM Place := do
  let s ← get
  let n := freeNumber s.files s.cache.root stem s.cache.owner (s.files.nodes.length + 1) s.cache.temporaries
  let place := s.cache.root ++ [.ofText (CacheLayout.temporaryName stem s.cache.owner n)]
  onFiles .io (·.create place)
  modify fun s => { s with cache.temporaries := n + 1 }
  return place

def discard (place : Place) : CacheM Unit :=
  modify fun s => if s.files.isFile place then { s with files := s.files.erase place } else s

def moveInto (wrap : IoFault → CacheFault) (temporary target : Place) : CacheM Unit := do
  let s ← get
  match s.files.move temporary target with
  | .ok t => set { s with files := t }
  | .error fault => do
    discard temporary
    throw (wrap fault)

def writeMetadata : CacheM Unit := do
  let temporary ← createTemporary Metadata.fileName
  modify fun s => { s with files := s.files.append temporary (Bytes.utf8 s.cache.metadata.toText) }
  moveInto .io temporary (CacheLayout.metadataPlace (← get).cache.root)

def mergeSaved : CacheM Unit := do
  let s ← get
  match readText s.files (CacheLayout.metadataPlace s.cache.root) with
  | .error _ => return
  | .ok text =>
    onMetadata fun m => (Metadata.parse text).entries.foldl (fun m e =>
      if s.files.isFile (CacheLayout.objectPlace s.cache.root e.1) then m.touch e.1 e.2 else m) m

def save : CacheM Unit := do
  lock
  mergeSaved
  writeMetadata

def expired (m : Metadata) (cutoff : Date) : List CacheKey :=
  (m.entries.filter fun e => e.2.isBefore cutoff).map (·.1)

/-- Deletes an object. One that is not there is forgotten, one that cannot be deleted is kept. -/
def pruneObject (report : Pruning) (h : CacheKey) : CacheM Pruning := do
  let s ← get
  let place := CacheLayout.objectPlace s.cache.root h
  match s.files.status place with
  | .ok (.file content) => do
    set { s with files := s.files.erase place }
    onMetadata (·.erase h)
    return { report with removed := report.removed + 1, freed := report.freed + content.length }
  | .ok _ => return report
  | .error .notFound => do
    onMetadata (·.erase h)
    return report
  | .error fault => throw (.io fault)

def prune (day : Date) : CacheM Pruning := do
  lock
  mergeSaved
  let c := (← get).cache
  let report ← (expired c.metadata (day.back c.retention)).foldlM pruneObject ⟨0, 0, 0⟩
  let retained := (← get).cache.metadata.entries.length
  writeMetadata
  return { report with retained := retained }

def sizeAt (t : FileTree) (p : Place) : Nat :=
  match t.find? p with
  | some (.file content) => content.length
  | _ => 0

def stats : CacheM CacheSize := do
  let s ← get
  match CacheLayout.objects s.files s.cache.root with
  | .ok hashes => return ⟨hashes.length, (hashes.map fun h => sizeAt s.files (CacheLayout.objectPlace s.cache.root h)).foldr (· + ·) 0⟩
  | .error fault => throw (.io fault)

def clear : CacheM Unit := do
  lock
  modify fun s => { s with
    files := (s.files.names s.cache.root).foldl (fun t name =>
      if name = .ofText CacheLayout.lockName then t else t.removeAll (s.cache.root ++ [name])) s.files
    cache.metadata := .empty }

end Cache

end NamespaceMigration
