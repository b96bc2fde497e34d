import NamespaceMigration.Cache.Slot

/-! Files with a cache or without one. -/

namespace NamespaceMigration

structure Workspace where
  files : FileTree
  cache : Option Cache
  deriving DecidableEq, Repr

namespace Workspace

def onCache {ε α : Type} (missing : Except ε α) (x : EStateM ε CacheSession α) : EStateM ε Workspace α := fun w =>
  match w.cache with
  | none =>
    match missing with
    | .ok a => .ok a w
    | .error e => .error e w
  | some c =>
    match x.run ⟨c, w.files⟩ with
    | .ok a s => .ok a ⟨s.files, some s.cache⟩
    | .error e s => .error e ⟨s.files, some s.cache⟩

def isEnabled (w : Workspace) : Bool := w.cache.isSome

abbrev CacheStep := EStateM CacheFault Workspace

def lookup (today : Date) (h : CacheKey) : CacheStep CacheSlot :=
  onCache (.error .disabled) (CacheSlot.lookup today h)

def save : CacheStep Unit := onCache (.ok ()) Cache.save

def prune (day : Date) : CacheStep Pruning := onCache (.ok ⟨0, 0, 0⟩) (Cache.prune day)

def stats : CacheStep CacheSize := onCache (.error .disabled) Cache.stats

def clear : CacheStep Unit := onCache (.ok ()) Cache.clear

end Workspace

end NamespaceMigration
