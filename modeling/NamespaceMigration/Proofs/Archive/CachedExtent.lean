import NamespaceMigration.Archive.CachedMigrator
import NamespaceMigration.Cache.Workspace
import NamespaceMigration.Proofs.Archive.Related
import NamespaceMigration.Proofs.Cache.Extent

/-! Migrations with a cache touch no place outside its directory. -/

namespace NamespaceMigration

open CacheLayout Steps

lemma CacheSession.Within.trans {S : Place → Prop} {s u v : CacheSession} (h : s.Within S u) (h' : u.Within S v) :
    s.Within S v :=
  ⟨h'.root.trans h.root, h'.owner.trans h.owner, Nat.le_trans h.temporaries h'.temporaries, h.files.trans h'.files⟩

namespace CacheSlot

variable {I : CacheSession → Prop} {e : CacheSlot}

lemma keeps_lift {α : Type} (r : Except IoFault α) : Keeps I (lift r) := by
  cases r with
  | ok a => exact .pure a
  | error fault => exact .throw _

lemma keeps_read : Keeps I e.read := by
  refine .bind ?_ fun n => ?_
  · rw [find]
    split
    · exact .bind (.get fun s hs => hs) fun p => .get fun s hs => keeps_lift _ s hs
    · exact .throw _
  · cases n with
    | file content => exact .pure content
    | _ => exact .throw _

end CacheSlot

namespace Migrator

variable {s : CacheSession} (hr : s.files.Reaches s.cache.root)

lemma relates_keeps (I : CacheSession → Prop) : Relates fun α (x y : CachedM α) => x = y ∧ Keeps I x where
  pure a := ⟨rfl, .pure a⟩
  throw_bind _ f _ := ⟨rfl, fun _ hs => hs⟩
  bind := by
    rintro α β x _ f f' ⟨rfl, hx⟩ hf
    obtain rfl : f = f' := funext fun a => (hf a).1
    exact ⟨rfl, .bind hx fun a => (hf a).2⟩

include hr

lemma within_fetch {convert : CachedM Outcome} (hconvert : Keeps (s.Within (Below s.cache.root)) convert) (today : Date)
    (key : String) (source : Bytes) : Keeps (s.Within (Below s.cache.root)) (fetch today key source convert) := by
  intro u hu
  have hlookup : Ensures u (CacheSlot.lookup today (.compute key source))
      (fun e v => s.Within (Below s.cache.root) v ∧ e.pending = none) fun _ v => s.Within (Below s.cache.root) v := by
    refine ensures_get_bind.2 ?_
    split_ifs
    · exact ⟨hu.withMetadata _, rfl⟩
    · exact ⟨hu, rfl⟩
  refine ensures_bind.2 (ensures_adaptExcept.2 (hlookup.mono ?_ fun _ _ hv => hv))
  rintro e v ⟨hv, hpending⟩
  split_ifs
  · exact Keeps.bind (fun w hw => ensures_adaptExcept.2 (CacheSlot.keeps_read w hw)) (fun _ => .pure _) v hv
  · refine Keeps.bind hconvert (fun outcome => Keeps.bind ?_ fun _ => .pure _) v hv
    intro w hw
    have hreach : w.files.Reaches w.cache.root := hw.reaches (fun _ hp => hp) hr
    have hinside : e.Inside w := fun place hp => nomatch hpending.symm.trans hp
    have hwithin : ∀ x, w.Within (w.Stores e.pending) x → s.Within (Below s.cache.root) x := by
      intro x hx
      refine hw.trans (hx.mono fun p hp => ?_)
      rw [← hw.root]
      exact hp.below hinside
    refine ensures_tryCatch.2 (ensures_adaptExcept.2 ?_)
    exact (CacheSlot.within_store hinside hreach today outcome.bytes w (.refl w)).mono (fun _ x hx => hwithin x hx)
      fun _ x hx => hwithin x hx

lemma within_migrateNestedCached (g : Migrator) (today : Date) (depth : ℕ) (archive : String) (source : Bytes) :
    Keeps (s.Within (Below s.cache.root)) (g.migrateNestedCached today depth archive source) := by
  induction depth generalizing archive source with
  | zero => exact .throw _
  | succ depth ih =>
    have hconvert : Keeps (s.Within (Below s.cache.root))
        (g.migrateArchiveWith (g.migrateNestedCached today depth) archive source) :=
      ((relates_keeps _).migrateArchiveWith fun name inner _ => ⟨rfl, ih name inner⟩).2
    rw [migrateNestedCached]
    cases g.settingsKey? with
    | none => exact hconvert
    | some key => exact within_fetch hr hconvert today key source

lemma within_migrateCached (g : Migrator) (today : Date) (name : String) (source : Bytes) :
    Keeps (s.Within (Below s.cache.root)) (g.migrateCached today name source) :=
  ((relates_keeps _).migrateWith fun _ _ => ⟨rfl, within_migrateNestedCached hr g today g.depth name source⟩).2

end Migrator

end NamespaceMigration
