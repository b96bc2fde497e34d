import NamespaceMigration.Proofs.Cache.Names
import NamespaceMigration.Proofs.Cache.Slot

namespace NamespaceMigration

open FileTree CacheLayout Steps

structure CacheSession.Within (S : Place → Prop) (s u : CacheSession) : Prop where
  root : u.cache.root = s.cache.root
  owner : u.cache.owner = s.cache.owner
  temporaries : s.cache.temporaries ≤ u.cache.temporaries
  files : s.files.Spares S u.files

variable {S S' : Place → Prop} {s u : CacheSession} {e : CacheSlot} {place target : Place} {t : FileTree}

namespace CacheSession

def Tends (s : CacheSession) (pending : Option Place) : Place → Prop :=
  Tended s.cache.root s.cache.owner s.cache.temporaries pending

def Stores (s : CacheSession) (pending : Option Place) : Place → Prop :=
  Stored s.cache.root s.cache.owner s.cache.temporaries pending

namespace Within

lemma refl (s : CacheSession) : s.Within S s := ⟨rfl, rfl, Nat.le_refl _, .refl _⟩

lemma withFiles (h : s.Within S u) (ht : u.files.Spares S t) : s.Within S { u with files := t } :=
  ⟨h.root, h.owner, h.temporaries, h.files.trans ht⟩

lemma withMetadata (h : s.Within S u) (m : Metadata) : s.Within S { u with cache.metadata := m } :=
  ⟨h.root, h.owner, h.temporaries, h.files⟩

lemma mono (h : s.Within S u) (hS : ∀ p, S p → S' p) : s.Within S' u :=
  ⟨h.root, h.owner, h.temporaries, h.files.mono hS⟩

lemma reaches (h : s.Within S u) (hS : ∀ p, S p → Below s.cache.root p) (hr : s.files.Reaches s.cache.root) :
    u.files.Reaches u.cache.root := by
  rw [h.root]
  exact h.files.reaches (fun q hq hs => not_below_above hq (hS q hs)) hr

end Within

end CacheSession

namespace Cache

lemma within_discard (hp : S place) : Keeps (s.Within S) (discard place) := by
  apply Keeps.modify
  intro u hu
  split_ifs
  · exact hu.withFiles (spares_erase hp)
  · exact hu

lemma within_onMetadata (f : Metadata → Metadata) : Keeps (s.Within S) (onMetadata f) :=
  .modify fun u hu => hu.withMetadata (f u.cache.metadata)

lemma within_createTemporary {stem : String} (hu : s.Within S u)
    (hS : ∀ n, s.cache.temporaries ≤ n → S (s.cache.root ++ [RawText.ofText (temporaryName stem s.cache.owner n)])) :
    Ensures u (createTemporary stem) (fun place v => s.Within S v ∧ S place) fun _ v => s.Within S v := by
  refine (ensures_createTemporary stem u).mono ?_ ?_
  · rintro place _ ⟨-, n, hn, rfl, rfl⟩
    have hplace : S (u.cache.root ++ [RawText.ofText (temporaryName stem u.cache.owner n)]) := by
      rw [hu.root, hu.owner]
      exact hS n (Nat.le_trans hu.temporaries hn)
    exact ⟨⟨hu.root, hu.owner, Nat.le_trans hu.temporaries (Nat.le_succ_of_le hn), hu.files.trans (spares_put hplace)⟩,
      hplace⟩
  · rintro _ _ rfl
    exact hu

lemma within_moveInto (wrap : IoFault → CacheFault) (hp : S place) (hq : S target) :
    Keeps (s.Within S) (moveInto wrap place target) := by
  intro u hu
  refine (ensures_moveInto wrap place target u).mono ?_ ?_
  · rintro _ _ ⟨-, n, -, rfl⟩
    exact hu.withFiles ((spares_erase hp).trans (spares_put hq))
  · rintro _ _ rfl
    refine hu.withFiles ?_
    split_ifs
    · exact spares_erase hp
    · exact .refl _

lemma within_mergeSaved : Keeps (s.Within S) mergeSaved := by
  refine .get fun u hu => ?_
  cases readText u.files (metadataPlace u.cache.root) with
  | ok text => exact within_onMetadata _ u hu
  | error fault => exact hu

lemma within_writeMetadata : Keeps (s.Within (s.Tends none)) writeMetadata := by
  intro u hu
  refine ensures_bind.2 ((within_createTemporary hu fun n hn => .inl (.begun _ n hn rfl)).mono ?_ fun _ _ hv => hv)
  rintro place v ⟨hv, hp⟩
  refine ensures_modify_bind.2 (ensures_get_bind.2 ?_)
  refine within_moveInto _ hp ?_ _ (hv.withFiles (spares_append hp))
  rw [hv.root]
  exact .inr (.inr rfl)

lemma within_pruneObject (report : Pruning) (key : CacheKey) :
    Keeps (s.Within (s.Tends none)) (pruneObject report key) := by
  refine .get fun u hu => ?_
  dsimp only
  cases u.files.status (objectPlace u.cache.root key) with
  | ok n =>
    cases n with
    | file content =>
      refine (hu.withFiles (spares_erase ?_)).withMetadata _
      rw [hu.root]
      exact .inl (.object key rfl)
    | directory => exact hu
    | link target => exact hu
  | error fault =>
    cases fault with
    | notFound => exact hu.withMetadata _
    | _ => exact hu

section Maintenance

variable (hr : s.files.Reaches s.cache.root)
include hr

lemma within_lock : Keeps (s.Within (s.Tends none)) lock := by
  refine .get fun u hu => (ensures_onFiles _ _ u).mono ?_ ?_
  · rintro _ _ ⟨t, ht, rfl⟩
    refine hu.withFiles ?_
    have hreach := hu.reaches (fun p hp => hp.below fun q hq => nomatch hq) hr
    obtain ⟨made, hmade, ht⟩ := bind_eq_ok_iff.1 ht
    obtain rfl := Except.ok.inj ((makeDirectories_of_reaches hreach).symm.trans hmade)
    split at ht
    · cases ht
    · split at ht
      · obtain rfl := Except.ok.inj ht
        exact .refl _
      · obtain ⟨-, -, rfl⟩ := create_eq_ok_iff.1 ht
        refine spares_put (.inr (.inl ?_))
        rw [hu.root]
  · rintro _ _ rfl
    exact hu

lemma within_save : Keeps (s.Within (s.Tends none)) save :=
  .bind (within_lock hr) fun _ => .bind within_mergeSaved fun _ => within_writeMetadata

lemma within_prune (day : Date) : Keeps (s.Within (s.Tends none)) (prune day) := by
  refine .bind (within_lock hr) fun _ => .bind within_mergeSaved fun _ => .get fun u hu => ?_
  refine (Keeps.bind (.foldlM (fun key _ report => within_pruneObject report key) _) fun report => ?_) u hu
  exact .get fun v hv => (Keeps.bind within_writeMetadata fun _ => .pure _) v hv

end Maintenance

end Cache

namespace CacheSlot

open Cache

lemma within_lookup (today : Date) (key : CacheKey) : Keeps (s.Within S) (lookup today key) := by
  refine .get fun u hu => ?_
  split_ifs
  · exact hu.withMetadata _
  · exact hu

lemma within_unstage : Keeps (s.Within (s.Stores e.pending)) e.unstage := by
  rw [unstage]
  cases hp : e.pending with
  | none => exact .pure _
  | some place => exact within_discard (.pending rfl)

lemma within_stage (hu : s.Within (s.Stores e.pending) u) :
    Ensures u e.stage (fun e' v => s.Within (s.Stores e.pending) v ∧ ∀ p, e'.pending = some p → s.Stores e.pending p)
      fun _ v => s.Within (s.Stores e.pending) v := by
  refine ensures_bind.2 ((within_unstage u hu).mono ?_ fun _ _ hv => hv)
  intro _ v hv
  refine ensures_bind.2 ((within_createTemporary hv fun n hn => .begun _ n hn rfl).mono ?_ fun _ _ hw => hw)
  rintro place w ⟨hw, hplace⟩
  exact ⟨hw, fun p hp => Option.some.inj hp ▸ hplace⟩

lemma within_write (hS : ∀ p, e.pending = some p → S p) (content : Bytes) : Keeps (s.Within S) (e.write content) := by
  rw [write]
  cases hp : e.pending with
  | none => exact .pure _
  | some place => exact .modify fun u hu => hu.withFiles (spares_append (hS place hp))

lemma within_publish (hS : ∀ p, s.Stores e.pending p → S p) (hb : ∀ p, S p → Below s.cache.root p)
    (hr : s.files.Reaches s.cache.root) (today : Date) : Keeps (s.Within S) (e.publish today) := by
  rw [publish]
  cases hp : e.pending with
  | none => exact .throw _
  | some place =>
    refine .get fun u hu => ensures_get_bind.2 ?_
    have hplace : S place := hS place (.pending hp)
    have hshard : S (shardPlace u.cache.root e.hash) := hS _ (.shard e.hash (by rw [hu.root]))
    have hobject : S (objectPlace u.cache.root e.hash) := hS _ (.object e.hash (by rw [hu.root]))
    cases hm : u.files.makeDirectories (shardPlace u.cache.root e.hash) with
    | error fault => exact (Keeps.bind (within_discard hplace) fun _ => .throw _) u hu
    | ok made =>
      refine ensures_modify_bind.2 ?_
      refine (Keeps.bind (within_moveInto _ hplace hobject) fun _ => within_onMetadata _) _ ?_
      exact hu.withFiles (spares_makeDirectories (hu.reaches hb hr) hshard hm)

lemma within_store (hi : e.Inside s) (hr : s.files.Reaches s.cache.root) (today : Date) (content : Bytes) :
    Keeps (s.Within (s.Stores e.pending)) (e.store today content) := by
  intro u hu
  refine ensures_bind.2 ((within_stage hu).mono ?_ fun _ _ hv => hv)
  rintro e' v ⟨hv, hp⟩
  refine (Keeps.bind (within_write hp content) fun _ => within_publish ?_ ?_ hr today) v hv
  · exact fun p h => h.mono (Nat.le_refl _) hp
  · exact fun p h => h.below hi

end CacheSlot

end NamespaceMigration
