import NamespaceMigration.Proofs.Cache.Saving

namespace NamespaceMigration

open FileTree CacheLayout Steps

def CacheSession.Minds (M : Metadata → Prop) (s : CacheSession) : Prop := M s.cache.metadata

variable {M : Metadata → Prop} {s : CacheSession} {e : CacheSlot}

namespace Cache

lemma minds_onFiles (wrap : IoFault → CacheFault) (f : FileTree → Except IoFault FileTree) :
    Keeps (CacheSession.Minds M) (onFiles wrap f) := by
  intro s hs
  refine (ensures_onFiles wrap f s).mono ?_ ?_
  · rintro _ _ ⟨t, -, rfl⟩
    exact hs
  · rintro _ _ rfl
    exact hs

lemma minds_onMetadata {f : Metadata → Metadata} (h : ∀ m, M m → M (f m)) : Keeps (CacheSession.Minds M) (onMetadata f) :=
  .modify fun _ hu => h _ hu

lemma minds_discard (place : Place) : Keeps (CacheSession.Minds M) (discard place) := by
  intro s hs
  refine (ensures_discard place s).mono ?_ fun _ _ h => h.elim
  rintro _ _ rfl
  exact hs

lemma minds_createTemporary (stem : String) : Keeps (CacheSession.Minds M) (createTemporary stem) := by
  intro s hs
  refine (ensures_createTemporary stem s).mono ?_ ?_
  · rintro _ _ ⟨-, n, -, -, rfl⟩
    exact hs
  · rintro _ _ rfl
    exact hs

lemma minds_moveInto (wrap : IoFault → CacheFault) (place target : Place) :
    Keeps (CacheSession.Minds M) (moveInto wrap place target) := by
  intro s hs
  refine (ensures_moveInto wrap place target s).mono ?_ ?_
  · rintro _ _ ⟨-, n, -, rfl⟩
    exact hs
  · rintro _ _ rfl
    exact hs

lemma minds_lock : Keeps (CacheSession.Minds M) lock := .get fun u hu => minds_onFiles _ _ u hu

lemma minds_mergeSaved (h : ∀ s : CacheSession, M s.cache.metadata → M (merged s)) :
    Keeps (CacheSession.Minds M) mergeSaved := by
  intro s hs
  rw [Ensures, run_mergeSaved]
  exact h s hs

lemma minds_writeMetadata : Keeps (CacheSession.Minds M) writeMetadata :=
  .bind (minds_createTemporary _) fun _ => .bind (.modify fun _ h => h) fun _ => .get fun u hu => minds_moveInto _ _ _ u hu

lemma minds_save (h : ∀ s : CacheSession, M s.cache.metadata → M (merged s)) : Keeps (CacheSession.Minds M) save :=
  .bind minds_lock fun _ => .bind (minds_mergeSaved h) fun _ => minds_writeMetadata

lemma minds_pruneObject (h : ∀ m key, M m → M (m.erase key)) (report : Pruning) (key : CacheKey) :
    Keeps (CacheSession.Minds M) (pruneObject report key) := by
  refine .get fun u hu => ?_
  dsimp only
  cases u.files.status (objectPlace u.cache.root key) with
  | ok n =>
    cases n with
    | file content => exact h _ key hu
    | directory => exact hu
    | link target => exact hu
  | error fault =>
    cases fault with
    | notFound => exact h _ key hu
    | _ => exact hu

lemma minds_prune (hmerge : ∀ s : CacheSession, M s.cache.metadata → M (merged s))
    (herase : ∀ m key, M m → M (m.erase key)) (day : Date) : Keeps (CacheSession.Minds M) (prune day) := by
  refine .bind minds_lock fun _ => .bind (minds_mergeSaved hmerge) fun _ => .get fun u hu => ?_
  refine (Keeps.bind (.foldlM (fun key _ report => minds_pruneObject herase report key) _) fun report => ?_) u hu
  exact .get fun v hv => (Keeps.bind minds_writeMetadata fun _ => .pure _) v hv

lemma minds_clear (h : M .empty) : Keeps (CacheSession.Minds M) clear :=
  .bind minds_lock fun _ => .modify fun _ _ => h

lemma wellFormed_supplies {today : Date} (hd : today.isValid = true) {m : Metadata} (hm : m.WellFormed)
    (keys : List CacheKey) : (keys.foldl (fun m key => m.supply key today) m).WellFormed := by
  induction keys generalizing m with
  | nil => exact hm
  | cons key keys ih => exact ih (hm.supply hd)

lemma wellFormed_loadMetadata {root : Place} {today : Date} {t : FileTree} {m : Metadata} (hd : today.isValid = true)
    (h : loadMetadata root today t = .ok m) : m.WellFormed := by
  obtain ⟨keys, -, h⟩ := bind_eq_ok_iff.1 h
  obtain rfl := Except.ok.inj h
  exact wellFormed_supplies hd (wellFormed_recorded root t) keys

end Cache

namespace CacheSlot

open Cache

variable {today : Date}

lemma minds_lookup (h : ∀ m key, M m → M (m.touch key today)) (key : CacheKey) :
    Keeps (CacheSession.Minds M) (lookup today key) := by
  refine .get fun u hu => ?_
  split_ifs
  · exact h _ key hu
  · exact hu

lemma minds_unstage : Keeps (CacheSession.Minds M) e.unstage := by
  rw [unstage]
  cases e.pending with
  | none => exact .pure _
  | some place => exact minds_discard place

lemma minds_stage : Keeps (CacheSession.Minds M) e.stage :=
  .bind minds_unstage fun _ => .bind (minds_createTemporary _) fun _ => .pure _

lemma minds_write (content : Bytes) : Keeps (CacheSession.Minds M) (e.write content) := by
  rw [write]
  cases e.pending with
  | none => exact .pure _
  | some place => exact .modify fun _ h => h

lemma minds_publish (h : ∀ m key, M m → M (m.touch key today)) : Keeps (CacheSession.Minds M) (e.publish today) := by
  rw [publish]
  cases e.pending with
  | none => exact .throw _
  | some place =>
    refine .get fun u hu => ensures_get_bind.2 ?_
    cases u.files.makeDirectories (shardPlace u.cache.root e.hash) with
    | error fault => exact (Keeps.bind (minds_discard place) fun _ => .throw _) u hu
    | ok made =>
      refine ensures_modify_bind.2 ?_
      exact (Keeps.bind (minds_moveInto _ _ _) fun _ => minds_onMetadata fun m => h m e.hash) _ hu

lemma minds_store (h : ∀ m key, M m → M (m.touch key today)) (content : Bytes) :
    Keeps (CacheSession.Minds M) (e.store today content) :=
  .bind minds_stage fun _ => .bind (minds_write content) fun _ => minds_publish h

lemma knows_publish (e : CacheSlot) (today : Date) (s : CacheSession) :
    Ensures s (e.publish today) (fun _ u => u.cache.metadata.Knows e.hash today) fun _ _ => True := by
  rw [publish]
  cases e.pending with
  | none => trivial
  | some place =>
    refine ensures_get_bind.2 (ensures_get_bind.2 ?_)
    cases s.files.makeDirectories (shardPlace s.cache.root e.hash) with
    | error fault => exact (ensures_bind.2 ((ensures_discard place s).mono (fun _ _ _ => trivial) fun _ _ h => h.elim))
    | ok made =>
      refine ensures_modify_bind.2 (ensures_bind.2 ((ensures_true _ _).mono ?_ fun _ _ h => h))
      exact fun _ u _ => Metadata.knows_touch.2 (.inr ⟨rfl, le_rfl⟩)

lemma knows_store (e : CacheSlot) (today : Date) (content : Bytes) (s : CacheSession) :
    Ensures s (e.store today content) (fun _ u => u.cache.metadata.Knows e.hash today) fun _ _ => True := by
  have hhash : Ensures s e.stage (fun e' _ => e'.hash = e.hash) fun _ _ => True := by
    rw [Ensures]
    cases hrun : e.stage.run s with
    | ok e' u => exact hash_of_stage hrun
    | error fault u => trivial
  refine ensures_bind.2 (hhash.mono ?_ fun _ _ h => h)
  rintro e' u he
  refine ensures_bind.2 ((ensures_true u _).mono ?_ fun _ _ h => h)
  rintro _ v -
  exact he ▸ knows_publish e' today v

end CacheSlot

end NamespaceMigration
