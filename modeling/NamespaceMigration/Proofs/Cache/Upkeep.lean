import NamespaceMigration.Cache.Basic
import NamespaceMigration.Proofs.Cache.Objects
import NamespaceMigration.Proofs.Steps

/-! What the steps of a handle do to its directory. -/

namespace NamespaceMigration

open FileTree CacheLayout Steps

variable {t t' : FileTree} {root : Place}

structure CacheSession.Upkept (s u : CacheSession) : Prop where
  root : u.cache.root = s.cache.root
  owner : u.cache.owner = s.cache.owner
  temporaries : s.cache.temporaries ≤ u.cache.temporaries
  files : Upkeep s.cache.root s.files u.files

variable {s u : CacheSession}

namespace CacheSession

lemma Upkept.refl (s : CacheSession) : s.Upkept s := ⟨rfl, rfl, Nat.le_refl _, .refl _⟩

lemma Upkept.withFiles (h : s.Upkept u) (ht : Upkeep u.cache.root u.files t) : s.Upkept { u with files := t } :=
  ⟨h.root, h.owner, h.temporaries, h.files.trans (h.root ▸ ht)⟩

lemma Upkept.withMetadata (h : s.Upkept u) (m : Metadata) : s.Upkept { u with cache.metadata := m } :=
  ⟨h.root, h.owner, h.temporaries, h.files⟩

end CacheSession

namespace Cache

lemma upkeep_lockFile (hl : lockFile root t = .ok t') : Upkeep root t t' ∧ t'.Reaches root := by
  obtain ⟨made, hmade, hl⟩ := bind_eq_ok_iff.1 hl
  obtain ⟨hext, hreach⟩ := makeDirectories_eq_ok hmade
  split at hl
  · cases hl
  · split at hl
    · obtain rfl := Except.ok.inj hl
      exact ⟨.of_extends hext, hreach⟩
    · obtain ⟨-, hn, rfl⟩ := create_eq_ok_iff.1 hl
      have hput : Upkeep root made (made.put (lockPlace root) (.file [])) := .put (.inl rfl) (by simp [hn]) rfl
      exact ⟨.trans (.of_extends hext) hput, fun q hq => hput.outside q _ (not_below_above hq) (hreach q hq)⟩

lemma exists_lockFile {made : FileTree} (hm : t.makeDirectories root = .ok made)
    (hn : ∀ n, made.find? (lockPlace root) = some n → ∃ content, n = .file content) :
    ∃ t', lockFile root t = .ok t' ∧ made.Spares (· = lockPlace root) t' := by
  rw [lockFile, hm]
  change ∃ t', ite _ _ (ite _ _ _) = _ ∧ _
  cases hlock : made.find? (lockPlace root) with
  | none =>
    have hcreate : made.create (lockPlace root) = .ok (made.put (lockPlace root) (.file [])) :=
      create_eq_ok_iff.2 ⟨by simpa [lockPlace] using (makeDirectories_eq_ok hm).2, hlock, rfl⟩
    exact ⟨made.put (lockPlace root) (.file []), by simp [isDirectory, isFile, hlock, hcreate], spares_put rfl⟩
  | some n =>
    obtain ⟨content, rfl⟩ := hn n hlock
    exact ⟨made, by simp [isDirectory, isFile, Node.isDirectory, Node.isFile, hlock, pure, Except.pure], .refl made⟩

lemma upkeep_sweep (root : Place) (t : FileTree) : Upkeep root t (sweep root t) := by
  rw [sweep]
  induction t.names root generalizing t with
  | nil => exact .refl t
  | cons name names ih =>
    rw [List.foldl_cons]
    split
    next hf =>
      rw [Bool.and_eq_true, isFile_iff] at hf
      obtain ⟨-, content, hc⟩ := hf
      exact .trans (.erase (below_append (by simp)) (by simp [hc])) (ih _)
    next => exact ih t

lemma upkeep_clear (root : Place) (names : List RawText) (t : FileTree) :
    Upkeep root t (names.foldl (fun t name => if name = .ofText lockName then t else t.removeAll (root ++ [name])) t) := by
  induction names generalizing t with
  | nil => exact .refl t
  | cons name names ih =>
    rw [List.foldl_cons]
    split
    · exact ih t
    · exact .trans (.removeAll (below_append (by simp))) (ih _)

lemma ensures_onFiles (wrap : IoFault → CacheFault) (f : FileTree → Except IoFault FileTree) (s : CacheSession) :
    Ensures s (onFiles wrap f) (fun _ u => ∃ t, f s.files = .ok t ∧ u = { s with files := t }) fun _ u => u = s := by
  refine ensures_get_bind.2 ?_
  cases h : f s.files with
  | ok t => exact ⟨t, rfl, rfl⟩
  | error fault => exact rfl

lemma le_freeNumber (t : FileTree) (root : Place) (stem : String) (owner fuel n : ℕ) :
    n ≤ freeNumber t root stem owner fuel n := by
  induction fuel generalizing n with
  | zero => exact Nat.le_refl n
  | succ fuel ih =>
    rw [freeNumber]
    split
    · exact Nat.le_trans (Nat.le_succ n) (ih (n + 1))
    · exact Nat.le_refl n

lemma ensures_createTemporary (stem : String) (s : CacheSession) :
    Ensures s (createTemporary stem)
      (fun place u => s.files.find? place = none ∧ ∃ n, s.cache.temporaries ≤ n ∧
        place = s.cache.root ++ [RawText.ofText (temporaryName stem s.cache.owner n)] ∧
        u = ⟨{ s.cache with temporaries := n + 1 }, s.files.put place (.file [])⟩)
      fun _ u => u = s := by
  refine ensures_bind.2 (ensures_bind.2 ((ensures_onFiles _ _ s).mono ?_ fun _ _ h => h))
  rintro _ u ⟨t, ht, rfl⟩
  obtain ⟨-, hn, rfl⟩ := create_eq_ok_iff.1 ht
  exact ⟨hn, _, le_freeNumber _ _ _ _ _ _, rfl, rfl⟩

lemma ensures_discard (place : Place) (s : CacheSession) :
    Ensures s (discard place)
      (fun _ u => u = { s with files := if s.files.isFile place then s.files.erase place else s.files })
      fun _ _ => False := by
  change ite _ _ _ = _
  split <;> rfl

lemma ensures_moveInto (wrap : IoFault → CacheFault) (place target : Place) (s : CacheSession) :
    Ensures s (moveInto wrap place target)
      (fun _ u => s.files.find? target ≠ some .directory ∧ ∃ n, s.files.find? place = some n ∧
        u = { s with files := (s.files.erase place).put target n })
      fun _ u => u = { s with files := if s.files.isFile place then s.files.erase place else s.files } := by
  refine ensures_get_bind.2 ?_
  cases h : s.files.move place target with
  | ok t =>
    obtain ⟨n, hn, -, hd, rfl⟩ := move_eq_ok_iff.1 h
    exact ⟨hd, n, (status_eq_ok_iff.1 hn).2, rfl⟩
  | error fault => exact ensures_bind.2 ((ensures_discard place s).mono (fun _ _ hu => hu) fun _ _ hu => hu.elim)

section Maintenance

variable (s : CacheSession)

lemma upkeeps_lock : Keeps s.Upkept lock := by
  refine .get fun u hu => (ensures_onFiles _ _ u).mono ?_ ?_
  · rintro _ _ ⟨t, ht, rfl⟩
    exact hu.withFiles (upkeep_lockFile ht).1
  · rintro _ _ rfl
    exact hu

lemma upkeeps_onMetadata (f : Metadata → Metadata) : Keeps s.Upkept (onMetadata f) :=
  .modify fun u hu => hu.withMetadata (f u.cache.metadata)

lemma upkeeps_mergeSaved : Keeps s.Upkept mergeSaved := by
  refine .get fun u hu => ?_
  cases readText u.files (metadataPlace u.cache.root) with
  | ok text => exact upkeeps_onMetadata s _ u hu
  | error fault => exact hu

lemma upkeeps_writeMetadata : Keeps s.Upkept writeMetadata := by
  intro u hu
  refine ensures_bind.2 ((ensures_createTemporary _ u).mono ?_ fun _ v hv => hv ▸ hu)
  rintro place _ ⟨hnone, n, hn, rfl, rfl⟩
  let place := u.cache.root ++ [RawText.ofText (temporaryName Metadata.fileName u.cache.owner n)]
  let text := Bytes.utf8 u.cache.metadata.toText
  let written := (u.files.put place (.file [])).put place (.file text)
  have hcount : s.Upkept { u with cache.temporaries := n + 1 } :=
    ⟨hu.root, hu.owner, Nat.le_trans hu.temporaries (Nat.le_succ_of_le hn), hu.files⟩
  have hfile : written.find? place = some (.file text) := find?_put_self (by simp [place])
  have hgone : Upkeep u.cache.root u.files (written.erase place) :=
    .erase_of_find?_eq_none hnone fun q hq => (find?_put_of_ne hq).trans (find?_put_of_ne hq)
  have happend : (u.files.put place (.file [])).append place text = written :=
    append_of_file (find?_put_self (by simp [place]))
  refine ensures_modify_bind.2 (ensures_get_bind.2 ?_)
  change Ensures ⟨_, (u.files.put place (.file [])).append place text⟩ (moveInto .io place (metadataPlace u.cache.root)) _ _
  rw [happend]
  refine (ensures_moveInto _ _ _ _).mono ?_ ?_
  · rintro _ _ ⟨hd, m, hm, rfl⟩
    obtain rfl := Option.some.inj (hm.symm.trans hfile)
    refine hcount.withFiles (hgone.trans (.put (.inr rfl) ?_ rfl))
    rw [find?_erase]
    split
    · simp
    · exact hd
  · rintro _ _ rfl
    rw [if_pos (isFile_iff.2 ⟨text, hfile⟩)]
    exact hcount.withFiles hgone

lemma upkeeps_save : Keeps s.Upkept save :=
  .bind (upkeeps_lock s) fun _ => .bind (upkeeps_mergeSaved s) fun _ => upkeeps_writeMetadata s

lemma upkeeps_pruneObject (report : Pruning) (key : CacheKey) : Keeps s.Upkept (pruneObject report key) := by
  refine .get fun u hu => ?_
  dsimp only
  cases h : u.files.status (objectPlace u.cache.root key) with
  | ok n =>
    cases n with
    | file content =>
      have hc := (status_eq_ok_iff.1 h).2
      exact (hu.withFiles (.erase (below_objectPlace _ key) (by simp [hc]))).withMetadata _
    | directory => exact hu
    | link target => exact hu
  | error fault =>
    cases fault with
    | notFound => exact hu.withMetadata _
    | _ => exact hu

lemma upkeeps_prune (day : Date) : Keeps s.Upkept (prune day) := by
  refine .bind (upkeeps_lock s) fun _ => .bind (upkeeps_mergeSaved s) fun _ => .get fun u hu => ?_
  refine (Keeps.bind (.foldlM (fun key _ report => upkeeps_pruneObject s report key) _) fun report => ?_) u hu
  exact .get fun v hv => (Keeps.bind (upkeeps_writeMetadata s) fun _ => .pure _) v hv

lemma upkeeps_clear : Keeps s.Upkept clear := by
  refine .bind (upkeeps_lock s) fun _ => .modify fun u hu => ?_
  exact (hu.withFiles (upkeep_clear u.cache.root (u.files.names u.cache.root) u.files)).withMetadata .empty

end Maintenance

end Cache

end NamespaceMigration
