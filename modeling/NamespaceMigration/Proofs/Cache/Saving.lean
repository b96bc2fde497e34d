import Mathlib.Data.List.Nodup
import Mathlib.Data.List.Perm.Subperm
import NamespaceMigration.Proofs.Cache.Extent
import NamespaceMigration.Proofs.Cache.Key
import NamespaceMigration.Proofs.Cache.Metadata

namespace NamespaceMigration.Cache

open FileTree CacheLayout Steps

variable {t : FileTree} {root place target : Place} {stem : String} {owner n : ℕ} {s u : CacheSession} {key : CacheKey}
  {d : Date}

section Temporaries

lemma freeNumber_cases (t : FileTree) (root : Place) (stem : String) (owner fuel n : ℕ) :
    t.find? (root ++ [RawText.ofText (temporaryName stem owner (freeNumber t root stem owner fuel n))]) = none ∨
      ∀ m < fuel, t.find? (root ++ [RawText.ofText (temporaryName stem owner (n + m))]) ≠ none := by
  induction fuel generalizing n with
  | zero => exact .inr fun m hm => absurd hm (Nat.not_lt_zero m)
  | succ fuel ih =>
    rw [freeNumber]
    split_ifs with h
    · refine (ih (n + 1)).imp_right fun htaken m hm => ?_
      cases m with
      | zero => exact Option.isSome_iff_ne_none.1 h
      | succ m => 
        rw [show n + (m + 1) = n + 1 + m by omega]
        exact htaken m (Nat.lt_of_succ_lt_succ hm)
    · exact .inl (by simpa using h)

lemma find?_freeNumber (t : FileTree) (root : Place) (stem : String) (owner n : ℕ) :
    t.find? (root ++ [RawText.ofText (temporaryName stem owner (freeNumber t root stem owner (t.nodes.length + 1) n))]) = none := by
  refine (freeNumber_cases t root stem owner _ n).resolve_right fun htaken => ?_
  -- otherwise more places were taken than the tree has nodes
  let place (m : ℕ) : Place := root ++ [RawText.ofText (temporaryName stem owner (n + m))]
  have hinj : Function.Injective place := by
    intro m m' h
    have hname : temporaryName stem owner (n + m) = temporaryName stem owner (n + m') := by simpa [place] using h
    exact Nat.add_left_cancel (eq_of_temporaryName_eq hname).2
  have hsub : (List.range (t.nodes.length + 1)).map place ⊆ t.nodes.map Prod.fst := by
    intro p hp
    obtain ⟨m, hm, rfl⟩ := List.mem_map.1 hp
    exact mem_of_find?_ne_none (by simp [place]) (htaken m (List.mem_range.1 hm))
  have hlen := (List.subperm_of_subset (List.Nodup.map hinj List.nodup_range) hsub).length_le
  simp only [List.length_map, List.length_range] at hlen
  exact absurd hlen (Nat.not_succ_le_self _)

lemma run_onFiles_of_ok {f : FileTree → Except IoFault FileTree} (wrap : IoFault → CacheFault) (h : f s.files = .ok t) :
    (onFiles wrap f).run s = .ok () { s with files := t } := by
  have hget : (get : CacheM CacheSession).run s = .ok s s := rfl
  rw [onFiles, run_bind_of_ok hget, h]
  rfl

lemma ensures_createTemporary_of_reaches (stem : String) (hr : s.files.Reaches s.cache.root) :
    Ensures s (createTemporary stem)
      (fun place u => s.files.find? place = none ∧ ∃ n, s.cache.temporaries ≤ n ∧
        place = s.cache.root ++ [RawText.ofText (temporaryName stem s.cache.owner n)] ∧
        u = ⟨{ s.cache with temporaries := n + 1 }, s.files.put place (.file [])⟩)
      fun _ _ => False := by
  let n := freeNumber s.files s.cache.root stem s.cache.owner (s.files.nodes.length + 1) s.cache.temporaries
  let place := s.cache.root ++ [RawText.ofText (temporaryName stem s.cache.owner n)]
  have hnone : s.files.find? place = none := find?_freeNumber _ _ _ _ _
  have hcreate : s.files.create place = .ok (s.files.put place (.file [])) :=
    create_eq_ok_iff.2 ⟨by simpa [place] using hr, hnone, rfl⟩
  refine ensures_get_bind.2 (ensures_bind.2 ?_)
  rw [Ensures, run_onFiles_of_ok _ hcreate]
  exact ⟨hnone, n, le_freeNumber _ _ _ _ _ _, rfl, rfl⟩

lemma ensures_moveInto_of_reaches {node : Node} (wrap : IoFault → CacheFault) (hn : s.files.status place = .ok node)
    (hr : s.files.Reaches target.dropLast) (hd : s.files.find? target ≠ some .directory) :
    Ensures s (moveInto wrap place target)
      (fun _ u => u = { s with files := (s.files.erase place).put target node }) fun _ _ => False := by
  refine ensures_get_bind.2 ?_
  rw [move_eq_ok_iff.2 ⟨node, hn, hr, hd, rfl⟩]
  exact rfl

end Temporaries

section Recording

def recorded (root : Place) (t : FileTree) : Metadata :=
  match readText t (metadataPlace root) with
  | .ok text => .parse text
  | .error _ => .empty

def merged (s : CacheSession) : Metadata :=
  (recorded s.cache.root s.files).entries.foldl (fun m e =>
    if s.files.isFile (objectPlace s.cache.root e.1) then m.touch e.1 e.2 else m) s.cache.metadata

lemma wellFormed_recorded (root : Place) (t : FileTree) : (recorded root t).WellFormed := by
  rw [recorded]
  split
  · exact .parse _
  · exact .empty

lemma recorded_of_file {text : String} (hr : t.Reaches root)
    (h : t.find? (metadataPlace root) = some (.file (Bytes.utf8 text))) : recorded root t = .parse text := by
  have hread : t.read (metadataPlace root) = .ok (Bytes.utf8 text) := read_eq_ok_iff.2 ⟨by simpa [metadataPlace] using hr, h⟩
  have htext : readText t (metadataPlace root) = .ok text := by
    simp [readText, hread, bind, Except.bind, pure, Except.pure, Bytes.ofUtf8?_utf8]
  rw [recorded, htext]

lemma recorded_of_forall_ne (h : ∀ content, t.find? (metadataPlace root) ≠ some (.file content)) : recorded root t = .empty := by
  rw [recorded]
  split
  next text hread =>
    obtain ⟨content, hread, -⟩ := bind_eq_ok_iff.1 hread
    exact absurd (read_eq_ok_iff.1 hread).2 (h content)
  next => rfl

lemma exists_file_of_knows_recorded (h : (recorded root t).Knows key d) :
    ∃ content, t.find? (metadataPlace root) = some (.file content) := by
  by_contra hno
  rw [recorded_of_forall_ne fun content hc => hno ⟨content, hc⟩] at h
  exact Metadata.knows_empty h

lemma recorded_congr {t' : FileTree} (hr : t.Reaches root) (hr' : t'.Reaches root)
    (h : t'.find? (metadataPlace root) = t.find? (metadataPlace root)) : recorded root t' = recorded root t := by
  have hstatus : t'.status (metadataPlace root) = t.status (metadataPlace root) := by
    have hdrop : (metadataPlace root).dropLast = root := by simp [metadataPlace]
    have henter := (enter_eq_ok_iff (q := root) root (reaches_nil t)).2 ⟨rfl, hr⟩
    have henter' := (enter_eq_ok_iff (q := root) root (reaches_nil t')).2 ⟨rfl, hr'⟩
    rw [status, status, hdrop, henter, henter', h]
  rw [recorded, recorded, readText, readText, FileTree.read, FileTree.read, hstatus]

lemma run_mergeSaved (s : CacheSession) : mergeSaved.run s = .ok () { s with cache.metadata := merged s } := by
  have hget : (get : CacheM CacheSession).run s = .ok s s := rfl
  rw [mergeSaved, run_bind_of_ok hget, merged, recorded]
  cases readText s.files (metadataPlace s.cache.root) <;> rfl

lemma knows_merged : (merged s).Knows key d ↔ s.cache.metadata.Knows key d ∨
    s.files.isFile (objectPlace s.cache.root key) = true ∧ (recorded s.cache.root s.files).Knows key d := by
  rw [merged, Metadata.knows_foldl_touch fun key => s.files.isFile (objectPlace s.cache.root key),
    (wellFormed_recorded _ _).ordered.knows_iff]

lemma get?_merged (h : (merged s).get? key = some d) : s.cache.metadata.get? key = some d ∨
    s.files.isFile (objectPlace s.cache.root key) = true ∧ (recorded s.cache.root s.files).get? key = some d := by
  have hlatest : ∀ e, (merged s).Knows key e → e ≤ d := by
    rintro e ⟨d', hd', hle⟩
    rwa [Option.some.inj (hd'.symm.trans h)] at hle
  rcases knows_merged.1 ⟨d, h, le_rfl⟩ with ⟨e, he, hle⟩ | ⟨hfile, e, he, hle⟩
  · obtain rfl := le_antisymm hle (hlatest e (knows_merged.2 (.inl ⟨e, he, le_rfl⟩)))
    exact .inl he
  · obtain rfl := le_antisymm hle (hlatest e (knows_merged.2 (.inr ⟨hfile, e, he, le_rfl⟩)))
    exact .inr ⟨hfile, he⟩

lemma wellFormed_merged (h : s.cache.metadata.WellFormed) : (merged s).WellFormed :=
  h.foldl_touch (fun key => s.files.isFile (objectPlace s.cache.root key)) (wellFormed_recorded _ _)

end Recording

section Writing

variable (hr : s.files.Reaches s.cache.root)
include hr

lemma ensures_lock :
    Ensures s lock (fun _ u => u.cache = s.cache ∧ s.files.Spares (· = lockPlace s.cache.root) u.files) fun _ u => u = s := by
  refine ensures_get_bind.2 ((ensures_onFiles _ _ s).mono ?_ fun _ _ h => h)
  rintro _ _ ⟨t, ht, rfl⟩
  refine ⟨rfl, ?_⟩
  obtain ⟨made, hmade, ht⟩ := bind_eq_ok_iff.1 ht
  obtain rfl := Except.ok.inj ((makeDirectories_of_reaches hr).symm.trans hmade)
  split at ht
  · cases ht
  · split at ht
    · obtain rfl := Except.ok.inj ht
      exact .refl _
    · obtain ⟨-, -, rfl⟩ := create_eq_ok_iff.1 ht
      exact spares_put rfl

lemma run_lock (hl : s.files.isFile (lockPlace s.cache.root) = true) : lock.run s = .ok () s := by
  have hfile : lockFile s.cache.root s.files = .ok s.files := by
    obtain ⟨content, hc⟩ := isFile_iff.1 hl
    have hd : s.files.isDirectory (lockPlace s.cache.root) = false := by
      simp [isDirectory, hc, Node.isDirectory]
    rw [lockFile, makeDirectories_of_reaches hr]
    change ite _ _ (ite _ _ _) = _
    rw [hd, hl]
    rfl
  exact run_onFiles_of_ok .io hfile

lemma ensures_writeMetadata :
    Ensures s writeMetadata
      (fun _ u => (∃ n, u.cache = { s.cache with temporaries := n }) ∧ ∀ p, u.files.find? p =
        if p = metadataPlace s.cache.root then some (.file (Bytes.utf8 s.cache.metadata.toText)) else s.files.find? p)
      fun _ u => (∃ n, u.cache = { s.cache with temporaries := n }) ∧
        s.files.find? (metadataPlace s.cache.root) = some .directory ∧ ∀ p, u.files.find? p = s.files.find? p := by
  refine ensures_bind.2 ((ensures_createTemporary_of_reaches _ hr).mono ?_ fun _ _ h => h.elim)
  rintro place _ ⟨hnone, n, -, hplace, rfl⟩
  let text := Bytes.utf8 s.cache.metadata.toText
  let target := metadataPlace s.cache.root
  let written := (s.files.put place (.file [])).append place text
  have hne : place ≠ [] := by simp [hplace]
  have hwritten : ∀ p, written.find? p = if p = place then some (.file text) else s.files.find? p := by
    intro p
    have happend : written = (s.files.put place (.file [])).put place (.file text) :=
      append_of_file (find?_put_self hne)
    rw [happend]
    split_ifs with h
    · rw [h, find?_put_self hne]
    · rw [find?_put_of_ne h, find?_put_of_ne h]
  have hgone : ∀ p, (written.erase place).find? p = s.files.find? p := by
    intro p
    rw [find?_erase, hwritten]
    by_cases h : p = place
    · rw [if_pos ⟨h, h ▸ hne⟩, h, hnone]
    · rw [if_neg fun hp => h hp.1, if_neg h]
  have htarget : target ≠ place := by
    intro h
    have hname : Metadata.fileName = temporaryName Metadata.fileName s.cache.owner n := by
      simpa [target, metadataPlace, hplace] using h
    have htemporary := isTemporary_temporaryName Metadata.fileName s.cache.owner n
    rw [← hname] at htemporary
    exact absurd htemporary (by decide)
  have hreach : written.Reaches s.cache.root := by
    intro q hq
    rw [hwritten, if_neg, hr q hq]
    rintro rfl
    have hlen := hq.length_le
    simp [hplace] at hlen
  refine ensures_modify_bind.2 (ensures_get_bind.2 ?_)
  change Ensures ⟨_, written⟩ (moveInto .io place target) _ _
  by_cases hd : s.files.find? target = some .directory
  · refine (ensures_moveInto _ _ _ _).mono ?_ ?_
    · rintro _ _ ⟨hnot, -⟩
      exact absurd ((hwritten target).trans ((if_neg htarget).trans hd)) hnot
    · rintro _ _ rfl
      have hfile : written.isFile place = true := isFile_iff.2 ⟨text, (hwritten place).trans (if_pos rfl)⟩
      dsimp only
      rw [if_pos hfile]
      exact ⟨⟨n + 1, rfl⟩, hd, hgone⟩
  · have hstatus : written.status place = .ok (.file text) :=
      status_eq_ok_iff.2 ⟨by simpa [hplace] using hreach, (hwritten place).trans (if_pos rfl)⟩
    have hnot : written.find? target ≠ some .directory := by rwa [hwritten, if_neg htarget]
    refine (ensures_moveInto_of_reaches _ hstatus (by simpa [target, metadataPlace] using hreach) hnot).mono ?_
      fun _ _ h => h.elim
    rintro _ _ rfl
    refine ⟨⟨n + 1, rfl⟩, fun p => ?_⟩
    dsimp only
    rw [find?_put, hgone]
    by_cases hp : p = target
    · rw [if_pos ⟨hp, hp ▸ by simp [target, metadataPlace]⟩, if_pos hp]
    · rw [if_neg fun h => hp h.1, if_neg hp]

lemma ensures_lock_mergeSaved {α : Type} {body : CacheM α} {Q : α → CacheSession → Prop}
    {E : CacheFault → CacheSession → Prop} (hfail : ∀ fault, E fault s)
    (hbody : ∀ t, s.files.Spares (· = lockPlace s.cache.root) t →
      Ensures ⟨{ s.cache with metadata := merged ⟨s.cache, t⟩ }, t⟩ body Q E) :
    Ensures s (do lock; mergeSaved; body) Q E := by
  refine ensures_bind.2 ((ensures_lock hr).mono ?_ fun fault u hu => hu ▸ hfail fault)
  rintro _ ⟨c, t⟩ ⟨rfl, ht⟩
  refine ensures_bind.2 ?_
  rw [Ensures, run_mergeSaved]
  exact hbody t ht

lemma ensures_save (hl : s.files.isFile (lockPlace s.cache.root) = true)
    (hd : s.files.find? (metadataPlace s.cache.root) ≠ some .directory) :
    Ensures s save
      (fun _ u => (∃ n, u.cache = { s.cache with temporaries := n, metadata := merged s }) ∧ ∀ p, u.files.find? p =
        if p = metadataPlace s.cache.root then some (.file (Bytes.utf8 (merged s).toText)) else s.files.find? p)
      fun _ _ => False := by
  refine ensures_bind.2 ?_
  rw [Ensures, run_lock hr hl]
  refine ensures_bind.2 ?_
  rw [Ensures, run_mergeSaved]
  exact (ensures_writeMetadata (s := { s with cache.metadata := merged s }) hr).mono (fun _ _ h => h)
    fun _ _ h => hd h.2.1

end Writing

end NamespaceMigration.Cache
