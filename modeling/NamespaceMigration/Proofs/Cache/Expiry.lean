import NamespaceMigration.Proofs.Cache.Pruning
import NamespaceMigration.Proofs.Calendar
import NamespaceMigration.Proofs.Files.Coverage

namespace NamespaceMigration.Cache

open FileTree CacheLayout Steps

section Latest

variable {s : CacheSession} {key : CacheKey} {d : Date}

def lastAccess? (s : CacheSession) (key : CacheKey) : Option Date :=
  Option.merge max (s.cache.metadata.get? key)
    (if s.files.isFile (objectPlace s.cache.root key) then (recorded s.cache.root s.files).get? key else none)

lemma merge_max_knows {x y : Option Date} :
    (∃ e, Option.merge max x y = some e ∧ d ≤ e) ↔ (∃ e, x = some e ∧ d ≤ e) ∨ ∃ e, y = some e ∧ d ≤ e := by
  cases x <;> cases y <;> simp

lemma eq_of_knows {x y : Option Date} (h : ∀ d, (∃ e, x = some e ∧ d ≤ e) ↔ ∃ e, y = some e ∧ d ≤ e) : x = y := by
  cases x with
  | none =>
    cases y with
    | none => rfl
    | some e => simpa using (h e).2 ⟨e, rfl, le_rfl⟩
  | some d =>
    obtain ⟨e, rfl, hle⟩ := (h d).1 ⟨d, rfl, le_rfl⟩
    obtain ⟨d', hd, hge⟩ := (h e).2 ⟨e, rfl, le_rfl⟩
    obtain rfl := Option.some.inj hd
    rw [le_antisymm hle hge]

lemma get?_merged_eq (s : CacheSession) (key : CacheKey) : (merged s).get? key = lastAccess? s key := by
  -- a day is known of an object just if it is known from one of the two sources
  refine eq_of_knows fun d => ?_
  rw [lastAccess?, merge_max_knows]
  refine knows_merged.trans (or_congr Iff.rfl ?_)
  cases s.files.isFile (objectPlace s.cache.root key) <;> simp [Metadata.Knows]

end Latest

section Directory

variable {root : Place} {t t' : FileTree} {key : CacheKey}

structure Shelved (root : Place) (t : FileTree) : Prop where
  reaches : t.Reaches root
  shard : ∀ key, t.find? (shardPlace root key) = none ∨ t.find? (shardPlace root key) = some .directory
  object : ∀ key, t.find? (objectPlace root key) = none ∨
    t.find? (shardPlace root key) = some .directory ∧ t.isFile (objectPlace root key) = true

lemma Shelved.congr (h : Shelved root t) (hr : t'.Reaches root)
    (hs : ∀ key, t'.find? (shardPlace root key) = t.find? (shardPlace root key))
    (ho : ∀ key, t'.find? (objectPlace root key) = none ∨ t'.find? (objectPlace root key) = t.find? (objectPlace root key)) :
    Shelved root t' where
  reaches := hr
  shard key := by
    rw [hs]
    exact h.shard key
  object key := by
    rcases ho key with hn | he
    · exact .inl hn
    · rw [hs, isFile, he]
      exact h.object key

lemma Shelved.status_of_file {content : Bytes} (h : Shelved root t)
    (hc : t.find? (objectPlace root key) = some (.file content)) :
    t.status (objectPlace root key) = .ok (.file content) := by
  have hshard := ((h.object key).resolve_left (by simp [hc])).1
  refine status_eq_ok_iff.2 ⟨?_, hc⟩
  simpa [objectPlace, shardPlace] using reaches_concat.2 ⟨h.reaches, hshard⟩

lemma Shelved.status_of_none (h : Shelved root t) (hn : t.find? (objectPlace root key) = none) :
    t.status (objectPlace root key) = .error .notFound := by
  have hdrop : (objectPlace root key).dropLast = root ++ [RawText.ofText key.shard] := by simp [objectPlace]
  have henter := @enter_append_of_reaches t [] root [key.shard] h.reaches
  rw [List.nil_append, enter, ← shardPlace] at henter
  rw [status, hdrop, ← shardPlace, henter]
  rcases h.shard key with hs | hs
  · rw [hs]
    rfl
  · rw [hs, hn]
    rfl

end Directory

section Removal

variable {root : Place} {t : FileTree} {s u v : CacheSession} {key : CacheKey} {keys : List CacheKey} {d : Date}

structure Pruned (keys : List CacheKey) (s u : CacheSession) : Prop where
  cache : u.cache = { s.cache with metadata := ⟨s.cache.metadata.entries.filter fun e => e.1 ∉ keys⟩ }
  gone : ∀ key ∈ keys, u.files.find? (objectPlace s.cache.root key) = none
  kept : ∀ p, (∀ key ∈ keys, p ≠ objectPlace s.cache.root key) → u.files.find? p = s.files.find? p

lemma Pruned.nil (s : CacheSession) : Pruned [] s s := ⟨by simp, by simp, fun _ _ => rfl⟩

lemma Pruned.root_eq (h : Pruned keys s u) : u.cache.root = s.cache.root := by rw [h.cache]

lemma Pruned.cons (h : Pruned [key] s u) (h' : Pruned keys u v) : Pruned (key :: keys) s v where
  cache := by
    rw [h'.cache, h.cache]
    simp [List.filter_filter, Bool.and_comm]
  gone := by
    have hrest := h'.gone
    rw [h.root_eq] at hrest
    refine List.forall_mem_cons.2 ⟨?_, hrest⟩
    by_cases hkey : key ∈ keys
    · exact hrest key hkey
    · rw [h'.kept, h.gone key List.mem_cons_self]
      rintro key' hkey' he
      rw [h.root_eq, objectPlace_inj] at he
      exact hkey (he ▸ hkey')
  kept p hp := by
    obtain ⟨hne, hall⟩ := List.forall_mem_cons.1 hp
    rw [h'.kept p (h.root_eq ▸ hall), h.kept p (by simpa using hne)]

lemma Pruned.find?_append (h : Pruned keys s u) (name : RawText) :
    u.files.find? (s.cache.root ++ [name]) = s.files.find? (s.cache.root ++ [name]) :=
  h.kept _ fun key _ => (objectPlace_ne_append s.cache.root key name).symm

lemma Pruned.reaches (h : Pruned keys s u) (hr : s.files.Reaches s.cache.root) : u.files.Reaches s.cache.root := by
  intro q hq
  rw [h.kept q, hr q hq]
  rintro key - rfl
  exact not_below_above hq (below_objectPlace _ key)

lemma Pruned.shelved (h : Pruned keys s u) (hs : Shelved s.cache.root s.files) : Shelved s.cache.root u.files := by
  refine hs.congr (h.reaches hs.reaches) (fun key => h.find?_append key.shard) fun key => ?_
  by_cases hkey : key ∈ keys
  · exact .inl (h.gone key hkey)
  · refine .inr (h.kept _ fun key' hkey' he => hkey ?_)
    rwa [objectPlace_inj.1 he]

lemma Pruned.get?_eq_some_iff (h : Pruned keys s u) (ho : s.cache.metadata.Ordered) :
    u.cache.metadata.get? key = some d ↔ s.cache.metadata.get? key = some d ∧ key ∉ keys := by
  have hrest : (⟨s.cache.metadata.entries.filter fun e => e.1 ∉ keys⟩ : Metadata).Ordered := List.Pairwise.filter _ ho
  rw [h.cache, hrest.get?_eq_some_iff, ho.get?_eq_some_iff, List.mem_filter, decide_eq_true_iff]

lemma Pruned.wellFormed (h : Pruned keys s u) (hw : s.cache.metadata.WellFormed) : u.cache.metadata.WellFormed where
  ordered := by
    rw [h.cache]
    exact List.Pairwise.filter _ hw.ordered
  valid key d hd := hw.valid key d ((h.get?_eq_some_iff hw.ordered).1 hd).1

def present (root : Place) (t : FileTree) (keys : List CacheKey) : List CacheKey :=
  keys.filter fun key => t.isFile (objectPlace root key)

def removal (root : Place) (t : FileTree) (keys : List CacheKey) (report : Pruning) : Pruning :=
  ⟨report.removed + (present root t keys).length,
    report.freed + ((present root t keys).map fun key => sizeAt t (objectPlace root key)).sum, report.retained⟩

lemma removal_congr {t' : FileTree} (h : ∀ key ∈ keys, t'.find? (objectPlace root key) = t.find? (objectPlace root key))
    (report : Pruning) : removal root t' keys report = removal root t keys report := by
  have hpresent : present root t' keys = present root t keys := by
    refine List.filter_congr fun key hkey => ?_
    rw [isFile, isFile, h key hkey]
  have hsizes : (present root t keys).map (fun key => sizeAt t' (objectPlace root key)) =
      (present root t keys).map fun key => sizeAt t (objectPlace root key) := by
    refine List.map_congr_left fun key hkey => ?_
    rw [sizeAt, sizeAt, h key (List.mem_of_mem_filter hkey)]
  rw [removal, removal, hpresent, hsizes]

lemma removal_cons (key : CacheKey) (keys : List CacheKey) (report : Pruning) :
    removal root t (key :: keys) report = removal root t keys (removal root t [key] report) := by
  simp only [removal, present, List.filter_cons, List.filter_nil]
  cases t.isFile (objectPlace root key) with
  | false => simp
  | true => simp [Nat.add_assoc, Nat.add_comm 1]

lemma ensures_pruneObject (h : Shelved s.cache.root s.files) (report : Pruning) (key : CacheKey) :
    Ensures s (pruneObject report key) (fun r u => Pruned [key] s u ∧ r = removal s.cache.root s.files [key] report)
      fun _ _ => False := by
  have herase : s.cache.metadata.erase key = ⟨s.cache.metadata.entries.filter fun e => e.1 ∉ [key]⟩ := by
    simp [Metadata.erase]
  refine ensures_get_bind.2 ?_
  dsimp only
  rcases h.object key with hn | ⟨-, hf⟩
  · rw [h.status_of_none hn]
    refine ⟨⟨by rw [← herase], ?_, fun _ _ => rfl⟩, by simp [removal, present, isFile, hn]⟩
    simpa using hn
  · obtain ⟨content, hc⟩ := isFile_iff.1 hf
    rw [h.status_of_file hc]
    refine ⟨⟨by rw [← herase], ?_, fun p hp => ?_⟩, by simp [removal, present, hf, sizeAt, hc]⟩
    · have hgone := @find?_erase s.files (objectPlace s.cache.root key) (objectPlace s.cache.root key)
      rw [if_pos ⟨rfl, (below_objectPlace _ key).ne_nil⟩] at hgone
      simpa using hgone
    · exact find?_erase.trans (if_neg fun he => hp key List.mem_cons_self he.1)

lemma ensures_foldlM_pruneObject (h : Shelved s.cache.root s.files) (hkeys : keys.Nodup) (report : Pruning) :
    Ensures s (keys.foldlM pruneObject report) (fun r u => Pruned keys s u ∧ r = removal s.cache.root s.files keys report)
      fun _ _ => False := by
  induction keys generalizing s report with
  | nil => exact ⟨.nil s, by simp [removal, present]⟩
  | cons key keys ih =>
    obtain ⟨hkey, hkeys⟩ := List.nodup_cons.1 hkeys
    rw [List.foldlM_cons]
    refine ensures_bind.2 ((ensures_pruneObject h report key).mono ?_ fun _ _ hf => hf)
    rintro _ u ⟨hu, rfl⟩
    have hshelved := hu.shelved h
    rw [← hu.root_eq] at hshelved
    refine (ih hshelved hkeys _).mono ?_ fun _ _ hf => hf
    rintro _ v ⟨hv, rfl⟩
    refine ⟨hu.cons hv, ?_⟩
    -- the sizes of the other objects are as they were
    rw [hu.root_eq]
    refine (removal_congr (fun key' hkey' => hu.kept _ ?_) _).trans (removal_cons key keys report).symm
    rintro key'' hkey'' he
    rw [objectPlace_inj.1 he] at hkey'
    exact hkey (List.mem_singleton.1 hkey'' ▸ hkey')

end Removal

section Expiry

variable {s u : CacheSession} {m : Metadata} {key : CacheKey} {d day cutoff : Date}

lemma nodup_expired (h : m.Ordered) (cutoff : Date) : (expired m cutoff).Nodup := by
  have hkeys : (m.entries.map Prod.fst).Pairwise (· ≠ ·) := by
    rw [List.pairwise_map]
    refine List.Pairwise.imp (fun hlt he => ?_) h
    rw [he] at hlt
    exact lt_irrefl _ hlt
  exact hkeys.sublist (List.filter_sublist.map Prod.fst)

def Expires (s : CacheSession) (day : Date) (key : CacheKey) : Prop :=
  ∃ d, lastAccess? s key = some d ∧ d.dayNumber + s.cache.retention < day.dayNumber

end Expiry

section Locking

variable {root : Place} {s : CacheSession} {t t' : FileTree} {key : CacheKey}

structure Tidy (root : Place) (t : FileTree) : Prop where
  directories : ∀ p n, (p <+: root ∨ ∃ key, p = shardPlace root key) → t.find? p = some n → n = .directory
  files : ∀ p n, (p = lockPlace root ∨ p = metadataPlace root ∨ ∃ key, p = objectPlace root key) → t.find? p = some n →
    ∃ content, n = .file content

structure Locked (root : Place) (t t' : FileTree) : Prop where
  reaches : t'.Reaches root
  spares : t.Spares (fun p => p <+: root ∨ p = lockPlace root) t'

lemma ensures_lock_of_tidy (h : Tidy s.cache.root s.files) :
    Ensures s lock (fun _ u => u.cache = s.cache ∧ Locked s.cache.root s.files u.files) fun _ _ => False := by
  obtain ⟨t, hmade, hspares⟩ : ∃ t, s.files.makeDirectories s.cache.root = .ok t ∧ s.files.Spares (· <+: s.cache.root) t :=
    @exists_makeBelow s.files [] s.cache.root fun p n hp => h.directories p n (.inl hp)
  have hr := (makeDirectories_eq_ok hmade).2
  have hbelow : Below s.cache.root (lockPlace s.cache.root) := below_append (by simp)
  have hlock : t.find? (lockPlace s.cache.root) = s.files.find? (lockPlace s.cache.root) :=
    hspares _ fun hp => not_below_above hp hbelow
  obtain ⟨t', hfile, hspares'⟩ := exists_lockFile hmade fun n hn => h.files _ n (.inl rfl) (hlock.symm.trans hn)
  have hrun : lock.run s = .ok () { s with files := t' } := run_onFiles_of_ok .io hfile
  rw [Ensures, hrun]
  refine ⟨rfl, hspares'.reaches ?_ hr, (hspares.mono fun _ => .inl).trans (hspares'.mono fun _ => .inr)⟩
  rintro p hp rfl
  exact not_below_above hp hbelow

namespace Locked

lemma find?_of_below {p : Place} (h : Locked root t t') (hp : Below root p) (hne : p ≠ lockPlace root) :
    t'.find? p = t.find? p :=
  h.spares p fun hnot => hnot.elim (fun habove => not_below_above habove hp) hne

lemma find?_objectPlace (h : Locked root t t') (key : CacheKey) :
    t'.find? (objectPlace root key) = t.find? (objectPlace root key) :=
  h.find?_of_below (below_objectPlace root key) (objectPlace_ne_append root key lockName)

lemma find?_shardPlace (h : Locked root t t') (key : CacheKey) :
    t'.find? (shardPlace root key) = t.find? (shardPlace root key) :=
  h.find?_of_below (below_append (by simp)) (ne_of_prefix_shardPlace (by decide) List.prefix_rfl)

lemma find?_metadataPlace (h : Locked root t t') : t'.find? (metadataPlace root) = t.find? (metadataPlace root) :=
  h.find?_of_below (below_append (by simp)) (by simp [metadataPlace, lockPlace, Metadata.fileName, lockName])

lemma shelved (h : Locked root t t') (hrooted : t.Rooted) (ht : Tidy root t) : Shelved root t' where
  reaches := h.reaches
  shard key := by
    rw [h.find?_shardPlace]
    cases hn : t.find? (shardPlace root key) with
    | none => exact .inl rfl
    | some n => exact .inr (congrArg some (ht.directories _ n (.inr ⟨key, rfl⟩) hn))
  object key := by
    rw [h.find?_shardPlace, isFile, h.find?_objectPlace]
    cases hn : t.find? (objectPlace root key) with
    | none => exact .inl rfl
    | some n =>
      obtain ⟨content, rfl⟩ := ht.files _ n (.inr (.inr ⟨key, rfl⟩)) hn
      refine .inr ⟨hrooted.parents _ _ hn _ ?_, rfl⟩
      simp [objectPlace, shardPlace]

lemma recorded_eq (h : Locked root t t') (hrooted : t.Rooted) : recorded root t' = recorded root t := by
  cases hn : t.find? (metadataPlace root) with
  | none =>
    have hn' : t'.find? (metadataPlace root) = none := h.find?_metadataPlace.trans hn
    rw [recorded_of_forall_ne (by simp [hn']), recorded_of_forall_ne (by simp [hn])]
  | some n => exact recorded_congr (by simpa [metadataPlace] using hrooted.parents _ n hn) h.reaches h.find?_metadataPlace

lemma lastAccess?_eq (h : Locked s.cache.root s.files t) (hrooted : s.files.Rooted) (key : CacheKey) :
    lastAccess? ⟨s.cache, t⟩ key = lastAccess? s key := by
  rw [lastAccess?, lastAccess?, isFile, h.find?_objectPlace, h.recorded_eq hrooted, isFile]

end Locked

end Locking

section Pruning

variable {s u v : CacheSession} {t : FileTree} {keys : List CacheKey} {day : Date}

/-- What pruning on a day comes to: the objects that expire are deleted, what expires is forgotten, and the rest is recorded. -/
structure PrunedOn (day : Date) (s : CacheSession) (deleted : List CacheKey) (report : Pruning) (u : CacheSession) : Prop where
  nodup : deleted.Nodup
  mem_deleted : ∀ key, key ∈ deleted ↔ Expires s day key ∧ s.files.isFile (objectPlace s.cache.root key) = true
  gone : ∀ key ∈ deleted, u.files.find? (objectPlace s.cache.root key) = none
  spares : s.files.Spares (fun p => p <+: s.cache.root ∨ p = lockPlace s.cache.root ∨ p = metadataPlace s.cache.root ∨
    ∃ key ∈ deleted, p = objectPlace s.cache.root key) u.files
  cache : ∃ n, u.cache = { s.cache with temporaries := n, metadata := u.cache.metadata }
  wellFormed : u.cache.metadata.WellFormed
  known : ∀ key d, u.cache.metadata.get? key = some d ↔ lastAccess? s key = some d ∧ ¬ Expires s day key
  written : u.files.find? (metadataPlace s.cache.root) = some (.file (Bytes.utf8 u.cache.metadata.toText))
  read : ∀ key, (recorded s.cache.root u.files).get? key = (u.cache.metadata.get? key).bind fun d => Date.parse? d.toText
  report_eq : report = ⟨deleted.length, (deleted.map fun key => sizeAt s.files (objectPlace s.cache.root key)).sum,
    u.cache.metadata.entries.length⟩

lemma mem_expired_merged (hrooted : s.files.Rooted) (hw : s.cache.metadata.WellFormed) (hday : day.isValid = true)
    (ht : Locked s.cache.root s.files t) {key : CacheKey} :
    key ∈ expired (merged ⟨s.cache, t⟩) (day.back s.cache.retention) ↔ Expires s day key := by
  have hmerged : (merged ⟨s.cache, t⟩).WellFormed := wellFormed_merged hw
  rw [mem_expired_iff hmerged.ordered, Expires]
  refine exists_congr fun d => ?_
  rw [← ht.lastAccess?_eq hrooted, ← get?_merged_eq]
  exact and_congr_right fun hd => Date.lt_back_iff (hmerged.valid key d hd) hday _

lemma prunedOn_of_pruned (hrooted : s.files.Rooted) (htidy : Tidy s.cache.root s.files) (hw : s.cache.metadata.WellFormed)
    (ht : Locked s.cache.root s.files t)
    (hkeys : ∀ key, key ∈ keys ↔ Expires s day key) (hnodup : keys.Nodup)
    (hu : Pruned keys ⟨{ s.cache with metadata := merged ⟨s.cache, t⟩ }, t⟩ u) (hr : u.files.Reaches s.cache.root)
    (hcache : ∃ n, v.cache = { u.cache with temporaries := n })
    (hfiles : ∀ p, v.files.find? p =
      if p = metadataPlace s.cache.root then some (.file (Bytes.utf8 u.cache.metadata.toText)) else u.files.find? p) :
    PrunedOn day s (present s.cache.root s.files keys)
      { removal s.cache.root t keys ⟨0, 0, 0⟩ with retained := u.cache.metadata.entries.length } v := by
  have hmerged : (merged ⟨s.cache, t⟩).WellFormed := wellFormed_merged hw
  have hrest := hu.wellFormed hmerged
  obtain ⟨n, hcache⟩ := hcache
  have hmetadata : v.cache.metadata = u.cache.metadata := by rw [hcache]
  have hobject : ∀ key, v.files.find? (objectPlace s.cache.root key) = u.files.find? (objectPlace s.cache.root key) :=
    fun key => (hfiles _).trans (if_neg (objectPlace_ne_append _ key _))
  have hwritten : v.files.find? (metadataPlace s.cache.root) = some (.file (Bytes.utf8 v.cache.metadata.toText)) := by
    rw [hfiles, if_pos rfl, hmetadata]
  have hreach : v.files.Reaches s.cache.root := by
    intro p hp
    rw [hfiles, if_neg, hr p hp]
    rintro rfl
    exact not_below_above hp (below_append (by simp))
  refine ⟨hnodup.filter _, fun key => ?_, fun key hkey => ?_, fun p hp => ?_, ⟨n, ?_⟩, hmetadata ▸ hrest, fun key d => ?_,
    hwritten, fun key => ?_, ?_⟩
  · rw [present, List.mem_filter, hkeys]
  · rw [hobject]
    exact hu.gone key (List.mem_of_mem_filter hkey)
  · simp only [not_or, not_exists, not_and] at hp
    obtain ⟨habove, hlock, hplace, hdeleted⟩ := hp
    rw [hfiles, if_neg hplace]
    by_cases hexpired : ∃ key ∈ keys, p = objectPlace s.cache.root key
    · -- an object that expires and is not deleted is not there
      obtain ⟨key, hkey, rfl⟩ := hexpired
      rw [hu.gone key hkey]
      cases hn : s.files.find? (objectPlace s.cache.root key) with
      | none => rfl
      | some n =>
        obtain ⟨content, rfl⟩ := htidy.files _ n (.inr (.inr ⟨key, rfl⟩)) hn
        exact absurd rfl (hdeleted key (List.mem_filter.2 ⟨hkey, isFile_iff.2 ⟨content, hn⟩⟩))
    · rw [hu.kept p fun key hkey he => hexpired ⟨key, hkey, he⟩]
      exact ht.spares p (not_or.2 ⟨habove, hlock⟩)
  · rw [hcache, hu.cache]
  · rw [hmetadata, hu.get?_eq_some_iff hmerged.ordered, hkeys, get?_merged_eq, ht.lastAccess?_eq hrooted]
  · rw [recorded_of_file hreach hwritten, Metadata.get?_parse_toText (hmetadata ▸ hrest.ordered)]
  · rw [removal_congr fun key _ => ht.find?_objectPlace key, hmetadata]
    simp [removal]

lemma ensures_prune_of_tidy (hrooted : s.files.Rooted) (ht : Tidy s.cache.root s.files) (hw : s.cache.metadata.WellFormed)
    (hday : day.isValid = true) :
    Ensures s (prune day) (fun report u => ∃ deleted, PrunedOn day s deleted report u) fun _ _ => False := by
  refine ensures_bind.2 ((ensures_lock_of_tidy ht).mono ?_ fun _ _ hf => hf)
  rintro _ ⟨_, t⟩ ⟨rfl, hlocked⟩
  refine ensures_bind.2 ?_
  rw [Ensures, run_mergeSaved]
  have hmerged : (merged ⟨s.cache, t⟩).WellFormed := wellFormed_merged hw
  refine ensures_get_bind.2 (ensures_bind.2 ((ensures_foldlM_pruneObject (hlocked.shelved hrooted ht)
    (nodup_expired hmerged.ordered _) ⟨0, 0, 0⟩).mono ?_ fun _ _ hf => hf))
  rintro _ u ⟨hu, rfl⟩
  have hr : u.files.Reaches s.cache.root := hu.reaches hlocked.reaches
  have hmetadata : u.files.find? (metadataPlace s.cache.root) = s.files.find? (metadataPlace s.cache.root) :=
    (hu.find?_append _).trans hlocked.find?_metadataPlace
  refine ensures_get_bind.2 (ensures_bind.2 ((ensures_writeMetadata (hu.root_eq ▸ hr)).mono ?_ ?_))
  · rintro _ v ⟨hcache, hfiles⟩
    exact ⟨_, prunedOn_of_pruned hrooted ht hw hlocked (fun key => mem_expired_merged hrooted hw hday hlocked)
      (nodup_expired hmerged.ordered _) hu hr hcache (hu.root_eq ▸ hfiles)⟩
  · -- no directory is in the place of the metadata
    rintro _ v ⟨-, hd, -⟩
    rw [hu.root_eq] at hd
    obtain ⟨content, he⟩ := ht.files _ _ (.inr (.inl rfl)) (hmetadata.symm.trans hd)
    cases he

lemma le_of_lastAccess?_eq {key : CacheKey} {d e : Date} (he : lastAccess? s key = some e)
    (hf : s.files.isFile (objectPlace s.cache.root key) = true)
    (hd : s.cache.metadata.get? key = some d ∨ (recorded s.cache.root s.files).get? key = some d) : d ≤ e := by
  rw [lastAccess?, if_pos hf] at he
  obtain ⟨e', he', hle⟩ := merge_max_knows.2 (hd.imp (fun h => ⟨d, h, le_rfl⟩) fun h => ⟨d, h, le_rfl⟩)
  rwa [Option.some.inj (he.symm.trans he')]

/-- In a cache directory where nothing is in the way, pruning ends well: it deletes the objects that expire, forgets what
expires, and records and reports the rest. Of what it deletes no access on that day or later is known. -/
theorem exists_prunedOn (hrooted : s.files.Rooted) (ht : Tidy s.cache.root s.files) (hw : s.cache.metadata.WellFormed)
    (hday : day.isValid = true) :
    ∃ deleted report u, (prune day).run s = .ok report u ∧ PrunedOn day s deleted report u ∧
      ∀ key ∈ deleted, ∀ d, s.cache.metadata.get? key = some d ∨ (recorded s.cache.root s.files).get? key = some d → d < day := by
  obtain ⟨report, u, hrun, deleted, hpruned⟩ := (ensures_prune_of_tidy hrooted ht hw hday).exists_ok
  refine ⟨deleted, report, u, hrun, hpruned, fun key hkey d hd => ?_⟩
  obtain ⟨⟨e, he, hlt⟩, hf⟩ := (hpruned.mem_deleted key).1 hkey
  have hvalid : e.isValid = true := (wellFormed_merged hw).valid key e ((get?_merged_eq s key).trans he)
  refine (le_of_lastAccess?_eq he hf hd).trans_lt ((Date.dayNumber_lt_iff hvalid hday).1 ?_)
  omega

theorem exists_prunedOn_of_object :
    let key : CacheKey := ⟨"0123456789abcdef0123456789abcdef0123456789abcdef0123456789abcdef", by decide⟩
    let t : FileTree := ⟨[(["cache"], .directory), (["cache", "01"], .directory), (objectPlace ["cache"] key, .file [1, 2, 3]),
      (metadataPlace ["cache"], .file (Bytes.utf8 (Metadata.toText ⟨[(key, ⟨2024, 2, 1⟩)]⟩)))], []⟩
    let s : CacheSession := ⟨⟨"cache", ["cache"], 30, 7, 0, ⟨[(key, ⟨2024, 1, 5⟩)]⟩⟩, t⟩
    ∃ deleted report u, (prune ⟨2024, 3, 15⟩).run s = .ok report u ∧ PrunedOn ⟨2024, 3, 15⟩ s deleted report u ∧
      key ∈ deleted := by
  intro key t s
  have hrooted : t.Rooted := rooted_of_forall_mem ⟨by decide +kernel, by decide +kernel⟩ (by decide +kernel) (by decide +kernel)
  have hnodes : ∀ p n, t.find? p = some n → p ≠ [] →
      p = ["cache"] ∧ n = .directory ∨ p = ["cache", "01"] ∧ n = .directory ∨
      p = objectPlace ["cache"] key ∧ (∃ content, n = .file content) ∨
      p = metadataPlace ["cache"] ∧ ∃ content, n = .file content := by
    intro p n hn hp
    have hmem := mem_nodes_of_find? hp hn
    simp only [t, List.mem_cons, Prod.mk.injEq, List.not_mem_nil, or_false] at hmem
    exact hmem.imp_right (.imp_right (.imp (.imp_right fun h => ⟨_, h⟩) (.imp_right fun h => ⟨_, h⟩)))
  have htidy : Tidy ["cache"] t := by
    refine ⟨fun p n hp hn => ?_, fun p n hp hn => ?_⟩
    · by_cases hnil : p = []
      · rw [hnil, find?_nil] at hn
        exact (Option.some.inj hn).symm
      rcases hnodes p n hn hnil with ⟨-, rfl⟩ | ⟨-, rfl⟩ | ⟨rfl, -⟩ | ⟨rfl, -⟩
      · rfl
      · rfl
      · rcases hp with hp | ⟨key', hp⟩
        · exact absurd (below_objectPlace _ key) (not_below_above hp)
        · exact absurd hp (objectPlace_ne_shardPlace _ key key')
      · rcases hp with hp | ⟨key', hp⟩
        · exact absurd (below_append (by simp)) (not_below_above hp)
        · exact absurd hp.symm (ne_of_prefix_shardPlace (by decide) List.prefix_rfl)
    · have hbelow : Below ["cache"] p := by
        rcases hp with rfl | rfl | ⟨key', rfl⟩
        · exact below_append (by simp)
        · exact below_append (by simp)
        · exact below_objectPlace _ key'
      rcases hnodes p n hn hbelow.ne_nil with ⟨rfl, -⟩ | ⟨rfl, -⟩ | ⟨-, h⟩ | ⟨-, h⟩
      · exact absurd rfl hbelow.2
      · rcases hp with hp | hp | ⟨key', hp⟩
        · exact absurd hp (by decide)
        · exact absurd hp (by decide)
        · exact absurd hp.symm (objectPlace_ne_append _ key' "01")
      · exact h
      · exact h
  have hw : s.cache.metadata.WellFormed := by
    refine ⟨List.pairwise_singleton _ _, fun key' d hd => ?_⟩
    obtain ⟨-, rfl⟩ := Prod.mk.inj (List.mem_singleton.1 (Metadata.mem_of_get? hd))
    decide
  obtain ⟨deleted, report, u, hrun, hpruned, -⟩ := @exists_prunedOn s ⟨2024, 3, 15⟩ hrooted htidy hw (by decide)
  have hrecorded : recorded ["cache"] t = ⟨[(key, ⟨2024, 2, 1⟩)]⟩ := by
    have hfile : t.find? (metadataPlace ["cache"]) = some (.file (Bytes.utf8 (Metadata.toText ⟨[(key, ⟨2024, 2, 1⟩)]⟩))) := by
      decide +kernel
    rw [recorded_of_file (hrooted.reaches (by decide)) hfile, Metadata.parse_toText (List.pairwise_singleton _ _)]
    decide +kernel
  have hlast : lastAccess? s key = some ⟨2024, 2, 1⟩ := by
    rw [lastAccess?, hrecorded]
    decide +kernel
  exact ⟨deleted, report, u, hrun, hpruned, (hpruned.mem_deleted key).2 ⟨⟨_, hlast, by decide⟩, by decide +kernel⟩⟩

end Pruning

end NamespaceMigration.Cache
