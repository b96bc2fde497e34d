import NamespaceMigration.Proofs.Cache.Saving

/-! What a handle knows of an object when it prunes. -/

namespace NamespaceMigration

open FileTree CacheLayout Steps

namespace CacheSession

structure Knowing (root : Place) (key : CacheKey) (d : Date) (u : CacheSession) : Prop where
  root_eq : u.cache.root = root
  reaches : u.files.Reaches (shardPlace root key)
  wellFormed : u.cache.metadata.WellFormed
  known : u.files.isFile (objectPlace root key) = true → u.cache.metadata.Knows key d

variable {root : Place} {key : CacheKey} {d : Date} {s u : CacheSession} {t : FileTree}

end CacheSession

namespace Cache

variable {root : Place} {key : CacheKey} {d : Date} {s u : CacheSession}

lemma knowing_merged (hroot : s.cache.root = root) (hr : s.files.Reaches (shardPlace root key))
    (hw : s.cache.metadata.WellFormed)
    (h : s.cache.metadata.Knows key d ∨ (recorded root s.files).Knows key d) :
    CacheSession.Knowing root key d { s with cache.metadata := merged s } := by
  refine ⟨hroot, hr, wellFormed_merged hw, fun hf => knows_merged.2 ?_⟩
  rw [hroot]
  exact h.imp_right fun hk => ⟨hf, hk⟩

lemma knowing_pruneObject (report : Pruning) (k : CacheKey) :
    Keeps (CacheSession.Knowing root key d) (pruneObject report k) := by
  refine .get fun u hu => ?_
  have hroot := hu.root_eq
  dsimp only
  cases hs : u.files.status (objectPlace u.cache.root k) with
  | ok n =>
    cases n with
    | file content =>
      refine ⟨hroot, fun q hq => ?_, hu.wellFormed.erase, fun hf => ?_⟩
      · have hne : q ≠ objectPlace u.cache.root k := by
          rintro rfl
          have hlen := hq.length_le
          simp [objectPlace, shardPlace, hroot] at hlen
        exact (find?_erase.trans (if_neg fun h => hne h.1)).trans (hu.reaches q hq)
      · change (u.files.erase (objectPlace u.cache.root k)).isFile (objectPlace root key) = true at hf
        rw [isFile, find?_erase, hroot] at hf
        split_ifs at hf with hk
        · cases hf
        · have hne : key ≠ k := fun h => hk ⟨congrArg _ h, (below_objectPlace root key).ne_nil⟩
          exact Metadata.knows_erase.2 ⟨hne, hu.known hf⟩
    | directory => exact hu
    | link target => exact hu
  | error fault =>
    cases fault with
    | notFound =>
      refine ⟨hroot, hu.reaches, hu.wellFormed.erase, fun hf => ?_⟩
      refine Metadata.knows_erase.2 ⟨?_, hu.known hf⟩
      rintro rfl
      -- the directory of the object is there, so that it is the object that is not
      obtain ⟨content, hc⟩ := isFile_iff.1 hf
      have hstatus : u.files.status (objectPlace root key) = .ok (.file content) :=
        status_eq_ok_iff.2 ⟨by simpa [objectPlace, shardPlace] using hu.reaches, hc⟩
      rw [hroot, hstatus] at hs
      cases hs
    | _ => exact hu

lemma keeps_find?_pruneObject {p : Place} {n : Option Node} {k : CacheKey} (hp : p ≠ objectPlace root k)
    (report : Pruning) : Keeps (fun u => u.cache.root = root ∧ u.files.find? p = n) (pruneObject report k) := by
  refine .get fun u hu => ?_
  obtain ⟨hroot, hn⟩ := hu
  dsimp only
  cases u.files.status (objectPlace u.cache.root k) with
  | ok m =>
    cases m with
    | file content =>
      refine ⟨hroot, ?_⟩
      change (u.files.erase (objectPlace u.cache.root k)).find? p = n
      rw [find?_erase, if_neg, hn]
      rintro ⟨h, -⟩
      exact hp (hroot ▸ h)
    | directory => exact ⟨hroot, hn⟩
    | link target => exact ⟨hroot, hn⟩
  | error fault =>
    cases fault with
    | notFound => exact ⟨hroot, hn⟩
    | _ => exact ⟨hroot, hn⟩

lemma keeps_foldlM_pruneObject {n : Option Node} (keys : List CacheKey) (report : Pruning) :
    Keeps (fun u => u.Knowing root key d ∧ u.cache.root = root ∧ u.files.find? (metadataPlace root) = n)
      (keys.foldlM pruneObject report) := by
  refine .foldlM (fun k _ report => (knowing_pruneObject report k).and ?_) report
  exact keeps_find?_pruneObject (objectPlace_ne_append root k Metadata.fileName).symm report

lemma mem_expired_iff {m : Metadata} {cutoff : Date} (hm : m.Ordered) :
    key ∈ expired m cutoff ↔ ∃ e, m.get? key = some e ∧ e < cutoff := by
  rw [expired, List.mem_map]
  constructor
  · rintro ⟨⟨k, e⟩, hmem, rfl⟩
    obtain ⟨hmem, hlt⟩ := List.mem_filter.1 hmem
    exact ⟨e, hm.get?_eq_some_iff.2 hmem, Date.isBefore_iff.1 hlt⟩
  · rintro ⟨e, he, hlt⟩
    exact ⟨(key, e), List.mem_filter.2 ⟨hm.get?_eq_some_iff.1 he, Date.isBefore_iff.2 hlt⟩, rfl⟩

lemma notMem_expired {m : Metadata} {cutoff : Date} (hm : m.Ordered) (h : m.Knows key d) (hd : cutoff ≤ d) :
    key ∉ expired m cutoff := by
  rw [mem_expired_iff hm]
  rintro ⟨e, he, hlt⟩
  obtain ⟨e', he', hle⟩ := h
  obtain rfl := Option.some.inj (he'.symm.trans he)
  exact (hd.trans hle).not_gt hlt

lemma ensures_writeMetadata_of_knowing (h : s.Knowing root key d) (hd : d.Written) :
    Ensures s writeMetadata
      (fun _ u => u.files.find? (objectPlace root key) = s.files.find? (objectPlace root key) ∧
        (u.files.isFile (objectPlace root key) = true →
          u.cache.metadata.Knows key d ∧ (recorded root u.files).Knows key d))
      fun _ u => u.files.find? (objectPlace root key) = s.files.find? (objectPlace root key) ∧
        (u.files.isFile (objectPlace root key) = true → u.cache.metadata.Knows key d) ∧
        recorded root u.files = recorded root s.files := by
  have hreach : s.files.Reaches root := h.reaches.of_prefix (List.prefix_append root [key.shard])
  have hobject : objectPlace root key ≠ metadataPlace root := objectPlace_ne_append root key Metadata.fileName
  refine (ensures_writeMetadata (h.root_eq ▸ hreach)).mono ?_ ?_
  · rintro _ u ⟨⟨n, hcache⟩, hfiles⟩
    rw [h.root_eq] at hfiles
    have hsame := (hfiles (objectPlace root key)).trans (if_neg hobject)
    have hreach' : u.files.Reaches root := fun q hq => by
      have hne : q ≠ metadataPlace root := by
        rintro rfl
        have hlen := hq.length_le
        simp [metadataPlace] at hlen
      rw [hfiles, if_neg hne, hreach q hq]
    refine ⟨hsame, fun hf => ?_⟩
    rw [isFile, hsame] at hf
    refine ⟨?_, ?_⟩
    · rw [hcache]
      exact h.known hf
    · rw [recorded_of_file hreach' ((hfiles _).trans (if_pos rfl))]
      exact Metadata.knows_parse_toText h.wellFormed hd (h.known hf)
  · rintro _ u ⟨⟨n, hcache⟩, -, hfiles⟩
    have hreach' : u.files.Reaches root := fun q hq => (hfiles q).trans (hreach q hq)
    refine ⟨hfiles _, fun hf => ?_, recorded_congr hreach hreach' (hfiles _)⟩
    rw [isFile, hfiles] at hf
    rw [hcache]
    exact h.known hf

structure Retained (root : Place) (key : CacheKey) (d : Date) (ok : Prop) (s u : CacheSession) : Prop where
  known : s.cache.metadata.Knows key d → u.files.isFile (objectPlace root key) = true → u.cache.metadata.Knows key d
  recorded : ok ∧ s.cache.metadata.Knows key d ∨ (recorded root s.files).Knows key d →
    u.files.isFile (objectPlace root key) = true → (Cache.recorded root u.files).Knows key d

lemma Retained.self (s : CacheSession) : Retained root key d False s s :=
  ⟨fun h _ => h, fun h _ => h.resolve_left fun h => h.1⟩

lemma Retained.of_not_known {ok : Prop} (h : ¬ (s.cache.metadata.Knows key d ∨ (Cache.recorded root s.files).Knows key d)) :
    Retained root key d ok s u :=
  ⟨fun hk => absurd (.inl hk) h, fun hk => absurd (hk.imp_left fun hk => hk.2) h⟩

lemma Retained.mono {ok ok' : Prop} (h : Retained root key d ok s u) (hok : ok' → ok) : Retained root key d ok' s u :=
  ⟨h.known, fun hk => h.recorded (hk.imp_left fun hk => ⟨hok hk.1, hk.2⟩)⟩

section Maintenance

variable (hroot : s.cache.root = root) (hr : s.files.Reaches (shardPlace root key)) (hw : s.cache.metadata.WellFormed)
  (hd : d.Written)
include hroot hr hw

lemma knowing_of_spares {t : FileTree} (hk : s.cache.metadata.Knows key d ∨ (recorded root s.files).Knows key d)
    (ht : s.files.Spares (· = lockPlace s.cache.root) t) :
    CacheSession.Knowing root key d ⟨{ s.cache with metadata := merged ⟨s.cache, t⟩ }, t⟩ ∧
      recorded root t = recorded root s.files := by
  rw [hroot] at ht
  have hreach : t.Reaches (shardPlace root key) := ht.reaches (fun q hq => ne_of_prefix_shardPlace (by decide) hq) hr
  have hsame : recorded root t = recorded root s.files :=
    recorded_congr (hr.of_prefix (List.prefix_append root [key.shard])) (hreach.of_prefix (List.prefix_append root [key.shard]))
      (ht _ (by simp [lockPlace, metadataPlace, lockName, Metadata.fileName]))
  refine ⟨?_, hsame⟩
  rw [← hsame] at hk
  exact knowing_merged (s := ⟨s.cache, t⟩) hroot hreach hw hk

include hd

lemma retained_save : Ensures s save (fun _ u => Retained root key d True s u) fun _ u => Retained root key d False s u := by
  by_cases hk : s.cache.metadata.Knows key d ∨ (recorded root s.files).Knows key d
  · refine ensures_lock_mergeSaved (hroot ▸ hr.of_prefix (List.prefix_append root [key.shard])) (fun _ => .self s)
      fun t ht => ?_
    obtain ⟨hknowing, hsame⟩ := knowing_of_spares hroot hr hw hk ht
    refine (ensures_writeMetadata_of_knowing hknowing hd).mono ?_ ?_
    · rintro _ u ⟨-, hu⟩
      exact ⟨fun _ hf => (hu hf).1, fun _ hf => (hu hf).2⟩
    · rintro _ u ⟨-, hu, hrecorded⟩
      refine ⟨fun _ hf => hu hf, fun hk _ => ?_⟩
      rw [hrecorded, hsame]
      exact hk.resolve_left fun h => h.1
  · exact (ensures_true s save).mono (fun _ _ _ => .of_not_known hk) fun _ _ _ => .of_not_known hk

lemma retained_prune (day : Date) :
    Ensures s (prune day) (fun _ u => Retained root key d True s u) fun _ u => Retained root key d False s u := by
  by_cases hk : s.cache.metadata.Knows key d ∨ (recorded root s.files).Knows key d
  · refine ensures_lock_mergeSaved (hroot ▸ hr.of_prefix (List.prefix_append root [key.shard])) (fun _ => .self s)
      fun t ht => ?_
    obtain ⟨hknowing, hsame⟩ := knowing_of_spares hroot hr hw hk ht
    have hrecorded : ∀ u : CacheSession, u.Knowing root key d → u.files.find? (metadataPlace root) = t.find? (metadataPlace root) →
        recorded root u.files = recorded root s.files := by
      intro u hu hfile
      rw [← hsame]
      exact recorded_congr (hknowing.reaches.of_prefix (List.prefix_append root [key.shard]))
        (hu.reaches.of_prefix (List.prefix_append root [key.shard])) hfile
    refine ensures_get_bind.2 (ensures_bind.2 ?_)
    refine (keeps_foldlM_pruneObject _ _ _ ⟨hknowing, hroot, rfl⟩).mono ?_ ?_
    · rintro report u ⟨hu, -, hfile⟩
      refine ensures_get_bind.2 (ensures_bind.2 ((ensures_writeMetadata_of_knowing hu hd).mono ?_ ?_))
      · rintro _ v ⟨-, hv⟩
        exact ⟨fun _ hf => (hv hf).1, fun _ hf => (hv hf).2⟩
      · rintro _ v ⟨-, hv, hsame'⟩
        refine ⟨fun _ hf => hv hf, fun hk _ => ?_⟩
        rw [hsame', hrecorded u hu hfile]
        exact hk.resolve_left fun h => h.1
    · rintro _ u ⟨hu, -, hfile⟩
      refine ⟨fun _ hf => hu.known hf, fun hk _ => ?_⟩
      rw [hrecorded u hu hfile]
      exact hk.resolve_left fun h => h.1
  · exact (ensures_true s _).mono (fun _ _ _ => .of_not_known hk) fun _ _ _ => .of_not_known hk

lemma find?_prune (hk : s.cache.metadata.Knows key d ∨ (recorded root s.files).Knows key d) (day : Date)
    (hcutoff : day.back s.cache.retention ≤ d) (hobject : s.files.isFile (objectPlace root key) = true) :
    Ensures s (prune day)
      (fun _ u => u.files.find? (objectPlace root key) = s.files.find? (objectPlace root key))
      fun _ u => u.files.find? (objectPlace root key) = s.files.find? (objectPlace root key) := by
  refine ensures_lock_mergeSaved (hroot ▸ hr.of_prefix (List.prefix_append root [key.shard])) (fun _ => rfl) fun t ht => ?_
  obtain ⟨hknowing, -⟩ := knowing_of_spares hroot hr hw hk ht
  have hsame : t.find? (objectPlace root key) = s.files.find? (objectPlace root key) :=
    ht _ (hroot ▸ objectPlace_ne_append root key lockName)
  have hknown := hknowing.known (by rwa [isFile, hsame])
  have hkept : key ∉ expired (merged ⟨s.cache, t⟩) (day.back s.cache.retention) :=
    notMem_expired hknowing.wellFormed.ordered hknown hcutoff
  refine ensures_get_bind.2 (ensures_bind.2 ?_)
  have hfold : Keeps (fun u => u.Knowing root key d ∧ u.cache.root = root ∧
      u.files.find? (objectPlace root key) = s.files.find? (objectPlace root key))
      ((expired (merged ⟨s.cache, t⟩) (day.back s.cache.retention)).foldlM pruneObject ⟨0, 0, 0⟩) := by
    refine .foldlM (fun k hmem report => (knowing_pruneObject report k).and (keeps_find?_pruneObject ?_ report)) _
    rw [ne_eq, objectPlace_inj]
    rintro rfl
    exact hkept hmem
  refine (hfold _ ⟨hknowing, hroot, hsame⟩).mono ?_ fun _ u hu => hu.2.2
  rintro report u ⟨hu, -, hfile⟩
  refine ensures_get_bind.2 (ensures_bind.2 ((ensures_writeMetadata_of_knowing hu hd).mono ?_ ?_))
  · exact fun _ v hv => hv.1.trans hfile
  · exact fun _ v hv => hv.1.trans hfile

end Maintenance

end Cache

end NamespaceMigration
