import NamespaceMigration.Proofs.Cache.MetadataLines
import NamespaceMigration.Proofs.Cache.Opening
import NamespaceMigration.Proofs.Cache.Saving
import NamespaceMigration.Proofs.Files.Listing
import NamespaceMigration.Proofs.Files.Spelling

/-! Opening a cache on whatever its directory has. -/

namespace NamespaceMigration

open FileTree

variable {t : FileTree} {root cwd : Place} {path : RawText} {key : CacheKey} {d today : Date}

namespace CacheLayout

variable {shard name : RawText}

lemma length_utf8_shard (key : CacheKey) : (Bytes.utf8 key.shard).length = 2 := by
  have hsize : ∀ c ∈ key.shard.toList, c.utf8Size = 1 := by
    intro c hc
    rw [CacheKey.shard, String.toList_ofList] at hc
    have hdigit := Metadata.toNat_of_isHashDigit (Metadata.isHashDigit_of_mem_text (List.mem_of_mem_take hc))
    rw [Char.utf8Size_eq_one_iff, UInt32.le_iff_toNat_le]
    change c.toNat ≤ 127
    omega
  rw [Bytes.utf8_eq_flatMap, List.length_flatMap,
    List.map_congr_left fun c hc => (String.length_utf8EncodeChar c).trans (hsize c hc), List.map_const', length_shard]
  rfl

lemma hashOf?_eq_some_iff : hashOf? shard name = some key ↔ shard = .ofText key.shard ∧ name = .ofText key.objectName := by
  constructor
  · intro h
    obtain ⟨text, htext, h⟩ := Option.bind_eq_some_iff.1 h
    obtain ⟨stem, hstem, h⟩ := Option.bind_eq_some_iff.1 h
    obtain ⟨key', hkey, h⟩ := Option.bind_eq_some_iff.1 h
    split_ifs at h with hshard
    obtain rfl := Option.some.inj h
    obtain rfl := RawText.text?_eq_some_iff.1 htext
    have hparsed := CacheKey.parse?_eq_some_iff.1 hkey
    have hname := Text.strip?_eq_some_iff.1 hstem
    refine ⟨hshard.symm, RawText.ofText_inj.2 (String.toList_inj.1 ?_)⟩
    rw [CacheKey.objectName, String.toList_append, hparsed, String.toList_ofList, ← List.reverse_inj, hname]
    simp
  · rintro ⟨rfl, rfl⟩
    have hstem : Text.strip? ".jar".toList.reverse key.objectName.toList.reverse = some key.text.toList.reverse := by
      rw [Text.strip?_eq_some_iff, CacheKey.objectName, String.toList_append, List.reverse_append]
    have hkey : CacheKey.parse? (String.ofList key.text.toList.reverse.reverse) = some key := by
      rw [List.reverse_reverse, String.ofList_toList, CacheKey.parse?_eq_some_iff]
    simp only [hashOf?, RawText.text?_ofText, hstem, Option.bind_eq_bind, Option.bind_some, hkey, if_true]

def Held (root : Place) (t : FileTree) (key : CacheKey) : Prop :=
  t.isDirectory (shardPlace root key) = true ∧ t.isFile (objectPlace root key) = true

instance : Decidable (Held root t key) := inferInstanceAs (Decidable (_ ∧ _))

lemma mem_objectsIn_iff : key ∈ objectsIn t root shard ↔ shard = .ofText key.shard ∧ Held root t key := by
  rw [objectsIn]
  constructor
  · intro h
    split at h
    next hs =>
      obtain ⟨-, hd⟩ := Bool.and_eq_true_iff.1 hs
      obtain ⟨name, -, h⟩ := List.mem_filterMap.1 h
      split_ifs at h with hf
      obtain ⟨rfl, rfl⟩ := hashOf?_eq_some_iff.1 h
      exact ⟨rfl, hd, hf⟩
    next => cases h
  · rintro ⟨rfl, hd, hf⟩
    rw [shardPlace] at hd
    rw [objectPlace] at hf
    obtain ⟨content, hc⟩ := isFile_iff.1 hf
    rw [if_pos (by simp [length_utf8_shard, hd]), List.mem_filterMap]
    refine ⟨.ofText key.objectName, mem_names_iff.2 ?_, ?_⟩
    · simp [hc]
    · rw [if_pos hf, hashOf?_eq_some_iff.2 ⟨rfl, rfl⟩]

lemma mem_flatMap_objectsIn_iff : key ∈ (t.names root).flatMap (objectsIn t root) ↔ Held root t key := by
  rw [List.mem_flatMap]
  constructor
  · rintro ⟨shard, -, h⟩
    exact (mem_objectsIn_iff.1 h).2
  · intro h
    refine ⟨.ofText key.shard, mem_names_iff.2 ?_, mem_objectsIn_iff.2 ⟨rfl, h⟩⟩
    have hshard := isDirectory_iff.1 h.1
    rw [shardPlace] at hshard
    simp [hshard]

end CacheLayout

lemma Metadata.get?_foldl_supply (keys : List CacheKey) (m : Metadata) :
    (keys.foldl (fun m key => m.supply key today) m).get? key =
      (m.get? key).or (if key ∈ keys then some today else none) := by
  induction keys generalizing m with
  | nil => simp
  | cons key' keys ih =>
    rw [List.foldl_cons, ih, supply]
    cases hm : m.get? key' with
    | some e =>
      rw [Option.isSome_some, if_pos rfl]
      by_cases hkey : key = key'
      · rw [hkey, hm, Option.some_or, Option.some_or]
      · simp [hkey]
    | none =>
      rw [Option.isSome_none, if_neg Bool.false_ne_true, get?_set]
      by_cases hkey : key = key'
      · rw [if_pos hkey, hkey, hm]
        simp
      · simp [hkey]

namespace Cache

open CacheLayout Steps

variable {u : FileTree} {c : Cache}

def Recorded (root : Place) (t : FileTree) (key : CacheKey) (d : Date) : Prop :=
  ∃ text, t.find? (metadataPlace root) = some (.file (Bytes.utf8 text)) ∧ Metadata.LastRecord (Metadata.lines text) key d

lemma get?_recorded_eq_some_iff (hr : t.Reaches root) : (recorded root t).get? key = some d ↔ Recorded root t key d := by
  constructor
  · intro h
    rw [recorded] at h
    split at h
    next text hread =>
      obtain ⟨content, hread, htext⟩ := bind_eq_ok_iff.1 hread
      split at htext
      next text' hutf =>
        obtain rfl := Except.ok.inj htext
        obtain rfl := Bytes.ofUtf8?_eq_some_iff.1 hutf
        exact ⟨text', (read_eq_ok_iff.1 hread).2, Metadata.get?_parse_eq_some_iff.1 h⟩
      next => cases htext
    next => cases h
  · rintro ⟨text, hfile, h⟩
    rw [recorded_of_file hr hfile]
    exact Metadata.get?_parse_eq_some_iff.2 h

lemma get?_recorded_eq_none (hr : t.Reaches root) (h : ∀ d, ¬ Recorded root t key d) : (recorded root t).get? key = none :=
  Option.eq_none_iff_forall_ne_some.2 fun d hd => h d ((get?_recorded_eq_some_iff hr).1 hd)

lemma get?_loadMetadata {m : Metadata} (hr : t.Reaches root) (h : loadMetadata root today t = .ok m) (key : CacheKey) :
    m.get? key = ((recorded root t).get? key).or (if Held root t key then some today else none) := by
  rw [loadMetadata, objects_of_reaches hr] at h
  obtain rfl := Except.ok.inj h
  change (List.foldl _ (recorded root t) _).get? key = _
  have hget := @Metadata.get?_foldl_supply key today ((t.names root).flatMap (objectsIn t root)) (recorded root t)
  simp only [mem_flatMap_objectsIn_iff] at hget
  exact hget

structure Swept (root : Place) (t u : FileTree) : Prop where
  reaches : u.Reaches root
  spares : t.Spares (fun p => p = lockPlace root ∨ ∃ name, isTemporary name = true ∧ p = root ++ [name]) u
  swept : ∀ name, isTemporary name = true → u.isFile (root ++ [name]) = false

lemma exists_swept (hr : t.Reaches root) (hlock : ∀ n, t.find? (lockPlace root) = some n → ∃ content, n = .file content) :
    ∃ locked, lockFile root t = .ok locked ∧ Swept root t (sweep root locked) := by
  obtain ⟨locked, hl, hspares⟩ := exists_lockFile (makeDirectories_of_reaches hr) hlock
  have hreach := (upkeep_lockFile hl).2
  refine ⟨locked, hl, fun q hq => ?_, ?_, fun name hn => isFile_sweep hn root locked⟩
  · exact (upkeep_sweep root locked).outside q _ (not_below_above hq) (hreach q hq)
  · exact (hspares.mono fun _ => .inl).trans ((spares_sweep root locked).mono fun _ => .inr)

namespace Swept

lemma find?_eq {p : Place} (h : Swept root t u) (hlock : p ≠ lockPlace root)
    (hname : ∀ name, isTemporary name = true → p ≠ root ++ [name]) : u.find? p = t.find? p := by
  refine h.spares p ?_
  rintro (hp | ⟨name, hn, hp⟩)
  · exact hlock hp
  · exact hname name hn hp

lemma find?_objectPlace (h : Swept root t u) (key : CacheKey) : u.find? (objectPlace root key) = t.find? (objectPlace root key) :=
  h.find?_eq (objectPlace_ne_append root key (.ofText lockName)) fun name _ => objectPlace_ne_append root key name

lemma find?_shardPlace (h : Swept root t u) (key : CacheKey) : u.find? (shardPlace root key) = t.find? (shardPlace root key) := by
  refine h.find?_eq (ne_of_prefix_shardPlace (by decide) List.prefix_rfl) fun name hn hp => ?_
  obtain rfl : .ofText key.shard = name := by simpa [shardPlace] using hp
  exact absurd hn (by simp [isTemporary_shard])

lemma find?_metadataPlace (h : Swept root t u) : u.find? (metadataPlace root) = t.find? (metadataPlace root) := by
  refine h.find?_eq (by simp [metadataPlace, lockPlace, Metadata.fileName, lockName]) fun name hn hp => ?_
  obtain rfl : .ofText Metadata.fileName = name := by simpa [metadataPlace] using hp
  exact absurd hn (by decide)

lemma held_iff (h : Swept root t u) : Held root u key ↔ Held root t key := by
  rw [Held, Held, isDirectory_iff, isDirectory_iff, isFile, isFile, h.find?_shardPlace, h.find?_objectPlace]

lemma get?_loadMetadata {m : Metadata} (h : Swept root t u) (hr : t.Reaches root) (hm : loadMetadata root today u = .ok m)
    (key : CacheKey) : m.get? key = ((recorded root t).get? key).or (if Held root t key then some today else none) := by
  rw [Cache.get?_loadMetadata h.reaches hm key, recorded_congr hr h.reaches h.find?_metadataPlace]
  simp only [h.held_iff]

end Swept

lemma exists_run_openWith (hcwd : t.Reaches cwd) (h : t.resolve cwd path = .ok (root, .directory))
    (hlock : ∀ n, t.find? (lockPlace root) = some n → ∃ content, n = .file content) (retention owner : ℕ) (today : Date) :
    ∃ m u, (openWith path retention owner today cwd).run t = .ok ⟨path, root, retention, owner, 0, m⟩ u ∧ Swept root t u ∧
      ∀ key, m.get? key = ((recorded root t).get? key).or (if Held root t key then some today else none) := by
  have hr : t.Reaches root := reaches_of_resolve hcwd h
  obtain ⟨locked, hl, hswept⟩ := exists_swept hr hlock
  obtain ⟨m, hm⟩ := exists_loadMetadata today hswept.reaches
  exact ⟨m, _, run_openWith retention owner (makeDirectoriesAt_of_resolve h) h hl hm, hswept, hswept.get?_loadMetadata hr hm⟩

/-- What opening a cache leaves of a directory, and what its handle knows of it then. -/
structure Recovered (today : Date) (root : Place) (t : FileTree) (c : Cache) (u : FileTree) : Prop where
  root_eq : c.root = root
  swept : ∀ name, isTemporary name = true → u.isFile (root ++ [name]) = false
  dated : ∀ key d, t.isFile (objectPlace root key) = true → Recorded root t key d → c.metadata.get? key = some d
  supplied : ∀ key, t.isFile (objectPlace root key) = true → (∀ d, ¬ Recorded root t key d) →
    c.metadata.get? key = some today
  object : ∀ key, u.find? (objectPlace root key) = t.find? (objectPlace root key)
  metadataFile : u.find? (metadataPlace root) = t.find? (metadataPlace root)
  kept : ∀ p, p ≠ lockPlace root → (∀ name, isTemporary name = true → p ≠ root ++ [name]) → u.find? p = t.find? p

lemma held_of_isFile (hrooted : t.Rooted) (hf : t.isFile (objectPlace root key) = true) : Held root t key := by
  obtain ⟨content, hc⟩ := isFile_iff.1 hf
  refine ⟨isDirectory_iff.2 (hrooted.parents _ _ hc _ ?_), hf⟩
  simp [objectPlace, shardPlace]

/-- On any directory without links whose lock is no directory a cache opens, and recovers what is known of the objects. -/
theorem exists_recovered (hrooted : t.Rooted) (hcwd : t.Reaches cwd) (h : Leads t cwd path root)
    (hlock : t.find? (lockPlace root) ≠ some .directory) (retention owner : ℕ) (today : Date) :
    ∃ c u, (openWith path retention owner today cwd).run t = .ok c u ∧ Recovered today root t c u := by
  have hr : t.Reaches root := reaches_of_resolve hcwd h.resolve
  have hlockFile : ∀ n, t.find? (lockPlace root) = some n → ∃ content, n = .file content := by
    intro n hn
    cases n with
    | file content => exact ⟨content, rfl⟩
    | directory => exact absurd hn hlock
    | link target => exact absurd hn (h.below _ target (below_append (by simp)))
  obtain ⟨m, u, hrun, hswept, hget⟩ := exists_run_openWith hcwd h.resolve hlockFile retention owner today
  refine ⟨_, u, hrun, rfl, hswept.swept, ?_, ?_, hswept.find?_objectPlace, hswept.find?_metadataPlace,
    fun p hp hname => hswept.find?_eq hp hname⟩
  · intro key d hf hd
    rw [hget, (get?_recorded_eq_some_iff hr).2 hd, Option.some_or]
  · intro key hf hno
    rw [hget, get?_recorded_eq_none hr hno, Option.none_or, if_pos (held_of_isFile hrooted hf)]

theorem exists_recovered_of_two_records :
    let key : CacheKey := ⟨"0123456789abcdef0123456789abcdef0123456789abcdef0123456789abcdef", by decide⟩
    let text := String.ofList (['\n'].intercalate
      [Metadata.row (key, ⟨2024, 2, 5⟩), Metadata.row (key, ⟨2024, 1, 7⟩), "no bar".toList])
    let t : FileTree := ⟨[(["cache"], .directory), (["cache", "01"], .directory), (objectPlace ["cache"] key, .file [1]),
      (["cache", "x.tmp.7.0"], .file [2]), (metadataPlace ["cache"], .file (Bytes.utf8 text))], []⟩
    ∃ c u, (openWith "/cache" 30 7 ⟨2024, 3, 15⟩ []).run t = .ok c u ∧ Recovered ⟨2024, 3, 15⟩ ["cache"] t c u ∧
      c.metadata.get? key = some ⟨2024, 1, 7⟩ ∧ u.isFile ["cache", "x.tmp.7.0"] = false := by
  intro key text t
  have hrooted : t.Rooted := rooted_of_forall_mem ⟨by decide +kernel, by decide +kernel⟩ (by decide +kernel) (by decide +kernel)
  have hleads : Leads t [] "/cache" ["cache"] := by
    refine ⟨by decide +kernel, fun p target hp hn => ?_⟩
    have hmem := mem_nodes_of_find? hp.ne_nil hn
    simp [t] at hmem
  obtain ⟨c, u, hrun, h⟩ := exists_recovered hrooted (reaches_nil t) hleads (by decide +kernel) 30 7 ⟨2024, 3, 15⟩
  have hlines : Metadata.lines text =
      [Metadata.row (key, ⟨2024, 2, 5⟩), Metadata.row (key, ⟨2024, 1, 7⟩), "no bar".toList] :=
    Metadata.lines_intercalate (by simp [Metadata.lineEnd_notMem_row]) (by simp) (by simp)
  have hrecorded : Recorded ["cache"] t key ⟨2024, 1, 7⟩ := by
    refine ⟨text, by decide +kernel, [Metadata.row (key, ⟨2024, 2, 5⟩)], _, ["no bar".toList], hlines,
      Metadata.records_row (by decide), fun l hl e => ?_⟩
    rw [List.mem_singleton.1 hl]
    exact (Metadata.Noise.unparted (by decide)).not_records
  exact ⟨c, u, hrun, h, h.dated key _ (by decide +kernel) hrecorded, h.swept "x.tmp.7.0" (by decide)⟩

/-- Directories of which a cache does not recover everything when it opens: a temporary file stays whose name is not UTF-8, and an
object has no day that is in a directory by way of a link. -/
theorem openWith_passes_over :
    (let name : RawText := ⟨0xFF :: Bytes.utf8 temporaryMark⟩
      let t : FileTree := ⟨[(["cache"], .directory), (["cache", name], .file [2])], []⟩
      ∃ c u, (openWith "/cache" 30 7 ⟨2024, 3, 15⟩ []).run t = .ok c u ∧ u.isFile ["cache", name] = true) ∧
    let key : CacheKey := ⟨"0123456789abcdef0123456789abcdef0123456789abcdef0123456789abcdef", by decide⟩
    let t : FileTree := ⟨[(["cache"], .directory), (["cache", "01"], .link "../moved"), (["moved"], .directory),
      (["moved", .ofText key.objectName], .file [1])], []⟩
    ∃ c u, (openWith "/cache" 30 7 ⟨2024, 3, 15⟩ []).run t = .ok c u ∧
      t.resolve ["cache"] (.ofText (relativePath key)) = .ok (["moved", .ofText key.objectName], .file [1]) ∧
      c.metadata.get? key = none := by
  constructor
  · intro name t
    have hopens : t.resolve [] "/cache" = .ok (["cache"], .directory) := eq_ok_of_toOption_eq_some (by decide +kernel)
    have hlock : t.find? (lockPlace ["cache"]) = none := by decide
    obtain ⟨m, u, hrun, hswept, -⟩ := exists_run_openWith (reaches_nil t) hopens (by simp [hlock]) 30 7 ⟨2024, 3, 15⟩
    refine ⟨_, u, hrun, ?_⟩
    have hname : isTemporary name = false := by decide
    rw [isFile, hswept.find?_eq (by decide) fun other hother hp => ?_]
    · rfl
    · obtain rfl : name = other := by simpa using hp
      rw [hname] at hother
      cases hother
  · intro key t
    have hopens : t.resolve [] "/cache" = .ok (["cache"], .directory) := eq_ok_of_toOption_eq_some (by decide +kernel)
    have hlock : t.find? (lockPlace ["cache"]) = none := by decide
    obtain ⟨m, u, hrun, -, hget⟩ := exists_run_openWith (reaches_nil t) hopens (by simp [hlock]) 30 7 ⟨2024, 3, 15⟩
    refine ⟨_, u, hrun, eq_ok_of_toOption_eq_some (by decide +kernel), ?_⟩
    have hno : ∀ d, ¬ Recorded ["cache"] t key d := by
      rintro d ⟨text, hfile, -⟩
      have hnone : t.find? (metadataPlace ["cache"]) = none := by decide
      exact absurd (hnone.symm.trans hfile) (by simp)
    have hheld : ¬ Held ["cache"] t key := by decide
    rw [hget, get?_recorded_eq_none (reaches_of_resolve (reaches_nil t) hopens) hno, Option.none_or, if_neg hheld]

end Cache

end NamespaceMigration
