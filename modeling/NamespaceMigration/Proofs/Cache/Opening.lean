import NamespaceMigration.Proofs.Cache.Upkeep

/-! Opening a cache: on an empty directory it starts sound, and opened again it is the same directory. -/

namespace NamespaceMigration.Cache

open FileTree CacheLayout Steps

variable {ground t u : FileTree} {root cwd : Place} {path : RawText} {P : CacheKey → Bytes → Prop}

def Opens (t : FileTree) (cwd : Place) (path : RawText) (root : Place) (u : FileTree) : Prop :=
  ∃ made locked, t.Extends made ∧ made.resolve cwd path = .ok (root, .directory) ∧ lockFile root made = .ok locked ∧
    u = sweep root locked

lemma objects_of_reaches (hr : t.Reaches root) : objects t root = .ok ((t.names root).flatMap (objectsIn t root)) := by
  have hstatus : t.status root = .ok .directory :=
    status_eq_ok_iff.2 ⟨hr.of_prefix (List.dropLast_prefix root), hr root List.prefix_rfl⟩
  have hlist : t.list root = .ok (t.names root) := by
    rw [list, hstatus]
    rfl
  rw [objects, hlist]

lemma exists_loadMetadata (today : Date) (hr : t.Reaches root) : ∃ m, loadMetadata root today t = .ok m := by
  rw [loadMetadata, objects_of_reaches hr]
  exact ⟨_, rfl⟩

lemma run_openWith {made locked : FileTree} {today : Date} {m : Metadata} (retention owner : ℕ)
    (hm : t.makeDirectoriesAt cwd path = .ok made) (hr : made.resolve cwd path = .ok (root, .directory))
    (hl : lockFile root made = .ok locked) (hmetadata : loadMetadata root today (sweep root locked) = .ok m) :
    (openWith path retention owner today cwd).run t = .ok ⟨path, root, retention, owner, 0, m⟩ (sweep root locked) := by
  have hopen : Ensures t (openWith path retention owner today cwd)
      (fun c u => c = ⟨path, root, retention, owner, 0, m⟩ ∧ u = sweep root locked) fun _ _ => False := by
    refine ensures_bind.2 (ensures_get_bind.2 ?_)
    dsimp only
    rw [hm]
    refine ensures_get_bind.2 ?_
    rw [hr]
    refine ensures_bind.2 (ensures_get_bind.2 ?_)
    rw [hl]
    change Ensures locked (modify (sweep root) >>= _) _ _
    refine ensures_modify_bind.2 (ensures_get_bind.2 ?_)
    rw [hmetadata]
    exact ⟨rfl, rfl⟩
  obtain ⟨c, u, hrun, rfl, rfl⟩ := hopen.exists_ok
  exact hrun

lemma ensures_openWith (t : FileTree) (path : RawText) (retention owner : ℕ) (today : Date) (cwd : Place) :
    Ensures t (openWith path retention owner today cwd)
      (fun c u => Opens t cwd path c.root u ∧ c = ⟨path, c.root, retention, owner, 0, c.metadata⟩ ∧
        loadMetadata c.root today u = .ok c.metadata)
      fun _ u => t.Extends u := by
  refine ensures_bind.2 (ensures_get_bind.2 ?_)
  dsimp only
  cases hm : t.makeDirectoriesAt cwd path with
  | error fault => exact .refl t
  | ok made =>
    have hext := makeDirectoriesAt_eq_ok hm
    refine ensures_get_bind.2 ?_
    split
    next root hr =>
      refine ensures_bind.2 (ensures_get_bind.2 ?_)
      cases hl : lockFile root made with
      | error fault => exact hext
      | ok locked =>
        have hopens : Opens t cwd path root (sweep root locked) := ⟨made, locked, hext, hr, hl, rfl⟩
        have hreach : (sweep root locked).Reaches root := fun q hq =>
          (upkeep_sweep root locked).outside q _ (not_below_above hq) ((upkeep_lockFile hl).2 q hq)
        obtain ⟨m, hmetadata⟩ := exists_loadMetadata today hreach
        change Ensures locked (modify (sweep root) >>= _) _ _
        refine ensures_modify_bind.2 (ensures_get_bind.2 ?_)
        rw [hmetadata]
        exact ⟨hopens, rfl, hmetadata⟩
    next => exact hext

structure Leads (t : FileTree) (cwd : Place) (path : RawText) (root : Place) : Prop where
  resolve : t.resolve cwd path = .ok (root, .directory)
  below : ∀ p target, Below root p → t.find? p ≠ some (.link target)

lemma Opens.upkeep (h : Opens t cwd path root u) : ∃ made, t.Extends made ∧
    made.resolve cwd path = .ok (root, .directory) ∧ Upkeep root made u ∧ u.Reaches root := by
  obtain ⟨made, locked, hext, hr, hl, rfl⟩ := h
  obtain ⟨hlocked, hreach⟩ := upkeep_lockFile hl
  have hswept := upkeep_sweep root locked
  exact ⟨made, hext, hr, hlocked.trans hswept, fun q hq => hswept.outside q _ (not_below_above hq) (hreach q hq)⟩

lemma Opens.sound (h : Opens t cwd path root u) (he : ∀ p, Below root p → t.find? p = none) :
    ∃ ground, Leads ground cwd path root ∧ ∀ P, Sound ground root P u := by
  obtain ⟨ground, hext, hr, hu, hreach⟩ := h.upkeep
  have hdirectory : ∀ p n, Below root p → ground.find? p = some n → n = .directory := by
    intro p n hp hn
    rcases hext.made p n hn with hn | hn
    · rw [he p hp] at hn
      cases hn
    · exact hn
  refine ⟨ground, ⟨hr, fun p target hp hn => nomatch hdirectory p _ hp hn⟩, fun P => ⟨hu.outside, hreach, ?_, ?_⟩⟩
  · intro p target hp hn
    rcases hu.origin p _ hn with hn | hn | ⟨-, hn⟩
    · cases hdirectory p _ hp hn
    · cases hn
    · cases hn
  · intro key content hc
    cases hdirectory _ _ (below_objectPlace root key) (hu.object hc)

lemma Opens.keeps {r : Place} (h : Opens t cwd path r u) (hg : Leads ground cwd path root) (ht : Sound ground root P t) :
    r = root ∧ Sound ground root P u := by
  obtain ⟨made, hext, hr, hu, -⟩ := h.upkeep
  have hmade := ht.extends hext
  obtain rfl : root = r := resolve_inj (hmade.agree hg.below) hg.resolve hr
  exact ⟨rfl, hmade.upkeep hu⟩

section Sweeping

lemma isFile_of_foldl_sweep {name : RawText} (hn : isTemporary name = true) (names : List RawText)
    (h : (names.foldl (fun t name =>
      if isTemporary name && t.isFile (root ++ [name]) then t.erase (root ++ [name]) else t) t).isFile (root ++ [name]) = true) :
    t.isFile (root ++ [name]) = true ∧ name ∉ names := by
  induction names generalizing t with
  | nil => exact ⟨h, List.not_mem_nil⟩
  | cons other names ih =>
    obtain ⟨hfile, hmem⟩ := ih h
    dsimp only at hfile
    split_ifs at hfile with ht
    · rw [isFile, find?_erase] at hfile
      split_ifs at hfile with he
      · cases hfile
      · exact ⟨hfile, List.not_mem_cons_of_ne_of_not_mem (fun hname => he ⟨by rw [hname], by simp⟩) hmem⟩
    · refine ⟨hfile, List.not_mem_cons_of_ne_of_not_mem ?_ hmem⟩
      rintro rfl
      exact ht (Bool.and_eq_true_iff.2 ⟨hn, hfile⟩)

lemma spares_sweep (root : Place) (t : FileTree) :
    t.Spares (fun p => ∃ name, isTemporary name = true ∧ p = root ++ [name]) (sweep root t) := by
  rw [sweep]
  induction t.names root generalizing t with
  | nil => exact .refl t
  | cons name names ih =>
    refine Spares.trans ?_ (ih _)
    dsimp only
    split_ifs with h
    · exact spares_erase ⟨name, (Bool.and_eq_true_iff.1 h).1, rfl⟩
    · exact .refl t

lemma isFile_sweep {name : RawText} (hn : isTemporary name = true) (root : Place) (t : FileTree) :
    (sweep root t).isFile (root ++ [name]) = false := by
  rw [← Bool.not_eq_true]
  intro hfile
  obtain ⟨hfile, hmem⟩ := isFile_of_foldl_sweep hn _ hfile
  obtain ⟨content, hc⟩ := isFile_iff.1 hfile
  exact hmem (mem_names hc)

lemma Opens.swept {name : RawText} (h : Opens t cwd path root u) (hn : isTemporary name = true) :
    u.isFile (root ++ [name]) = false := by
  obtain ⟨made, locked, -, -, -, rfl⟩ := h
  exact isFile_sweep hn root locked

lemma find?_sweep_cases (root : Place) (t : FileTree) (p : Place) :
    (sweep root t).find? p = none ∨ (sweep root t).find? p = t.find? p := by
  rw [sweep]
  induction t.names root generalizing t with
  | nil => exact .inr rfl
  | cons name names ih =>
    rw [List.foldl_cons]
    split_ifs
    · refine (ih _).elim .inl fun hrest => ?_
      rw [hrest, find?_erase]
      split_ifs
      · exact .inl rfl
      · exact .inr rfl
    · exact ih t

lemma find?_sweep_of_isFile {name : RawText} (hn : isTemporary name = true) (h : t.isFile (root ++ [name]) = true) :
    (sweep root t).find? (root ++ [name]) = none := by
  refine (find?_sweep_cases root t _).resolve_right fun hsame => ?_
  have hswept := isFile_sweep hn root t
  rw [isFile, hsame] at hswept
  exact absurd h (by rw [isFile, hswept]; decide)

lemma Opens.kept {p : Place} {n : Node} (h : Opens t cwd path root u)
    (hp : ∀ name, isTemporary name = true → p ≠ root ++ [name]) (hn : t.find? p = some n) : u.find? p = some n := by
  obtain ⟨made, locked, hext, -, hl, rfl⟩ := h
  have hlocked : locked.find? p = some n := by
    obtain ⟨made', hmade', hl⟩ := bind_eq_ok_iff.1 hl
    have hn' := (makeDirectories_eq_ok hmade').1.kept p n (hext.kept p n hn)
    split at hl
    · cases hl
    · split at hl
      · obtain rfl := Except.ok.inj hl
        exact hn'
      · obtain ⟨-, hnone, rfl⟩ := create_eq_ok_iff.1 hl
        rw [find?_put_of_ne, hn']
        rintro rfl
        rw [hnone] at hn'
        cases hn'
  rw [spares_sweep root locked p, hlocked]
  rintro ⟨name, hname, rfl⟩
  exact hp name hname rfl

end Sweeping

end NamespaceMigration.Cache
