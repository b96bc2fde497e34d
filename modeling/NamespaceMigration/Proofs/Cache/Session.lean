import NamespaceMigration.Proofs.Cache.Slot

namespace NamespaceMigration

open FileTree CacheLayout Steps

def CacheSession.Holds (ground : FileTree) (root : Place) (P : CacheKey → Bytes → Prop) (s : CacheSession) : Prop :=
  s.cache.root = root ∧ Sound ground root P s.files

variable {ground : FileTree} {root : Place} {P : CacheKey → Bytes → Prop} {s u : CacheSession} {key : CacheKey}
  {content : Bytes} {isHit : Bool}

lemma CacheSession.Holds.upkept (h : s.Holds ground root P) (hu : s.Upkept u) : u.Holds ground root P := by
  obtain ⟨rfl, hsound⟩ := h
  exact ⟨hu.root, hsound.upkeep hu.files⟩

namespace Cache

lemma keeps_of_upkeeps {α : Type} {x : CacheM α} (h : ∀ s : CacheSession, Keeps s.Upkept x) :
    Keeps (CacheSession.Holds ground root P) x :=
  fun s hs => (h s s (.refl s)).mono (fun _ _ hu => hs.upkept hu) fun _ _ hu => hs.upkept hu

lemma keeps_save : Keeps (CacheSession.Holds ground root P) save := keeps_of_upkeeps upkeeps_save

lemma keeps_prune (day : Date) : Keeps (CacheSession.Holds ground root P) (prune day) :=
  keeps_of_upkeeps fun s => upkeeps_prune s day

lemma keeps_clear : Keeps (CacheSession.Holds ground root P) clear := keeps_of_upkeeps upkeeps_clear

end Cache

namespace CacheSlot

lemma holds_lookup (hs : s.Holds ground root P) (today : Date) (key : CacheKey) :
    Ensures s (lookup today key) (fun e u => u.Holds ground root P ∧ ((e = ⟨key, false, none⟩) ∨
      e = ⟨key, true, none⟩ ∧ ∃ content, u.files.find? (objectPlace root key) = some (.file content)))
      fun _ _ => False := by
  refine (ensures_lookup today key s).mono ?_ fun _ _ h => h
  rintro _ u ⟨rfl, hu, hfiles⟩
  refine ⟨hs.upkept hu, ?_⟩
  rw [hs.1, hfiles]
  cases h : s.files.isFile (objectPlace root key) with
  | true => exact .inr ⟨rfl, isFile_iff.1 h⟩
  | false => exact .inl rfl

lemma holds_read (hs : s.Holds ground root P) (hc : s.files.find? (objectPlace root key) = some (.file content)) :
    Ensures s (read ⟨key, true, none⟩) (fun bytes u => u.Holds ground root P ∧ P key bytes) fun _ _ => False := by
  obtain ⟨rfl, hsound⟩ := hs
  obtain ⟨hstatus, hP⟩ := hsound.status_objectPlace hc
  have hfind : (find ⟨key, true, none⟩ : CacheM Node).run s = .ok (.file content) s := by
    change (lift (s.files.status (objectPlace s.cache.root key))).run s = _
    rw [hstatus]
    rfl
  refine ensures_bind.2 ?_
  rw [Ensures, hfind]
  exact ⟨⟨rfl, hsound⟩, hP⟩

lemma holds_publish {place : Place} (hs : s.Holds ground root P) (hb : Below root place)
    (hc : s.files.find? place = some (.file content)) (hP : P key content) (today : Date) :
    Ensures s (publish today ⟨key, isHit, some place⟩) (fun _ => CacheSession.Holds ground root P)
      fun _ => CacheSession.Holds ground root P := by
  obtain ⟨rfl, hsound⟩ := hs
  have hinside : Inside ⟨key, isHit, some place⟩ s := fun place' hp => Option.some.inj hp ▸ hb
  refine (ensures_publish rfl hinside today).mono ?_ fun _ u hu => CacheSession.Holds.upkept ⟨rfl, hsound⟩ hu.upkept
  rintro _ _ ⟨made, n, hext, hshard, hd, hn, rfl⟩
  have hkept := hext.kept _ _ hc
  obtain rfl := Option.some.inj (hkept.symm.trans hn)
  refine ⟨rfl, (hsound.extends hext).move hb (below_objectPlace _ key) hkept hd fun key' hk => ?_⟩
  obtain rfl := objectPlace_inj.1 hk
  exact ⟨hshard, hP⟩

lemma holds_store (hs : s.Holds ground root P) (hP : P key content) (today : Date) :
    Ensures s (store today ⟨key, isHit, none⟩ content) (fun _ => CacheSession.Holds ground root P)
      fun _ => CacheSession.Holds ground root P := by
  have hinside : Inside ⟨key, isHit, none⟩ s := fun place hp => nomatch hp
  refine ensures_bind.2 ((ensures_stage hinside).mono ?_ fun _ u hu => hs.upkept hu.upkept)
  rintro _ _ ⟨r, place, n, hr, hnone, -, rfl, rfl, rfl⟩
  obtain ⟨rfl, hsound⟩ := hs.upkept hr.upkept
  let place := r.cache.root ++ [RawText.ofText (temporaryName key.text r.cache.owner n)]
  let staged := r.files.put place (.file [])
  have hstaged : Sound ground r.cache.root P staged := hsound.put_file (by simp [hnone])
  have hempty : staged.find? place = some (.file []) := find?_put_self (by simp [place])
  have hheld : CacheSession.Holds ground r.cache.root P
      ⟨{ r.cache with temporaries := n + 1 }, staged.put place (.file content)⟩ :=
    ⟨rfl, hstaged.put_file (by rw [hempty]; simp)⟩
  have happend : staged.append place content = staged.put place (.file content) := append_of_file hempty
  refine ensures_bind.2 ?_
  rw [Ensures, run_write rfl]
  change Ensures (⟨_, staged.append place content⟩ : CacheSession) (publish today ⟨key, isHit, some place⟩) _ _
  rw [happend]
  exact holds_publish hheld (below_append (by simp)) (find?_put_self (by simp [place])) hP today

end CacheSlot

end NamespaceMigration
