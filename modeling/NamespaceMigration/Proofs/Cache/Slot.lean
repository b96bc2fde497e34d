import NamespaceMigration.Cache.Slot
import NamespaceMigration.Proofs.Cache.Upkeep

/-! What the steps of an entry do to a handle and its directory. -/

namespace NamespaceMigration.CacheSlot

open FileTree CacheLayout Steps Cache

variable {e : CacheSlot} {s u : CacheSession} {place : Place} {today : Date} {content : Bytes}

structure Released (e : CacheSlot) (s u : CacheSession) : Prop where
  upkept : s.Upkept u
  gone : ∀ place, e.pending = some place → u.files.isFile place = false

def Inside (e : CacheSlot) (s : CacheSession) : Prop := ∀ place, e.pending = some place → Below s.cache.root place

lemma ensures_lookup (today : Date) (key : CacheKey) (s : CacheSession) :
    Ensures s (lookup today key)
      (fun e u => e = ⟨key, s.files.isFile (objectPlace s.cache.root key), none⟩ ∧ s.Upkept u ∧ u.files = s.files)
      fun _ _ => False := by
  refine ensures_get_bind.2 ?_
  cases h : s.files.isFile (objectPlace s.cache.root key) with
  | true => exact ⟨rfl, (CacheSession.Upkept.refl s).withMetadata _, rfl⟩
  | false => exact ⟨rfl, .refl s, rfl⟩

lemma released_discard (hp : e.pending = some place) (hb : e.Inside s) (hu : s.Upkept u) :
    e.Released s { u with files := if u.files.isFile place then u.files.erase place else u.files } := by
  have hbelow : Below u.cache.root place := hu.root ▸ hb place hp
  constructor
  · split
    next hf =>
      obtain ⟨content, hc⟩ := isFile_iff.1 hf
      exact hu.withFiles (.erase hbelow (by simp [hc]))
    next => exact hu
  · intro place' hp'
    obtain rfl := Option.some.inj (hp.symm.trans hp')
    split
    next =>
      have hgone : (u.files.erase place).find? place = none := by rw [find?_erase, if_pos ⟨rfl, hbelow.ne_nil⟩]
      simp [isFile, hgone]
    next hf => simpa using hf

lemma ensures_unstage (hb : e.Inside s) : Ensures s e.unstage (fun _ u => e.Released s u) fun _ _ => False := by
  rw [unstage]
  cases hp : e.pending with
  | none => exact ⟨.refl s, fun place he => nomatch hp.symm.trans he⟩
  | some place =>
    refine (ensures_discard place s).mono ?_ fun _ _ h => h
    rintro _ _ rfl
    exact released_discard hp hb (.refl s)

lemma ensures_stage (hb : e.Inside s) :
    Ensures s e.stage
      (fun e' u => ∃ r place n, e.Released s r ∧ r.files.find? place = none ∧ r.cache.temporaries ≤ n ∧
        place = r.cache.root ++ [RawText.ofText (temporaryName e.hash.text r.cache.owner n)] ∧ e' = { e with pending := some place } ∧
        u = ⟨{ r.cache with temporaries := n + 1 }, r.files.put place (.file [])⟩)
      fun _ u => e.Released s u := by
  refine ensures_bind.2 ((ensures_unstage hb).mono ?_ fun _ _ h => h.elim)
  intro _ r hr
  refine ensures_bind.2 ((ensures_createTemporary _ r).mono ?_ fun _ _ h => h ▸ hr)
  rintro place _ ⟨hnone, n, hn, rfl, rfl⟩
  exact ⟨r, _, n, hr, hnone, hn, rfl, rfl, rfl⟩

lemma hash_of_stage {e' : CacheSlot} (h : e.stage.run s = .ok e' u) : e'.hash = e.hash := by
  have hstage : Ensures s e.stage (fun e' _ => e'.hash = e.hash) fun _ _ => True := by
    refine ensures_bind.2 ((ensures_true s e.unstage).mono ?_ fun _ _ h => h)
    intro _ r _
    exact ensures_bind.2 ((ensures_true r _).mono (fun _ _ _ => rfl) fun _ _ h => h)
  rwa [Ensures, h] at hstage

lemma run_write (hp : e.pending = some place) (content : Bytes) (s : CacheSession) :
    (e.write content).run s = .ok () { s with files := s.files.append place content } := by
  rw [write, hp]
  rfl

lemma run_write_of_pending_eq_none (hp : e.pending = none) (content : Bytes) (s : CacheSession) :
    (e.write content).run s = .ok () s := by
  rw [write, hp]
  rfl

lemma run_write_eq_ok (e : CacheSlot) (content : Bytes) (s : CacheSession) :
    (e.write content).run s = .ok () (after ((e.write content).run s)) := by
  cases hp : e.pending with
  | none => rw [run_write_of_pending_eq_none hp, after]
  | some place => rw [run_write hp, after]

lemma run_publish_of_pending_eq_none (hp : e.pending = none) (today : Date) (s : CacheSession) :
    (e.publish today).run s = .error (.noPendingStore e.hash) s := by
  rw [publish, hp]
  rfl

lemma ensures_publish (hp : e.pending = some place) (hb : e.Inside s) (today : Date) :
    Ensures s (e.publish today)
      (fun _ u => ∃ made n, s.files.Extends made ∧ made.find? (shardPlace s.cache.root e.hash) = some .directory ∧
        made.find? (objectPlace s.cache.root e.hash) ≠ some .directory ∧ made.find? place = some n ∧
        u = ⟨{ s.cache with metadata := s.cache.metadata.touch e.hash today },
          (made.erase place).put (objectPlace s.cache.root e.hash) n⟩)
      fun _ u => e.Released s u := by
  rw [publish, hp]
  refine ensures_get_bind.2 (ensures_get_bind.2 ?_)
  cases hm : s.files.makeDirectories (shardPlace s.cache.root e.hash) with
  | error fault =>
    refine ensures_bind.2 ((ensures_discard place s).mono ?_ fun _ _ h => h.elim)
    rintro _ _ rfl
    exact released_discard hp hb (.refl s)
  | ok made =>
    obtain ⟨hext, hreach⟩ := makeDirectories_eq_ok hm
    have hshard : made.find? (shardPlace s.cache.root e.hash) = some .directory := (reaches_concat.1 hreach).2
    refine ensures_modify_bind.2 (ensures_bind.2 ((ensures_moveInto _ _ _ _).mono ?_ ?_))
    · rintro _ _ ⟨hd, n, hn, rfl⟩
      exact ⟨made, n, hext, hshard, hd, hn, rfl⟩
    · rintro _ _ rfl
      exact released_discard hp hb ((CacheSession.Upkept.refl s).withFiles (.of_extends hext))

lemma run_store_of_ok {e' : CacheSlot} (h : e.stage.run s = .ok e' u) (today : Date) (content : Bytes) :
    (e.store today content).run s = (e'.publish today).run (after ((e'.write content).run u)) := by
  have hstage : e.stage s = .ok e' u := h
  have hwrite : e'.write content u = .ok () (after ((e'.write content).run u)) := run_write_eq_ok e' content u
  have hstore : (e.store today content).run s =
      EStateM.bind e.stage (fun e' => EStateM.bind (e'.write content) fun _ => e'.publish today) s := rfl
  rw [hstore, EStateM.bind, hstage]
  dsimp only
  rw [EStateM.bind, hwrite]
  rfl

lemma run_store_of_error {fault : CacheFault} (h : e.stage.run s = .error fault u) (today : Date) (content : Bytes) :
    (e.store today content).run s = .error fault u := by
  have hstage : e.stage s = .error fault u := h
  have hstore : (e.store today content).run s =
      EStateM.bind e.stage (fun e' => EStateM.bind (e'.write content) fun _ => e'.publish today) s := rfl
  rw [hstore, EStateM.bind, hstage]

end NamespaceMigration.CacheSlot
