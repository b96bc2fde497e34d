import NamespaceMigration.Proofs.Cache.Ledger
import NamespaceMigration.Proofs.Cache.Opening

namespace NamespaceMigration.Ledger

open FileTree CacheLayout Steps

variable {root place : Place} {id : ℕ} {x : Option Holding} {e : Holding} {key : CacheKey} {l : Ledger} {u : CacheSession}

def Idle (x : Option Holding) : Prop := ∀ e, x = some e → e.slot.pending = none ∧ e.written = none

lemma idle_none : Idle none := by simp [Idle]

lemma idle_some {slot : CacheSlot} (h : slot.pending = none) : Idle (some ⟨slot, none⟩) := by simp [Idle, h]

/-- Whether every file below the root is accounted for. -/
structure Accounted (root : Place) (l : Ledger) : Prop where
  root_eq : l.session.cache.root = root
  files : ∀ p content, Below root p → l.session.files.find? p = some (.file content) →
    Explained root l.held l.committed p content
  booked : Booked root l.session.cache.owner l.session.cache.temporaries l.held

namespace Accounted

lemma inside (h : Accounted root l) (he : l.held id = some e) : e.slot.Inside l.session := by
  intro place hp
  obtain ⟨stem, n, -, rfl⟩ := h.booked.numbered id place ((pendingOf_eq he).trans hp)
  rw [h.root_eq]
  exact below_append (by simp)

lemma written_eq (h : Accounted root l) (he : l.held id = some e) (hp : e.slot.pending = some place)
    (hc : l.session.files.find? place = some (.file content)) : e.written = some content := by
  obtain ⟨stem, n, -, rfl⟩ := h.booked.numbered id place ((pendingOf_eq he).trans hp)
  obtain ⟨id', e', he', hp', hw⟩ :=
    (h.files _ content (below_append (by simp)) hc).temporary_of_isTemporary (isTemporary_temporaryName stem _ n)
  obtain rfl := h.booked.apart id id' _ ((pendingOf_eq he).trans hp) ((pendingOf_eq he').trans hp')
  obtain rfl := Option.some.inj (he.symm.trans he')
  exact hw

lemma upkept (h : Accounted root l) (hu : l.session.Upkept u) : Accounted root { l with session := u } where
  root_eq := hu.root.trans h.root_eq
  files p content hp hc := by
    have hfiles : Upkeep root l.session.files u.files := h.root_eq ▸ hu.files
    rcases hfiles.file hc with hc | hp' | hp'
    · exact h.files p content hp hc
    · exact .lock hp'
    · exact .metadata hp'
  booked := by
    have hbooked := h.booked.mono hu.temporaries
    rwa [← hu.owner] at hbooked

lemma rest (h : Accounted root l) (hgone : ∀ place, pendingOf l.held id = some place → l.session.files.isFile place = false)
    (hx : Idle x) : Accounted root { l with held := Function.update l.held id x } where
  root_eq := h.root_eq
  files p content hp hc := by
    refine (h.files p content hp hc).update ?_ x
    intro hpending
    have hf := hgone p hpending
    rw [isFile_iff.2 ⟨content, hc⟩] at hf
    cases hf
  booked := by
    apply h.booked.update
    · intro e place he hp
      rw [(hx e he).1] at hp
      cases hp
    · intro e he
      simp [hx e he]

lemma released (h : Accounted root l) (he : l.held id = some e) (hu : e.slot.Released l.session u) (hx : Idle x) :
    Accounted root ⟨u, Function.update l.held id x, l.committed⟩ :=
  (h.upkept hu.upkept).rest (fun place hp => hu.gone place ((pendingOf_eq he).symm.trans hp)) hx

lemma begin {n : ℕ} {stem : String} (h : Accounted root l) (he : l.held id = none)
    (hn : l.session.cache.temporaries ≤ n) (hplace : place = root ++ [RawText.ofText (temporaryName stem l.session.cache.owner n)])
    (slot : CacheSlot) :
    Accounted root ⟨⟨{ l.session.cache with temporaries := n + 1 }, l.session.files.put place (.file [])⟩,
      Function.update l.held id (some ⟨{ slot with pending := some place }, some []⟩), l.committed⟩ where
  root_eq := h.root_eq
  files p content hbelow hc := by
    dsimp only at hc ⊢
    rw [find?_put] at hc
    split at hc
    next hp =>
      cases hc
      exact .temporary (Function.update_self id _ l.held) (congrArg some hp.1.symm) rfl
    next =>
      refine (h.files p content hbelow hc).update ?_ _
      rw [pendingOf, he]
      simp
  booked := by
    subst hplace
    exact h.booked.begin hn rfl (by simp)

lemma write (h : Accounted root l) (he : l.held id = some e) (hp : e.slot.pending = some place) (content : Bytes) :
    Accounted root { l with
      session := { l.session with files := l.session.files.append place content }
      held := Function.update l.held id (some { e with written := e.written.map (· ++ content) }) } where
  root_eq := h.root_eq
  files p new hbelow hc := by
    dsimp only at hc ⊢
    by_cases hpp : p = place
    · subst hpp
      obtain ⟨old, hold, rfl⟩ := find?_append_eq_file hbelow.ne_nil hc
      refine .temporary (Function.update_self id _ l.held) hp ?_
      simp [h.written_eq he hp hold]
    · rw [find?_append_of_ne hpp] at hc
      refine (h.files p new hbelow hc).update ?_ _
      rw [pendingOf_eq he, hp]
      exact fun heq => hpp (Option.some.inj heq).symm
  booked := by
    apply h.booked.update
    · rintro _ place hx hp'
      cases hx
      exact (pendingOf_eq he).trans hp'
    · rintro _ hx
      cases hx
      simpa using h.booked.begun id e he

lemma commit {made : FileTree} {n : Node} (h : Accounted root l) (he : l.held id = some e)
    (hp : e.slot.pending = some place) (hext : l.session.files.Extends made) (hn : made.find? place = some n)
    (m : Metadata) : Accounted root ⟨⟨{ l.session.cache with metadata := m },
      (made.erase place).put (objectPlace root e.slot.hash) n⟩,
      Function.update l.held id none, Function.update l.committed e.slot.hash e.written⟩ where
  root_eq := h.root_eq
  files p content hbelow hc := by
    have hfile : ∀ q, made.find? q = some (.file content) → l.session.files.find? q = some (.file content) := by
      intro q hq
      rcases hext.made q _ hq with hq | hq
      · exact hq
      · cases hq
    dsimp only at hc ⊢
    rw [find?_put] at hc
    split at hc
    next hpo =>
      cases hc
      refine .object hpo.1 ?_
      rw [Function.update_self]
      exact h.written_eq he hp (hfile place hn)
    next hpo =>
      rw [find?_erase] at hc
      split at hc
      · cases hc
      next hpp =>
        refine ((h.files p content hbelow (hfile p hc)).update ?_ none).commit (fun heq => hpo ⟨heq, hbelow.ne_nil⟩) _
        rw [pendingOf_eq he, hp]
        exact fun heq => hpp ⟨(Option.some.inj heq).symm, hbelow.ne_nil⟩
  booked := h.booked.update (by simp) (by simp)

end Accounted

section Transitions

variable (h : Accounted root l)
include h

lemma accounted_lookup (id : ℕ) (today : Date) (key : CacheKey) : Accounted root (l.act (.lookup id today key)) := by
  rw [act]
  cases he : l.held id with
  | some e => exact h
  | none =>
    obtain ⟨slot, s, hrun, rfl, hu, -⟩ := (CacheSlot.ensures_lookup today key l.session).exists_ok
    have hnone : pendingOf l.held id = none := by rw [pendingOf, he, Option.bind_none]
    dsimp only
    rw [hrun]
    refine (h.upkept hu).rest (fun place hp => ?_) (idle_some rfl)
    rw [hnone] at hp
    cases hp

lemma accounted_stage (id : ℕ) : Accounted root (l.act (.stage id)) := by
  rw [act]
  cases he : l.held id with
  | none => exact h
  | some e =>
    dsimp only
    -- the old temporary file is gone before the new one is made, or nothing is made
    rcases (CacheSlot.ensures_stage (h.inside he)).cases with
      ⟨slot, s, hrun, r, place, n, hr, hnone, hn, hplace, rfl, rfl⟩ | ⟨fault, s, hrun, hs⟩
    · have hreleased : Accounted root ⟨r, Function.update l.held id none, l.committed⟩ :=
        h.released he hr idle_none
      have hroot : r.cache.root = root := hreleased.root_eq
      have hbegun := hreleased.begin (Function.update_self id none l.held) hn (hroot ▸ hplace) e.slot
      rw [hrun]
      rwa [Function.update_idem] at hbegun
    · rw [hrun]
      exact h.released he hs (idle_some rfl)

lemma accounted_write (id : ℕ) (content : Bytes) : Accounted root (l.act (.write id content)) := by
  rw [act]
  cases he : l.held id with
  | none => exact h
  | some e =>
    dsimp only
    cases hp : e.slot.pending with
    | none =>
      have hw := (h.booked.begun id e he).1 hp
      have hsame : ({ e with written := e.written.map (· ++ content) } : Holding) = e := by rw [hw, Option.map_none, ← hw]
      rw [CacheSlot.run_write_of_pending_eq_none hp, hsame, ← he, Function.update_eq_self]
      exact h
    | some place =>
      rw [CacheSlot.run_write hp]
      exact h.write he hp content

lemma accounted_publish (id : ℕ) (today : Date) : Accounted root (l.act (.publish id today)) := by
  rw [act]
  cases he : l.held id with
  | none => exact h
  | some e =>
    dsimp only
    cases hp : e.slot.pending with
    | none =>
      rw [CacheSlot.run_publish_of_pending_eq_none hp]
      refine h.rest (fun place hp' => ?_) idle_none
      rw [pendingOf_eq he, hp] at hp'
      cases hp'
    | some place =>
      rcases (CacheSlot.ensures_publish hp (h.inside he) today).cases with
        ⟨_, s, hrun, made, n, hext, -, -, hn, rfl⟩ | ⟨fault, s, hrun, hs⟩
      · rw [hrun, h.root_eq]
        exact h.commit he hp hext hn _
      · rw [hrun]
        exact h.released he hs idle_none

lemma accounted_release (id : ℕ) : Accounted root (l.act (.release id)) := by
  rw [act]
  cases he : l.held id with
  | none => exact h
  | some e =>
    obtain ⟨_, s, hrun, hs⟩ := (CacheSlot.ensures_unstage (h.inside he)).exists_ok
    dsimp only
    rw [hrun]
    exact h.released he hs idle_none

lemma accounted_act (a : Action) : Accounted root (l.act a) := by
  cases a with
  | lookup id today key => exact accounted_lookup h id today key
  | stage id => exact accounted_stage h id
  | write id content => exact accounted_write h id content
  | publish id today => exact accounted_publish h id today
  | release id => exact accounted_release h id
  | store id today content =>
    rw [act_store]
    exact accounted_publish (accounted_write (accounted_stage h id) id content) id today
  | save => exact h.upkept (Cache.upkeeps_save l.session l.session (.refl _)).after
  | prune day => exact h.upkept (Cache.upkeeps_prune l.session day l.session (.refl _)).after
  | clear => exact h.upkept (Cache.upkeeps_clear l.session l.session (.refl _)).after

lemma accounted_run (actions : List Action) : Accounted root (actions.foldl act l) := by
  induction actions generalizing l with
  | nil => exact h
  | cons a actions ih =>
    rw [List.foldl_cons]
    exact ih (accounted_act h a)

end Transitions

variable {t files : FileTree} {cwd : Place} {path : RawText} {c : Cache}

lemma accounted_fresh (hopens : Cache.Opens t cwd path c.root files) (hempty : ∀ p, Below c.root p → t.find? p = none) :
    Accounted c.root (fresh ⟨c, files⟩) where
  root_eq := rfl
  files p content hbelow hc := by
    obtain ⟨made, hext, -, hu, -⟩ := hopens.upkeep
    rcases hu.file hc with hc | hp | hp
    · rcases hext.made p _ hc with hc | hc
      · rw [hempty p hbelow] at hc
        cases hc
      · cases hc
    · exact .lock hp
    · exact .metadata hp
  booked := ⟨fun _ _ hp => (nomatch hp), fun _ _ _ hp => (nomatch hp), fun _ _ he => (nomatch he)⟩

/-- In whatever order the entries of a handle on an empty directory are stored, rolled back and dropped and the cache is
maintained, an object is what the last committed store of its hash wrote from its beginning on, a lookup hits just if
there is an object, a temporary file is that of one store in progress and has what it wrote, and a commit without a
beginning fails and changes nothing. -/
theorem accounted_of_openWith {retention owner : ℕ} {today : Date}
    (hopen : (Cache.openWith path retention owner today cwd).run t = .ok c files)
    (hempty : ∀ p, Below c.root p → t.find? p = none) (actions : List Action) :
    let l := actions.foldl act (fresh ⟨c, files⟩)
    (∀ key content, l.session.files.find? (objectPlace c.root key) = some (.file content) → l.committed key = some content) ∧
    (∀ day key, answer ((CacheSlot.lookup day key).run l.session) =
      .ok ⟨key, l.session.files.isFile (objectPlace c.root key), none⟩) ∧
    (∀ name content, isTemporary name = true → l.session.files.find? (c.root ++ [name]) = some (.file content) →
      ∃! id, ∃ e, l.held id = some e ∧ e.slot.pending = some (c.root ++ [name]) ∧ e.written = some content) ∧
    ∀ id e day, l.held id = some e → e.written = none →
      (e.slot.publish day).run l.session = .error (.noPendingStore e.slot.hash) l.session := by
  intro l
  have hopens := Cache.ensures_openWith t path retention owner today cwd
  rw [Ensures, hopen] at hopens
  have h : Accounted c.root l := accounted_run (accounted_fresh hopens.1 hempty) actions
  refine ⟨?_, ?_, ?_, ?_⟩
  · intro key content hc
    exact (h.files _ content (below_objectPlace _ key) hc).committed_eq h.booked
  · intro day key
    obtain ⟨slot, s, hrun, hslot, -⟩ := (CacheSlot.ensures_lookup day key l.session).exists_ok
    rw [hrun, answer, hslot, h.root_eq]
  · intro name content hn hc
    obtain ⟨id, e, he, hp, hw⟩ := (h.files _ content (below_append (by simp)) hc).temporary_of_isTemporary hn
    refine ⟨id, ⟨e, he, hp, hw⟩, ?_⟩
    rintro id' ⟨e', he', hp', -⟩
    exact h.booked.apart id' id _ ((pendingOf_eq he').trans hp') ((pendingOf_eq he).trans hp)
  · intro id e day he hw
    exact CacheSlot.run_publish_of_pending_eq_none ((h.booked.begun id e he).2 hw) day l.session

theorem accounted_of_interleaved_stores :
    let c : Cache := ⟨"cache", ["cache"], 30, 7, 0, .empty⟩
    let files := after ((Cache.openWith "cache" 30 7 ⟨2024, 1, 1⟩ []).run .empty)
    let key : CacheKey := ⟨"0123456789abcdef0123456789abcdef0123456789abcdef0123456789abcdef", by decide⟩
    let day : Date := ⟨2024, 1, 2⟩
    let l := [.lookup 0 day key, .stage 0, .write 0 [0], .stage 0, .write 0 [1], .lookup 1 day key, .stage 1, .write 1 [2],
      .write 0 [3], .publish 0 day, .save, .write 1 [4], .lookup 2 day key].foldl act (fresh ⟨c, files⟩)
    l.session.files.find? (objectPlace ["cache"] key) = some (.file [1, 3]) ∧ l.committed key = some [1, 3] ∧
      answer ((CacheSlot.lookup day key).run l.session) = .ok ⟨key, true, none⟩ ∧
      (∃! id, ∃ e, l.held id = some e ∧ e.slot.pending = some (["cache", .ofText (temporaryName key.text 7 2)] : Place) ∧
        e.written = some [2, 4]) ∧
      (CacheSlot.publish day ⟨key, true, none⟩).run l.session = .error (.noPendingStore key) l.session := by
  intro c files key day l
  have hopen : (Cache.openWith "cache" 30 7 ⟨2024, 1, 1⟩ []).run .empty = .ok c files :=
    eq_ok_of_answer (eq_ok_of_toOption_eq_some (by decide +kernel))
  have hempty : ∀ p, Below c.root p → FileTree.empty.find? p = none := fun p hp => find?_of_ne hp.ne_nil
  obtain ⟨hobject, hlookup, htemporary, hcommit⟩ := accounted_of_openWith hopen hempty
    [.lookup 0 day key, .stage 0, .write 0 [0], .stage 0, .write 0 [1], .lookup 1 day key, .stage 1, .write 1 [2],
      .write 0 [3], .publish 0 day, .save, .write 1 [4], .lookup 2 day key]
  have hrun : l.session.files.find? (objectPlace ["cache"] key) = some (.file [1, 3]) ∧
      l.session.files.find? ["cache", RawText.ofText (temporaryName key.text 7 2)] = some (.file [2, 4]) ∧
      l.held 2 = some ⟨⟨key, true, none⟩, none⟩ := by decide +kernel
  obtain ⟨hfound, htemp, hheld⟩ := hrun
  refine ⟨hfound, hobject key [1, 3] hfound, ?_, ?_, ?_⟩
  · rw [hlookup day key, isFile_iff.2 ⟨[1, 3], hfound⟩]
  · exact htemporary (.ofText (temporaryName key.text 7 2)) [2, 4] (isTemporary_temporaryName key.text 7 2) htemp
  · exact hcommit 2 ⟨⟨key, true, none⟩, none⟩ day hheld rfl

end NamespaceMigration.Ledger
