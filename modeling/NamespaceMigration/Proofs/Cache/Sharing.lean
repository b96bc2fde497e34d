import NamespaceMigration.Proofs.Cache.Accounting
import NamespaceMigration.Proofs.Cache.Extent

namespace NamespaceMigration

open FileTree CacheLayout Steps

namespace Ledger

variable {root p : Place} {owner id : ℕ} {l : Ledger} {e : Holding} {x : Option Holding} {u : CacheSession}

def Action.id? : Action → Option ℕ
  | lookup id _ _ => some id
  | stage id => some id
  | write id _ => some id
  | publish id _ => some id
  | release id => some id
  | store id _ _ => some id
  | _ => none

def withFiles (l : Ledger) (t : FileTree) : Ledger := { l with session.files := t }

def pendingAt (l : Ledger) (a : Action) : Option Place := a.id?.bind (pendingOf l.held)

structure Kept (root : Place) (owner : ℕ) (l : Ledger) : Prop where
  root_eq : l.session.cache.root = root
  owner_eq : l.session.cache.owner = owner
  booked : Booked root owner l.session.cache.temporaries l.held

namespace Kept

lemma fresh (root : Place) (owner : ℕ) {s : CacheSession} (hroot : s.cache.root = root) (howner : s.cache.owner = owner) :
    (fresh s).Kept root owner where
  root_eq := hroot
  owner_eq := howner
  booked := ⟨fun _ _ hp => (nomatch hp), fun _ _ _ hp => (nomatch hp), fun _ _ he => (nomatch he)⟩

variable (h : l.Kept root owner)
include h

lemma withFiles (t : FileTree) : (l.withFiles t).Kept root owner := ⟨h.root_eq, h.owner_eq, h.booked⟩

lemma inside (he : l.held id = some e) : e.slot.Inside l.session := by
  intro place hp
  obtain ⟨stem, n, -, rfl⟩ := h.booked.numbered id place ((pendingOf_eq he).trans hp)
  rw [h.root_eq]
  exact below_append (by simp)

lemma upkept (hu : l.session.Upkept u) : Kept root owner { l with session := u } :=
  ⟨hu.root.trans h.root_eq, hu.owner.trans h.owner_eq, h.booked.mono hu.temporaries⟩

lemma rest (hx : Idle x) (id : ℕ) (committed : CacheKey → Option Bytes) :
    Kept root owner ⟨l.session, Function.update l.held id x, committed⟩ := by
  refine ⟨h.root_eq, h.owner_eq, h.booked.update ?_ fun e he => by simp [hx e he]⟩
  intro e place he hp
  rw [(hx e he).1] at hp
  cases hp

lemma act_lookup (id : ℕ) (today : Date) (key : CacheKey) : (l.act (.lookup id today key)).Kept root owner := by
  rw [act]
  cases he : l.held id with
  | some e => exact h
  | none =>
    obtain ⟨slot, s, hrun, rfl, hu, -⟩ := (CacheSlot.ensures_lookup today key l.session).exists_ok
    dsimp only
    rw [hrun]
    exact (h.upkept hu).rest (idle_some rfl) id l.committed

lemma act_stage (id : ℕ) : (l.act (.stage id)).Kept root owner := by
  rw [act]
  cases he : l.held id with
  | none => exact h
  | some e =>
    dsimp only
    rcases (CacheSlot.ensures_stage (h.inside he)).cases with
      ⟨slot, s, hrun, r, place, n, hr, -, hn, hplace, rfl, rfl⟩ | ⟨fault, s, hrun, hs⟩
    · have hreleased := (h.upkept hr.upkept).rest idle_none id l.committed
      have hp : (⟨{ e.slot with pending := some place }, some []⟩ : Holding).slot.pending =
          some (root ++ [RawText.ofText (temporaryName e.slot.hash.text owner n)]) := by
        rw [hplace, hr.upkept.root, hr.upkept.owner, h.root_eq, h.owner_eq]
      have hbegun : Booked _ _ _ (Function.update _ id _) := hreleased.booked.begin hn hp (by simp)
      rw [hrun]
      rw [Function.update_idem] at hbegun
      exact ⟨hreleased.root_eq, hreleased.owner_eq, hbegun⟩
    · rw [hrun]
      exact (h.upkept hs.upkept).rest (idle_some rfl) id l.committed

lemma act_write (id : ℕ) (content : Bytes) : (l.act (.write id content)).Kept root owner := by
  rw [act]
  cases he : l.held id with
  | none => exact h
  | some e =>
    have hcache : (after ((e.slot.write content).run l.session)).cache = l.session.cache := by
      cases hp : e.slot.pending with
      | none => rw [CacheSlot.run_write_of_pending_eq_none hp, after]
      | some place => rw [CacheSlot.run_write hp, after]
    refine ⟨by rw [hcache, h.root_eq], by rw [hcache, h.owner_eq], ?_⟩
    dsimp only
    rw [hcache]
    apply h.booked.update
    · rintro _ place hx hp
      cases hx
      exact (pendingOf_eq he).trans hp
    · rintro _ hx
      cases hx
      simpa using h.booked.begun id e he

lemma act_publish (id : ℕ) (today : Date) : (l.act (.publish id today)).Kept root owner := by
  rw [act]
  cases he : l.held id with
  | none => exact h
  | some e =>
    dsimp only
    cases hp : e.slot.pending with
    | none =>
      rw [CacheSlot.run_publish_of_pending_eq_none hp]
      exact h.rest idle_none id l.committed
    | some place =>
      rcases (CacheSlot.ensures_publish hp (h.inside he) today).cases with
        ⟨_, s, hrun, made, n, -, -, -, -, rfl⟩ | ⟨fault, s, hrun, hs⟩
      · rw [hrun]
        obtain ⟨hroot, howner, hbooked⟩ := h.rest idle_none id (Function.update l.committed e.slot.hash e.written)
        exact ⟨hroot, howner, hbooked⟩
      · rw [hrun]
        exact (h.upkept hs.upkept).rest idle_none id l.committed

lemma act_release (id : ℕ) : (l.act (.release id)).Kept root owner := by
  rw [act]
  cases he : l.held id with
  | none => exact h
  | some e =>
    obtain ⟨_, s, hrun, hs⟩ := (CacheSlot.ensures_unstage (h.inside he)).exists_ok
    dsimp only
    rw [hrun]
    exact (h.upkept hs.upkept).rest idle_none id l.committed

lemma act (a : Action) : (l.act a).Kept root owner := by
  cases a with
  | lookup id today key => exact h.act_lookup id today key
  | stage id => exact h.act_stage id
  | write id content => exact h.act_write id content
  | publish id today => exact h.act_publish id today
  | release id => exact h.act_release id
  | store id today content =>
    rw [act_store]
    exact ((h.act_stage id).act_write id content).act_publish id today
  | save => exact h.upkept (Cache.upkeeps_save l.session l.session (.refl _)).after
  | prune day => exact h.upkept (Cache.upkeeps_prune l.session day l.session (.refl _)).after
  | clear => exact h.upkept (Cache.upkeeps_clear l.session l.session (.refl _)).after

end Kept

section Effects

def perform? (l : Ledger) : Action → Option (CacheM Unit)
  | .lookup id today key => if l.held id = none then some (do let _ ← CacheSlot.lookup today key) else none
  | .stage id => (l.held id).map fun e => do let _ ← e.slot.stage
  | .write id content => (l.held id).map fun e => e.slot.write content
  | .publish id today => (l.held id).map fun e => e.slot.publish today
  | .release id => (l.held id).map fun e => e.slot.unstage
  | .store id today content => (l.held id).map fun e => e.slot.store today content
  | .save => some Cache.save
  | .prune day => some do let _ ← Cache.prune day
  | .clear => some Cache.clear

lemma after_bind_pure {α : Type} (x : CacheM α) (s : CacheSession) :
    after ((do let _ ← x : CacheM Unit).run s) = after (x.run s) := by
  have hb : (do let _ ← x : CacheM Unit).run s = EStateM.bind x (fun _ => pure ()) s := rfl
  have hx : x.run s = x s := rfl
  rw [hb, hx, EStateM.bind]
  cases x s <;> rfl

lemma session_settle (l : Ledger) (id : ℕ) (key : CacheKey) (content : Option Bytes)
    (r : EStateM.Result CacheFault CacheSession Unit) : (l.settle id key content r).session = after r := by
  cases r <;> rfl

lemma session_act (l : Ledger) (a : Action) :
    (l.act a).session = ((l.perform? a).map fun x => after (x.run l.session)).getD l.session := by
  cases a with
  | lookup id today key =>
    rw [act, perform?]
    cases l.held id with
    | some e => rfl
    | none =>
      rw [if_pos rfl, Option.map_some, after_bind_pure, Option.getD_some]
      cases (CacheSlot.lookup today key).run l.session <;> rfl
  | stage id =>
    rw [act, perform?]
    cases l.held id with
    | none => rfl
    | some e =>
      rw [Option.map_some, Option.map_some, after_bind_pure, Option.getD_some]
      dsimp only
      cases e.slot.stage.run l.session <;> rfl
  | write id content =>
    rw [act, perform?]
    cases l.held id <;> rfl
  | publish id today =>
    rw [act, perform?]
    cases l.held id with
    | none => rfl
    | some e => exact session_settle l id _ _ _
  | release id =>
    rw [act, perform?]
    cases l.held id <;> rfl
  | store id today content =>
    rw [act, perform?]
    cases l.held id with
    | none => rfl
    | some e => exact session_settle l id _ _ _
  | save => rfl
  | prune day =>
    rw [act, perform?, Option.map_some, after_bind_pure, Option.getD_some]
  | clear => rfl

lemma invariant_act {I : CacheSession → Prop} {a : Action} (h : I l.session)
    (hx : ∀ x, l.perform? a = some x → Keeps I x) : I (l.act a).session := by
  rw [session_act]
  cases hp : l.perform? a with
  | none => exact h
  | some x => exact (hx x hp l.session h).after

variable {a : Action} (h : l.Kept root owner) (hr : l.session.files.Reaches root)
include h

lemma inside_pendingOf {q : Place} (hq : pendingOf l.held id = some q) : Below l.session.cache.root q := by
  obtain ⟨e, he, hp⟩ := Option.bind_eq_some_iff.1 hq
  exact h.inside he q hp

include hr

lemma spares_act_of_id (hid : a.id? = some id) :
    l.session.files.Spares (l.session.Stores (pendingOf l.held id)) (l.act a).session.files := by
  have hreach : l.session.files.Reaches l.session.cache.root := h.root_eq ▸ hr
  refine (invariant_act (I := l.session.Within (l.session.Stores (pendingOf l.held id))) (.refl _) fun x hx => ?_).files
  have hheld : ∀ {f : Holding → CacheM Unit}, (l.held id).map f = some x →
      (∀ e, l.held id = some e → Keeps (l.session.Within (l.session.Stores e.slot.pending)) (f e)) →
      Keeps (l.session.Within (l.session.Stores (pendingOf l.held id))) x := by
    intro f hf hkeeps
    obtain ⟨e, he, rfl⟩ := Option.map_eq_some_iff.1 hf
    rw [pendingOf_eq he]
    exact hkeeps e he
  cases a with
  | lookup id' today key =>
    rw [perform?] at hx
    split at hx
    · obtain rfl := Option.some.inj hx
      exact .bind (CacheSlot.within_lookup today key) fun _ => .pure _
    · cases hx
  | stage id' =>
    obtain rfl := Option.some.inj hid
    refine hheld hx fun e _ => .bind (fun u hu => ?_) fun _ => .pure _
    exact (CacheSlot.within_stage hu).mono (fun _ _ hv => hv.1) fun _ _ hv => hv
  | write id' content =>
    obtain rfl := Option.some.inj hid
    exact hheld hx fun e _ => CacheSlot.within_write (fun p hp => .pending hp) content
  | publish id' today =>
    obtain rfl := Option.some.inj hid
    exact hheld hx fun e he =>
      CacheSlot.within_publish (fun _ hp => hp) (fun p hp => hp.below (h.inside he)) hreach today
  | release id' =>
    obtain rfl := Option.some.inj hid
    exact hheld hx fun e _ => CacheSlot.within_unstage
  | store id' today content =>
    obtain rfl := Option.some.inj hid
    exact hheld hx fun e he => CacheSlot.within_store (h.inside he) hreach today content
  | save => cases hid
  | prune day => cases hid
  | clear => cases hid

lemma spares_act (ha : a ≠ .clear) : l.session.files.Spares (l.session.Tends (l.pendingAt a)) (l.act a).session.files := by
  have hreach : l.session.files.Reaches l.session.cache.root := h.root_eq ▸ hr
  cases hid : a.id? with
  | some id =>
    have hpending : l.pendingAt a = pendingOf l.held id := by rw [pendingAt, hid, Option.bind_some]
    exact hpending ▸ (spares_act_of_id h hr hid).mono fun p hp => .inl hp
  | none =>
    have hpending : l.pendingAt a = none := by rw [pendingAt, hid, Option.bind_none]
    rw [hpending]
    cases a with
    | save => exact (Cache.within_save hreach l.session (.refl _)).after.files
    | prune day => exact (Cache.within_prune hreach day l.session (.refl _)).after.files
    | clear => exact absurd rfl ha
    | _ => cases hid

lemma reaches_act (a : Action) : (l.act a).session.files.Reaches root := by
  by_cases ha : a = .clear
  · subst ha
    have hclear := (Cache.upkeeps_clear l.session l.session (.refl _)).after.files
    rw [h.root_eq] at hclear
    exact fun q hq => hclear.outside q _ (not_below_above hq) (hr q hq)
  · refine (spares_act h hr ha).reaches (fun q hq hs => not_below_above hq ?_) hr
    rw [← h.root_eq]
    refine hs.below fun place hp => ?_
    obtain ⟨id, -, hp⟩ := Option.bind_eq_some_iff.1 hp
    exact inside_pendingOf h hp

end Effects

end Ledger

/-- Files, and the ledgers of the owners that work on them. The files in a ledger are those that its last step left. -/
structure Site where
  files : FileTree
  ledgers : ℕ → Option Ledger

namespace Site

inductive Step where
  | enter (owner : ℕ) (path : RawText) (cwd : Place) (retention : ℕ) (today : Date)
  | act (owner : ℕ) (action : Ledger.Action)
  deriving DecidableEq, Repr

def ofFiles (t : FileTree) : Site := ⟨t, fun _ => none⟩

def ledger? (s : Site) (i : ℕ) : Option Ledger := (s.ledgers i).map fun l => l.withFiles s.files

def step (s : Site) : Step → Site
  | .enter owner path cwd retention today =>
    match s.ledgers owner with
    | some _ => s
    | none =>
      match (Cache.openWith path retention owner today cwd).run s.files with
      | .ok c t => ⟨t, Function.update s.ledgers owner (some (.fresh ⟨c, t⟩))⟩
      | .error _ t => { s with files := t }
  | .act owner action =>
    match s.ledger? owner with
    | none => s
    | some l => ⟨(l.act action).session.files, Function.update s.ledgers owner (some (l.act action))⟩

def run (s : Site) (steps : List Step) : Site := steps.foldl step s

variable {s s' : Site} {x : Step} {steps : List Step} {root p : Place} {i j : ℕ} {l m : Ledger} {a : Ledger.Action}
  {t : FileTree}

lemma run_append (s : Site) (before after : List Step) : s.run (before ++ after) = (s.run before).run after :=
  List.foldl_append

lemma run_concat (s : Site) (steps : List Step) (x : Step) : s.run (steps ++ [x]) = (s.run steps).step x := by
  rw [run_append]
  rfl

inductive Outcome (s : Site) (x : Step) : Site → Prop
  | idle (hx : ∀ owner action, x = .act owner action → s.ledger? owner = none) : Outcome s x s
  | made {t : FileTree} (hx : ∀ owner action, x ≠ .act owner action) (ht : s.files.Extends t) :
      Outcome s x { s with files := t }
  | opened {owner retention : ℕ} {path : RawText} {cwd : Place} {today : Date} {c : Cache} {t : FileTree}
      (hx : x = .enter owner path cwd retention today) (hnone : s.ledgers owner = none)
      (hopens : Cache.Opens s.files cwd path c.root t) (hc : c = ⟨path, c.root, retention, owner, 0, c.metadata⟩)
      (hm : Cache.loadMetadata c.root today t = .ok c.metadata) :
      Outcome s x ⟨t, Function.update s.ledgers owner (some (.fresh ⟨c, t⟩))⟩
  | acted {owner : ℕ} {action : Ledger.Action} {l : Ledger} (hx : x = .act owner action) (hl : s.ledger? owner = some l) :
      Outcome s x ⟨(l.act action).session.files, Function.update s.ledgers owner (some (l.act action))⟩

lemma outcome_step (s : Site) (x : Step) : Outcome s x (s.step x) := by
  cases x with
  | enter owner path cwd retention today =>
    rw [step]
    cases hl : s.ledgers owner with
    | some l => exact .idle fun _ _ hx => (nomatch hx)
    | none =>
      dsimp only
      rcases (Cache.ensures_openWith s.files path retention owner today cwd).cases with
        ⟨c, t, hrun, hopens, hc, hm⟩ | ⟨fault, t, hrun, hext⟩
      · rw [hrun]
        exact .opened rfl hl hopens hc hm
      · rw [hrun]
        exact .made (fun _ _ hx => nomatch hx) hext
  | act owner action =>
    rw [step]
    cases hl : s.ledger? owner with
    | none =>
      refine .idle ?_
      rintro _ _ ⟨⟩
      exact hl
    | some l => exact .acted rfl hl

section Ledgers

lemma ledger?_eq_some_iff : s.ledger? i = some l ↔ ∃ m, s.ledgers i = some m ∧ l = m.withFiles s.files := by
  rw [ledger?, Option.map_eq_some_iff]
  simp only [eq_comm]

lemma files_of_ledger? (hl : s.ledger? i = some l) : l.session.files = s.files := by
  obtain ⟨m, -, rfl⟩ := ledger?_eq_some_iff.1 hl
  rfl

lemma ledger?_update (s : Site) (t : FileTree) (i j : ℕ) (l : Ledger) :
    (⟨t, Function.update s.ledgers i (some l)⟩ : Site).ledger? j =
      if j = i then some (l.withFiles t) else (s.ledger? j).map fun m => m.withFiles t := by
  rw [ledger?, ledger?]
  dsimp only
  rw [Function.update_apply]
  split
  · rfl
  · rw [Option.map_map]
    rfl

lemma ledger?_withFiles (s : Site) (t : FileTree) (j : ℕ) :
    ({ s with files := t } : Site).ledger? j = (s.ledger? j).map fun m => m.withFiles t := by
  rw [ledger?, ledger?, Option.map_map]
  rfl

lemma step_act (hl : s.ledger? i = some l) (a : Ledger.Action) :
    s.step (.act i a) = ⟨(l.act a).session.files, Function.update s.ledgers i (some (l.act a))⟩ := by
  rw [step, hl]

lemma ledger?_step_act (hl : s.ledger? i = some l) (a : Ledger.Action) : (s.step (.act i a)).ledger? i = some (l.act a) := by
  rw [step_act hl, ledger?_update, if_pos rfl]
  rfl

lemma ledger?_step_of_some (hl : s.ledger? i = some l) (x : Step) :
    (s.step x).ledger? i = some (l.withFiles (s.step x).files) ∨
      ∃ a, x = .act i a ∧ (s.step x).ledger? i = some (l.act a) := by
  have hout := outcome_step s x
  generalize s.step x = s' at hout ⊢
  cases hout with
  | idle _ =>
    obtain ⟨m, hm, rfl⟩ := ledger?_eq_some_iff.1 hl
    exact .inl hl
  | made _ _ => exact .inl ((ledger?_withFiles s _ i).trans (congrArg _ hl))
  | @opened owner _ _ _ _ c t _ hnone _ _ _ =>
    have hne : i ≠ owner := by
      rintro rfl
      rw [ledger?, hnone] at hl
      cases hl
    rw [ledger?_update, if_neg hne, hl]
    exact .inl rfl
  | @acted owner a m hact hm =>
    rw [ledger?_update]
    split
    next hi =>
      subst hi
      obtain rfl := Option.some.inj (hl.symm.trans hm)
      exact .inr ⟨a, hact, rfl⟩
    next =>
      rw [hl]
      exact .inl rfl

inductive Origin (s : Site) (x : Step) (i : ℕ) : Ledger → Prop
  | stayed {m : Ledger} (hm : s.ledger? i = some m) : Origin s x i (m.withFiles (s.step x).files)
  | acted {a : Ledger.Action} {m : Ledger} (hx : x = .act i a) (hm : s.ledger? i = some m) : Origin s x i (m.act a)
  | opened {retention : ℕ} {path : RawText} {cwd : Place} {today : Date} {c : Cache} {t : FileTree}
      (hx : x = .enter i path cwd retention today) (howner : c.owner = i)
      (hm : Cache.loadMetadata c.root today t = .ok c.metadata) : Origin s x i (.fresh ⟨c, t⟩)

lemma origin_of_ledger?_step (hl : (s.step x).ledger? i = some l) : Origin s x i l := by
  cases hm : s.ledger? i with
  | some m =>
    rcases ledger?_step_of_some hm x with hstep | ⟨a, hx, hstep⟩
    · obtain rfl := Option.some.inj (hstep.symm.trans hl)
      exact .stayed hm
    · obtain rfl := Option.some.inj (hstep.symm.trans hl)
      exact .acted hx hm
  | none =>
    have hout := outcome_step s x
    generalize s.step x = s' at hout hl
    cases hout with
    | idle _ => cases hm.symm.trans hl
    | made _ _ =>
      rw [ledger?_withFiles, hm] at hl
      cases hl
    | opened hx _ _ hc hload =>
      rw [ledger?_update, hm] at hl
      split at hl
      next hi =>
        subst hi
        obtain rfl := Option.some.inj hl
        exact .opened hx (congrArg Cache.owner hc) hload
      next => cases hl
    | acted _ howner =>
      rw [ledger?_update, hm] at hl
      split at hl
      next hi =>
        subst hi
        cases hm.symm.trans howner
      next => cases hl

end Ledgers

def At (root : Place) (s : Site) : Prop := ∀ i l, s.ledger? i = some l → l.session.cache.root = root

def Tidy (s : Site) : Prop := ∀ i l, s.ledger? i = some l → l.Kept l.session.cache.root i

structure Orderly (root : Place) (s : Site) : Prop where
  kept : ∀ i l, s.ledger? i = some l → l.Kept root i
  reaches : ∀ i l, s.ledger? i = some l → s.files.Reaches root

lemma Tidy.step (h : s.Tidy) (x : Step) : (s.step x).Tidy := by
  intro i l hl
  cases origin_of_ledger?_step hl with
  | stayed hm => exact (h i _ hm).withFiles _
  | @acted a m _ hm =>
    have hkept := (h i m hm).act a
    rw [← hkept.root_eq] at hkept
    exact hkept
  | opened _ howner _ => exact .fresh _ i rfl howner

lemma Tidy.exists_ledger (h : s.Tidy) (hl : s.ledger? i = some l) (x : Step) :
    ∃ m, (s.step x).ledger? i = some m ∧ m.session.cache.root = l.session.cache.root := by
  rcases ledger?_step_of_some hl x with hstep | ⟨a, -, hstep⟩
  · exact ⟨_, hstep, rfl⟩
  · exact ⟨_, hstep, ((h i l hl).act a).root_eq⟩

lemma tidy_run (h : s.Tidy) (steps : List Step) : (s.run steps).Tidy := by
  induction steps generalizing s with
  | nil => exact h
  | cons x steps ih => exact ih (h.step x)

lemma tidy_ofFiles (t : FileTree) : (ofFiles t).Tidy := fun _ _ hl => nomatch hl

lemma At.of_step (hs : s.Tidy) (h : (s.step x).At root) : s.At root := by
  intro i l hl
  obtain ⟨m, hm, hroot⟩ := hs.exists_ledger hl x
  rw [← hroot, h i m hm]

lemma At.of_run (hs : s.Tidy) (h : (s.run steps).At root) : s.At root := by
  induction steps generalizing s with
  | nil => exact h
  | cons x steps ih => exact .of_step hs (ih (hs.step x) h)

lemma Orderly.tidy (h : s.Orderly root) : s.Tidy := by
  intro i l hl
  have hkept := h.kept i l hl
  rwa [← hkept.root_eq] at hkept

lemma Orderly.step (h : s.Orderly root) (hat : (s.step x).At root) : (s.step x).Orderly root := by
  refine ⟨fun i l hl => hat i l hl ▸ h.tidy.step x i l hl, fun i l hl => ?_⟩
  have hout := outcome_step s x
  generalize s.step x = s' at hout hat hl ⊢
  cases hout with
  | idle _ => exact h.reaches i l hl
  | made _ ht =>
    rw [ledger?_withFiles] at hl
    obtain ⟨m, hm, -⟩ := Option.map_eq_some_iff.1 hl
    exact ht.reaches (h.reaches i m hm)
  | @opened owner _ _ _ _ c t _ _ hopens _ _ =>
    have hroot : c.root = root := hat owner _ ((ledger?_update s t owner owner _).trans (if_pos rfl))
    obtain ⟨-, -, -, -, hreach⟩ := hopens.upkeep
    exact hroot ▸ hreach
  | @acted owner a m _ hm =>
    refine Ledger.reaches_act (h.kept owner m hm) ?_ a
    rw [files_of_ledger? hm]
    exact h.reaches owner m hm

lemma Orderly.run (h : s.Orderly root) (hat : (s.run steps).At root) : (s.run steps).Orderly root := by
  induction steps generalizing s with
  | nil => exact h
  | cons x steps ih =>
    exact ih (h.step (.of_run (h.tidy.step x) hat)) hat

def Step.entrant? : Step → Option ℕ
  | enter owner _ _ _ _ => some owner
  | act _ _ => none

lemma ledger?_run_eq_none (hi : i ∉ steps.filterMap Step.entrant?) (h : s.ledger? i = none) :
    (s.run steps).ledger? i = none := by
  induction steps generalizing s with
  | nil => exact h
  | cons x steps ih =>
    refine ih (fun hmem => hi ?_) ?_
    · obtain ⟨y, hy, hyi⟩ := List.mem_filterMap.1 hmem
      exact List.mem_filterMap.2 ⟨y, by simp [hy], hyi⟩
    · by_contra hsome
      obtain ⟨l, hl⟩ := Option.ne_none_iff_exists'.1 hsome
      cases origin_of_ledger?_step hl with
      | stayed hm => cases h.symm.trans hm
      | acted _ hm => cases h.symm.trans hm
      | opened hx _ _ => exact hi (List.mem_filterMap.2 ⟨x, by simp, hx ▸ rfl⟩)

lemma at_run (h : ∀ i ∈ steps.filterMap Step.entrant?,
    (((ofFiles t).run steps).ledger? i).all fun l => decide (l.session.cache.root = root)) :
    ((ofFiles t).run steps).At root := by
  intro i l hl
  by_cases hi : i ∈ steps.filterMap Step.entrant?
  · simpa [hl] using h i hi
  · rw [ledger?_run_eq_none hi rfl] at hl
    cases hl

lemma orderly_of_at (h : ((ofFiles t).run steps).At root) : ((ofFiles t).run steps).Orderly root :=
  Orderly.run ⟨fun _ _ hl => (nomatch hl), fun _ _ hl => (nomatch hl)⟩ h

end Site

end NamespaceMigration
