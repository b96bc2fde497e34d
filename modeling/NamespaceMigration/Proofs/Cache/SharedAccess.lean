import NamespaceMigration.Proofs.Cache.Pruning
import NamespaceMigration.Proofs.Cache.Remembering
import NamespaceMigration.Proofs.Cache.Sharing

/-! Accesses in a shared directory. -/

namespace NamespaceMigration

open FileTree CacheLayout Steps

namespace Ledger

variable {M : Metadata → Prop} {l : Ledger} {a : Action} {key : CacheKey} {d : Date} {root : Place} {owner : ℕ}

def Action.day? : Action → Option Date
  | lookup _ today _ => some today
  | publish _ today => some today
  | store _ today _ => some today
  | _ => none

lemma minds_act_of_id (ha : a.id? ≠ none) (hM : ∀ today m key, a.day? = some today → M m → M (m.touch key today))
    (h : M l.session.cache.metadata) : M (l.act a).session.cache.metadata := by
  refine invariant_act (I := CacheSession.Minds M) h fun x hx => ?_
  have hheld : ∀ {id} {f : Holding → CacheM Unit}, (l.held id).map f = some x →
      (∀ e, Keeps (CacheSession.Minds M) (f e)) → Keeps (CacheSession.Minds M) x := by
    intro id f hf hkeeps
    obtain ⟨e, -, rfl⟩ := Option.map_eq_some_iff.1 hf
    exact hkeeps e
  cases a with
  | lookup id today k =>
    rw [perform?] at hx
    split at hx
    · obtain rfl := Option.some.inj hx
      exact .bind (CacheSlot.minds_lookup (fun m key => hM today m key rfl) k) fun _ => .pure _
    · cases hx
  | stage id => exact hheld hx fun e => .bind CacheSlot.minds_stage fun _ => .pure _
  | write id content => exact hheld hx fun e => CacheSlot.minds_write content
  | publish id today => exact hheld hx fun e => CacheSlot.minds_publish fun m key => hM today m key rfl
  | release id => exact hheld hx fun e => CacheSlot.minds_unstage
  | store id today content => exact hheld hx fun e => CacheSlot.minds_store (fun m key => hM today m key rfl) content
  | save => exact absurd rfl ha
  | prune day => exact absurd rfl ha
  | clear => exact absurd rfl ha

lemma wellFormed_act (ha : ∀ today, a.day? = some today → today.isValid = true)
    (h : l.session.cache.metadata.WellFormed) : (l.act a).session.cache.metadata.WellFormed := by
  by_cases hid : a.id? = none
  · have hmerge : ∀ s : CacheSession, s.cache.metadata.WellFormed → (Cache.merged s).WellFormed :=
      fun _ hs => Cache.wellFormed_merged hs
    cases a with
    | save => exact (Cache.minds_save hmerge l.session h).after
    | prune day => exact (Cache.minds_prune hmerge (fun _ _ hm => hm.erase) day l.session h).after
    | clear => exact (Cache.minds_clear .empty l.session h).after
    | _ => cases hid
  · exact minds_act_of_id hid (fun today m key hd hm => hm.touch (ha today hd)) h

def Accesses (l : Ledger) (key : CacheKey) (d : Date) : Action → Prop
  | .lookup id today k => l.held id = none ∧ today = d ∧ k = key ∧
      l.session.files.isFile (objectPlace l.session.cache.root key) = true
  | .publish id today => today = d ∧ ∃ e u, l.held id = some e ∧ e.slot.hash = key ∧
      (e.slot.publish today).run l.session = .ok () u
  | .store id today content => today = d ∧ ∃ e u, l.held id = some e ∧ e.slot.hash = key ∧
      (e.slot.store today content).run l.session = .ok () u
  | _ => False

lemma Accesses.day?_eq (h : l.Accesses key d a) : a.day? = some d := by
  cases a with
  | lookup id today k => exact congrArg some h.2.1
  | publish id today => exact congrArg some h.1
  | store id today content => exact congrArg some h.1
  | _ => exact h.elim

lemma knows_of_accesses (h : l.Accesses key d a) : (l.act a).session.cache.metadata.Knows key d := by
  rw [session_act]
  cases a with
  | lookup id today k =>
    obtain ⟨hnone, rfl, rfl, hf⟩ := h
    have hlookup : Ensures l.session (CacheSlot.lookup today k) (fun _ u => u.cache.metadata.Knows k today) fun _ _ => False := by
      refine ensures_get_bind.2 ?_
      rw [if_pos hf]
      exact Metadata.knows_touch.2 (.inr ⟨rfl, le_rfl⟩)
    obtain ⟨_, u, hrun, hu⟩ := hlookup.exists_ok
    rw [perform?, if_pos hnone, Option.map_some, after_bind_pure, hrun]
    exact hu
  | publish id today =>
    obtain ⟨rfl, e, u, he, rfl, hrun⟩ := h
    have hknows := CacheSlot.knows_publish e.slot today l.session
    rw [Ensures, hrun] at hknows
    rw [perform?, he, Option.map_some, Option.map_some, hrun]
    exact hknows
  | store id today content =>
    obtain ⟨rfl, e, u, he, rfl, hrun⟩ := h
    have hknows := CacheSlot.knows_store e.slot today content l.session
    rw [Ensures, hrun] at hknows
    rw [perform?, he, Option.map_some, Option.map_some, hrun]
    exact hknows
  | _ => exact h.elim

def Flushes (l : Ledger) : Action → Prop
  | .save => ∃ u, Cache.save.run l.session = .ok () u
  | .prune day => ∃ report u, (Cache.prune day).run l.session = .ok report u
  | _ => False

lemma not_flushes_of_id (ha : a.id? ≠ none) : ¬ l.Flushes a := by
  cases a with
  | save => exact absurd rfl ha
  | prune day => exact absurd rfl ha
  | _ => exact id

lemma retained_act (h : l.Kept root owner) (hr : l.session.files.Reaches (shardPlace root key))
    (hw : l.session.cache.metadata.WellFormed) (hd : d.Written) (ha : a ≠ .clear) :
    Cache.Retained root key d (l.Flushes a) l.session (l.act a).session := by
  have hreach : l.session.files.Reaches root := hr.of_prefix (List.prefix_append root [key.shard])
  by_cases hid : a.id? = none
  · cases a with
    | save =>
      rcases (Cache.retained_save h.root_eq hr hw hd).cases with ⟨_, u, hrun, hu⟩ | ⟨fault, u, hrun, hu⟩
      · rw [act, hrun]
        exact hu.mono fun _ => trivial
      · rw [act, hrun]
        refine hu.mono ?_
        rintro ⟨u', hok⟩
        cases hrun.symm.trans hok
    | prune day =>
      rcases (Cache.retained_prune h.root_eq hr hw hd day).cases with ⟨report, u, hrun, hu⟩ | ⟨fault, u, hrun, hu⟩
      · rw [act, hrun]
        exact hu.mono fun _ => trivial
      · rw [act, hrun]
        refine hu.mono ?_
        rintro ⟨report', u', hok⟩
        cases hrun.symm.trans hok
    | clear => exact absurd rfl ha
    | _ => cases hid
  · obtain ⟨id, hsome⟩ := Option.ne_none_iff_exists'.1 hid
    have hpending : pendingOf l.held id ≠ some (metadataPlace l.session.cache.root) := by
      rw [h.root_eq]
      intro hp
      obtain ⟨stem, n, -, hplace⟩ := h.booked.numbered id _ hp
      have hname : RawText.ofText (temporaryName stem owner n) = .ofText Metadata.fileName := by
        simpa [metadataPlace] using hplace.symm
      exact ne_of_isTemporary (isTemporary_temporaryName stem owner n) (by decide) hname
    have hfile := spares_act_of_id h hreach hsome _ (not_stored_metadataPlace hpending)
    rw [h.root_eq] at hfile
    refine ⟨fun hk _ => ?_, fun hk _ => ?_⟩
    · exact minds_act_of_id (M := fun m => m.Knows key d) hid (fun _ _ _ _ hm => Metadata.knows_touch.2 (.inl hm)) hk
    · rw [Cache.recorded_congr hreach (reaches_act h hreach a) hfile]
      exact hk.resolve_left fun hf => not_flushes_of_id hid hf.1

end Ledger

namespace Site

variable {s : Site} {x : Step} {steps : List Step} {root : Place} {key : CacheKey} {d : Date} {i j : ℕ} {l : Ledger}

def Step.day? : Step → Option Date
  | enter _ _ _ _ today => some today
  | act _ a => a.day?

def Step.Dated (x : Step) : Prop := ∀ today, x.day? = some today → today.isValid = true

def Sound (s : Site) : Prop := ∀ i l, s.ledger? i = some l → l.session.cache.metadata.WellFormed

def There (root : Place) (key : CacheKey) (s : Site) : Prop := ∃ content, s.files.read (objectPlace root key) = .ok content

def KnownTo (j : ℕ) (key : CacheKey) (d : Date) (s : Site) : Prop :=
  ∃ l, s.ledger? j = some l ∧ l.session.cache.metadata.Knows key d

def Flushes (j : ℕ) (s : Site) (x : Step) : Prop := ∃ l a, x = .act j a ∧ s.ledger? j = some l ∧ l.Flushes a

/-- Whether an object is there before, between and after steps of handles on its directory, none of which clears it. -/
structure Stays (root : Place) (key : CacheKey) (s : Site) (steps : List Step) : Prop where
  at_root : (s.run steps).At root
  dated : ∀ x ∈ steps, x.Dated
  uncleared : ∀ i, .act i .clear ∉ steps
  there : ∀ before, before <+: steps → (s.run before).There root key

lemma Sound.step (h : s.Sound) (hx : x.Dated) : (s.step x).Sound := by
  intro i l hl
  cases origin_of_ledger?_step hl with
  | @stayed m hm => exact h i m hm
  | acted hact hm =>
    subst hact
    exact Ledger.wellFormed_act hx (h i _ hm)
  | opened henter _ hload => exact Cache.wellFormed_loadMetadata (hx _ (henter ▸ rfl)) hload

lemma Sound.run (h : s.Sound) (hsteps : ∀ x ∈ steps, x.Dated) : (s.run steps).Sound := by
  induction steps generalizing s with
  | nil => exact h
  | cons x steps ih => exact ih (h.step (hsteps x (by simp))) fun y hy => hsteps y (by simp [hy])

namespace There

lemma isFile (h : s.There root key) : s.files.isFile (objectPlace root key) = true := by
  obtain ⟨content, hread⟩ := h
  exact isFile_iff.2 ⟨content, (read_eq_ok_iff.1 hread).2⟩

lemma reaches_shardPlace (h : s.There root key) : s.files.Reaches (shardPlace root key) := by
  obtain ⟨content, hread⟩ := h
  simpa [objectPlace, shardPlace] using (read_eq_ok_iff.1 hread).1

lemma reaches (h : s.There root key) : s.files.Reaches root :=
  h.reaches_shardPlace.of_prefix (List.prefix_append root [key.shard])

end There

namespace Stays

lemma head (h : Stays root key s (x :: steps)) : s.There root key := h.there [] List.nil_prefix

lemma next (h : Stays root key s (x :: steps)) : (s.step x).There root key := h.there [x] (List.prefix_append [x] steps)

lemma tail (h : Stays root key s (x :: steps)) : Stays root key (s.step x) steps where
  at_root := h.at_root
  dated y hy := h.dated y (by simp [hy])
  uncleared i hi := h.uncleared i (by simp [hi])
  there before hb := h.there (x :: before) ((List.prefix_cons_inj x).2 hb)

lemma of_append {before behind : List Step} (h : Stays root key s (before ++ behind)) (hs : s.Tidy) :
    Stays root key s before ∧ Stays root key (s.run before) behind := by
  have hrun : (s.run before).run behind = s.run (before ++ behind) := (run_append s before behind).symm
  refine ⟨⟨.of_run (tidy_run hs before) (hrun ▸ h.at_root), ?_, ?_, ?_⟩, hrun ▸ h.at_root, ?_, ?_, ?_⟩
  · exact fun y hy => h.dated y (by simp [hy])
  · exact fun i hi => h.uncleared i (by simp [hi])
  · exact fun pre hpre => h.there pre (hpre.trans (List.prefix_append before behind))
  · exact fun y hy => h.dated y (by simp [hy])
  · exact fun i hi => h.uncleared i (by simp [hi])
  · intro pre hpre
    rw [← run_append]
    exact h.there (before ++ pre) ((List.prefix_append_right_inj before).2 hpre)

lemma run_of_step {P : Site → Prop}
    (hstep : ∀ {s x steps}, s.Orderly root → s.Sound → Stays root key s (x :: steps) → P s → P (s.step x))
    (ho : s.Orderly root) (hs : s.Sound) (h : P s) (hstays : Stays root key s steps) : P (s.run steps) := by
  induction steps generalizing s with
  | nil => exact h
  | cons x steps ih =>
    have ho' := ho.step (.of_run (ho.tidy.step x) hstays.at_root)
    have hs' := hs.step (hstays.dated x (by simp))
    exact ih ho' hs' (hstep ho hs hstays h) hstays.tail

end Stays

section Keeping

variable (ho : s.Orderly root) (hs : s.Sound) (hd : d.Written)
include ho hs hd

lemma retained_act {a : Ledger.Action} (ht : s.There root key) (hl : s.ledger? j = some l) (ha : a ≠ .clear) :
    Cache.Retained root key d (l.Flushes a) l.session (l.act a).session := by
  refine Ledger.retained_act (ho.kept j l hl) ?_ (hs j l hl) hd ha
  rw [files_of_ledger? hl]
  exact ht.reaches_shardPlace

lemma KnownTo.step (hstays : Stays root key s (x :: steps)) (h : s.KnownTo j key d) : (s.step x).KnownTo j key d := by
  obtain ⟨l, hl, hk⟩ := h
  rcases ledger?_step_of_some hl x with hstep | ⟨a, rfl, hstep⟩
  · exact ⟨_, hstep, hk⟩
  · have ha : a ≠ .clear := fun ha => hstays.uncleared j (by simp [ha])
    have hfile := hstays.next.isFile
    rw [← files_of_ledger? hstep] at hfile
    exact ⟨_, hstep, (retained_act ho hs hd hstays.head hl ha).known hk hfile⟩

lemma knows_recorded_step (hstays : Stays root key s (x :: steps))
    (h : s.KnownTo j key d ∧ s.Flushes j x ∨ (Cache.recorded root s.files).Knows key d) :
    (Cache.recorded root (s.step x).files).Knows key d := by
  have ht := hstays.head
  have ht' := hstays.next
  have hclear := hstays.uncleared
  have hout := outcome_step s x
  generalize s.step x = s' at hout ht' ⊢
  have hkept : (∀ owner a, x ≠ .act owner a) →
      (∀ content, s.files.find? (metadataPlace root) = some (.file content) →
        s'.files.find? (metadataPlace root) = some (.file content)) →
      (Cache.recorded root s'.files).Knows key d := by
    intro hx hfile
    have hk : (Cache.recorded root s.files).Knows key d :=
      h.resolve_left fun ⟨_, _, a, hact, _⟩ => hx j a hact
    obtain ⟨content, hc⟩ := Cache.exists_file_of_knows_recorded hk
    rwa [Cache.recorded_congr ht.reaches ht'.reaches ((hfile content hc).trans hc.symm)]
  cases hout with
  | idle hidle =>
    refine h.resolve_left ?_
    rintro ⟨-, l, a, hact, hl, -⟩
    rw [hidle j a hact] at hl
    cases hl
  | made hx hext => exact hkept hx fun content hc => hext.kept _ _ hc
  | opened henter _ hopens _ _ =>
    refine hkept (by simp [henter]) fun content hc => hopens.kept (fun name hname hplace => ?_) hc
    exact ne_of_isTemporary hname (by decide) (List.cons.inj (List.append_inj' hplace rfl).2).1.symm
  | @acted owner a m hact hm =>
    subst hact
    have ha : a ≠ .clear := fun ha => hclear owner (by simp [ha])
    refine (retained_act ho hs hd ht hm ha).recorded ?_ ht'.isFile
    rw [files_of_ledger? hm]
    refine h.imp_left ?_
    rintro ⟨⟨l, hl, hk⟩, l', b, hact, hl', hflush⟩
    obtain ⟨rfl, rfl⟩ := Step.act.inj hact
    obtain rfl := Option.some.inj (hl.symm.trans hm)
    obtain rfl := Option.some.inj (hl'.symm.trans hl)
    exact ⟨hflush, hk⟩

lemma KnownTo.run (hstays : Stays root key s steps) (h : s.KnownTo j key d) : (s.run steps).KnownTo j key d :=
  hstays.run_of_step (fun ho hs hstays h => h.step ho hs hd hstays) ho hs h

lemma knows_recorded_run (hstays : Stays root key s steps) (h : (Cache.recorded root s.files).Knows key d) :
    (Cache.recorded root (s.run steps).files).Knows key d :=
  hstays.run_of_step (fun ho hs hstays h => knows_recorded_step (j := 0) ho hs hd hstays (.inr h)) ho hs h

lemma KnownTo.recorded {before behind : List Step} (hstays : Stays root key s (before ++ x :: behind))
    (h : s.KnownTo j key d) (hx : (s.run before).Flushes j x) :
    (Cache.recorded root (s.run (before ++ x :: behind)).files).Knows key d := by
  obtain ⟨hbefore, hbehind⟩ := hstays.of_append ho.tidy
  have hknown := h.run ho hs hd hbefore
  have ho' := ho.run hbefore.at_root
  have hs' := hs.run hbefore.dated
  have hrecorded := knows_recorded_step ho' hs' hd hbehind (.inl ⟨hknown, hx⟩)
  have hrun : s.run (before ++ x :: behind) = ((s.run before).step x).run behind := run_append s before (x :: behind)
  rw [hrun]
  exact knows_recorded_run (ho'.step (.of_run (ho'.tidy.step x) hbehind.at_root))
    (hs'.step (hbehind.dated x (by simp))) hd hbehind.tail hrecorded

end Keeping

/-- However owners with handles on one directory take their steps, an object that has stayed since it was accessed is not
deleted by a prune whose retention covers the access, if the access was made through the handle that prunes or if the
handle through which it was made has written the metadata since. -/
theorem find?_prune_of_accessed {t : FileTree} {before between : List Step} {s₁ s₂ : Site} {a : Ledger.Action}
    {used day : Date} {m : Ledger} (hl : ((ofFiles t).run before).ledger? j = some l) (ha : l.Accesses key used a)
    (hdated : ∀ x ∈ before ++ [.act j a], x.Dated) (hyear : 0 ≤ used.year)
    (hs₁ : (ofFiles t).run (before ++ [.act j a]) = s₁) (hs₂ : s₁.run between = s₂) (hstays : Stays root key s₁ between)
    (htold : i = j ∨ ∃ pre x post, between = pre ++ x :: post ∧ (s₁.run pre).Flushes j x)
    (hm : s₂.ledger? i = some m) (hcutoff : used.isBefore (day.back m.session.cache.retention) = false) :
    (after ((Cache.prune day).run m.session)).files.find? (objectPlace root key) =
      s₂.files.find? (objectPlace root key) := by
  have htidy : s₁.Tidy := hs₁ ▸ tidy_run (tidy_ofFiles t) _
  have hat : s₁.At root := .of_run htidy hstays.at_root
  have ho : s₁.Orderly root := by
    subst hs₁
    exact orderly_of_at hat
  have hs : s₁.Sound := hs₁ ▸ Sound.run (fun _ _ hl => nomatch hl) hdated
  have hd : used.Written := ⟨hdated (.act j a) (by simp) used ha.day?_eq, hyear⟩
  have hknown : s₁.KnownTo j key used := by
    rw [run_concat] at hs₁
    exact hs₁ ▸ ⟨l.act a, ledger?_step_act hl a, Ledger.knows_of_accesses ha⟩
  have hfiles := files_of_ledger? hm
  subst hs₂
  have hthere := hstays.there between List.prefix_rfl
  -- the handle made the access itself, or finds it recorded when it takes in the file
  have hmaybe : m.session.cache.metadata.Knows key used ∨ (Cache.recorded root m.session.files).Knows key used := by
    rcases htold with rfl | ⟨pre, x, post, rfl, hflush⟩
    · obtain ⟨l', hl', hk⟩ := hknown.run ho hs hd hstays
      obtain rfl := Option.some.inj (hl'.symm.trans hm)
      exact .inl hk
    · rw [hfiles]
      exact .inr (hknown.recorded ho hs hd hstays hflush)
  rw [← hfiles]
  refine Ensures.after (Cache.find?_prune (hstays.at_root i m hm) ?_ (hs.run hstays.dated i m hm) hd hmaybe day ?_ ?_)
  · rw [hfiles]
    exact hthere.reaches_shardPlace
  · rw [← not_lt, ← Date.isBefore_iff, hcutoff]
    decide
  · rw [hfiles]
    exact hthere.isFile

theorem find?_prune_of_two_owners :
    let key : CacheKey := ⟨"0123456789abcdef0123456789abcdef0123456789abcdef0123456789abcdef", by decide⟩
    let day : Date := ⟨2024, 1, 1⟩
    let s := (ofFiles .empty).run ([.enter 1 "cache" [] 30 day, .enter 2 "cache" [] 30 day, .act 1 (.lookup 0 day key)] ++
      [.act 1 (.store 0 day [1])])
    ∃ m, (s.run [.act 1 .save]).ledger? 2 = some m ∧
      (after ((Cache.prune ⟨2024, 1, 31⟩).run m.session)).files.find? (objectPlace ["cache"] key) = some (.file [1]) := by
  intro key day s
  let t : FileTree := ⟨[(["cache", ".lock"], .file []), (["cache"], .directory)], []⟩
  let before := [Step.enter 1 "cache" [] 30 day, .enter 2 "cache" [] 30 day, .act 1 (.lookup 0 day key)]
  have hentered : (((ofFiles .empty).run before).ledger? 1).map (fun l => (l.session, l.held 0)) =
      some (⟨⟨"cache", ["cache"], 30, 1, 0, .empty⟩, t⟩, some ⟨⟨key, false, none⟩, none⟩) := by decide +kernel
  obtain ⟨l, hl, heq⟩ := Option.map_eq_some_iff.1 hentered
  obtain ⟨hsession, hheld⟩ := Prod.mk.inj heq
  have haccess : l.Accesses key day (.store 0 day [1]) := by
    refine ⟨rfl, _, _, hheld, rfl, eq_ok_of_answer (eq_ok_of_toOption_eq_some ?_)⟩
    rw [hsession]
    decide +kernel
  have hfacts : (s.ledger? 1).map (fun l => (answer (Cache.save.run l.session)).toOption) = some (some ()) ∧
      (s.files.read (objectPlace ["cache"] key)).toOption = some [1] ∧
      ((s.run [.act 1 .save]).files.read (objectPlace ["cache"] key)).toOption = some [1] ∧
      ∀ i ∈ [1, 2], ((s.run [.act 1 .save]).ledger? i).all fun l => decide (l.session.cache.root = (["cache"] : Place)) := by
    decide +kernel
  obtain ⟨hsaved, hthere, hthere', hroots⟩ := hfacts
  have hrun : s.run [.act 1 .save] = (ofFiles .empty).run _ := (run_append _ _ _).symm
  have hstays : Stays ["cache"] key s [.act 1 .save] := by
    refine ⟨?_, ?_, by simp, ?_⟩
    · rw [hrun]
      exact at_run (hrun ▸ hroots)
    · simp [Step.Dated, Step.day?, Ledger.Action.day?]
    · intro pre hpre
      rcases List.prefix_concat_iff.1 (show pre <+: [] ++ [.act 1 .save] from hpre) with rfl | hpre
      · exact ⟨[1], eq_ok_of_toOption_eq_some hthere'⟩
      · obtain rfl := List.prefix_nil.1 hpre
        exact ⟨[1], eq_ok_of_toOption_eq_some hthere⟩
  have hflush : s.Flushes 1 (.act 1 .save) := by
    obtain ⟨l', hl', hanswer⟩ := Option.map_eq_some_iff.1 hsaved
    exact ⟨l', .save, rfl, hl', _, eq_ok_of_answer (eq_ok_of_toOption_eq_some hanswer)⟩
  have hpruner : ((s.run [.act 1 .save]).ledger? 2).map (fun m => m.session.cache.retention) = some 30 := by decide +kernel
  obtain ⟨m, hm, hretention⟩ := Option.map_eq_some_iff.1 hpruner
  refine ⟨m, hm, ?_⟩
  have hcutoff : day.isBefore (Date.back ⟨2024, 1, 31⟩ m.session.cache.retention) = false := by
    rw [hretention]
    decide +kernel
  have hkept := find?_prune_of_accessed hl haccess
    (by simp [before, Step.Dated, Step.day?, Ledger.Action.day?]; decide) (by decide) (Eq.refl s) rfl hstays
    (.inr ⟨[], _, [], rfl, hflush⟩) hm hcutoff
  obtain ⟨-, hc⟩ := read_eq_ok_iff.1 (eq_ok_of_toOption_eq_some hthere')
  exact hkept.trans hc

/-- An owner finds an object that the other one then prunes on the same day, as it knows of an old access only. -/
theorem prune_deletes_accessed :
    let key : CacheKey := ⟨"0123456789abcdef0123456789abcdef0123456789abcdef0123456789abcdef", by decide⟩
    let day : Date := ⟨2024, 1, 1⟩
    let today : Date := ⟨2024, 3, 1⟩
    let s := (ofFiles .empty).run [.enter 1 "cache" [] 30 day, .enter 2 "cache" [] 30 day, .act 1 (.lookup 0 day key),
      .act 1 (.store 0 day [1]), .act 1 .save]
    let s' := s.step (.act 1 (.lookup 1 today key))
    ∃ l m, s.ledger? 1 = some l ∧ l.Accesses key today (.lookup 1 today key) ∧ s'.ledger? 2 = some m ∧
      today.isBefore (today.back m.session.cache.retention) = false ∧
      s'.files.find? (objectPlace ["cache"] key) = some (.file [1]) ∧
      (after ((Cache.prune today).run m.session)).files.find? (objectPlace ["cache"] key) = none := by
  intro key day today s s'
  have hfinder : (s.ledger? 1).map (fun l => (l.held 1, l.session.files.isFile (objectPlace l.session.cache.root key))) =
      some (none, true) := by decide +kernel
  have hpruner : s'.files.find? (objectPlace ["cache"] key) = some (.file [1]) ∧
      (s'.ledger? 2).map (fun m => (today.isBefore (today.back m.session.cache.retention),
        (after ((Cache.prune today).run m.session)).files.find? (objectPlace ["cache"] key))) = some (false, none) := by
    decide +kernel
  obtain ⟨l, hl, hfound⟩ := Option.map_eq_some_iff.1 hfinder
  obtain ⟨hheld, hfile⟩ := Prod.mk.inj hfound
  obtain ⟨hthere, hpruner⟩ := hpruner
  obtain ⟨m, hm, hpruned⟩ := Option.map_eq_some_iff.1 hpruner
  obtain ⟨hcutoff, hgone⟩ := Prod.mk.inj hpruned
  exact ⟨l, m, hl, ⟨hheld, rfl, rfl, hfile⟩, hm, hcutoff, hthere, hgone⟩

end Site

end NamespaceMigration
