import NamespaceMigration.Proofs.Cache.Saving
import NamespaceMigration.Proofs.Cache.Sharing

/-! Stores in a shared directory. -/

namespace NamespaceMigration

open FileTree CacheLayout Steps

section Committing

variable {t t' : FileTree} {root place : Place} {s : CacheSession} {e : CacheSlot} {content : Bytes}

lemma FileTree.exists_makeDirectories {name : RawText} (hr : t.Reaches root)
    (h : t.find? (root ++ [name]) = none ∨ t.find? (root ++ [name]) = some .directory) :
    ∃ t', t.makeDirectories (root ++ [name]) = .ok t' := by
  have hmake := @makeBelow_of_reaches t [] root [name] hr
  rw [makeDirectories, hmake, List.nil_append, makeBelow]
  rcases h with h | h
  · rw [h]
    exact ⟨_, rfl⟩
  · rw [h]
    exact ⟨t, rfl⟩

namespace CacheSlot

lemma exists_publish (hp : e.pending = some place) (hplace : ∃ name, place = s.cache.root ++ [name])
    (hr : s.files.Reaches s.cache.root) (hc : s.files.find? place = some (.file content))
    (hshard : s.files.find? (shardPlace s.cache.root e.hash) = none ∨
      s.files.find? (shardPlace s.cache.root e.hash) = some .directory)
    (hobject : s.files.find? (objectPlace s.cache.root e.hash) ≠ some .directory) (today : Date) :
    ∃ u, (e.publish today).run s = .ok () u ∧
      u.files.find? (objectPlace s.cache.root e.hash) = some (.file content) := by
  obtain ⟨made, hm⟩ : ∃ made, s.files.makeDirectories (shardPlace s.cache.root e.hash) = .ok made :=
    exists_makeDirectories hr hshard
  obtain ⟨hext, hreach⟩ := makeDirectories_eq_ok hm
  obtain ⟨name, hname⟩ := hplace
  have hspares := spares_makeDirectories (S := (· = shardPlace s.cache.root e.hash)) hr rfl hm
  have hstatus : made.status place = .ok (.file content) := by
    refine status_eq_ok_iff.2 ⟨?_, hext.kept _ _ hc⟩
    rw [hname, List.dropLast_concat]
    exact hext.reaches hr
  have hfree : made.find? (objectPlace s.cache.root e.hash) ≠ some .directory := by
    rwa [hspares _ (objectPlace_ne_shardPlace _ _ _)]
  have hdrop : (objectPlace s.cache.root e.hash).dropLast = shardPlace s.cache.root e.hash := by
    simp [objectPlace, shardPlace]
  have hpublish : Ensures s (e.publish today)
      (fun _ u => u.files.find? (objectPlace s.cache.root e.hash) = some (.file content)) fun _ _ => False := by
    rw [publish, hp]
    refine ensures_get_bind.2 (ensures_get_bind.2 ?_)
    rw [hm]
    refine ensures_modify_bind.2 (ensures_bind.2 ?_)
    refine (Cache.ensures_moveInto_of_reaches _ hstatus (hdrop ▸ hreach) hfree).mono ?_ fun _ _ h => h
    rintro _ _ rfl
    exact find?_put_self (below_objectPlace _ _).ne_nil
  obtain ⟨_, u, hrun, hu⟩ := hpublish.exists_ok
  exact ⟨u, hrun, hu⟩

lemma answer_publish_of_gone {name : RawText} (hp : e.pending = some (s.cache.root ++ [name])) (hn : isTemporary name = true)
    (hr : s.files.Reaches s.cache.root) (hgone : s.files.find? (s.cache.root ++ [name]) = none)
    (hshard : s.files.find? (shardPlace s.cache.root e.hash) = none ∨
      s.files.find? (shardPlace s.cache.root e.hash) = some .directory) (today : Date) :
    answer ((e.publish today).run s) = .error (.commit e.hash .notFound) := by
  obtain ⟨made, hm⟩ : ∃ made, s.files.makeDirectories (shardPlace s.cache.root e.hash) = .ok made :=
    exists_makeDirectories hr hshard
  have hne : s.cache.root ++ [name] ≠ shardPlace s.cache.root e.hash := by
    intro h
    exact ne_of_isTemporary hn (isTemporary_shard e.hash) (by simpa [shardPlace] using h)
  have hgone' : made.find? (s.cache.root ++ [name]) = none :=
    (spares_makeDirectories (S := (· = shardPlace s.cache.root e.hash)) hr rfl hm _ hne).trans hgone
  have hmove : made.move (s.cache.root ++ [name]) (objectPlace s.cache.root e.hash) = .error .notFound := by
    have henter := (enter_eq_ok_iff (q := s.cache.root) s.cache.root (reaches_nil made)).2
      ⟨rfl, (makeDirectories_eq_ok hm).1.reaches hr⟩
    rw [move, status, List.dropLast_concat, henter, hgone']
    rfl
  have hpublish : Ensures s (e.publish today) (fun _ _ => False) fun fault _ => fault = .commit e.hash .notFound := by
    rw [publish, hp]
    refine ensures_get_bind.2 (ensures_get_bind.2 ?_)
    rw [hm]
    refine ensures_modify_bind.2 (ensures_bind.2 (ensures_get_bind.2 ?_))
    rw [hmove]
    exact ensures_bind.2 ((Cache.ensures_discard _ _).mono (fun _ _ _ => rfl) fun _ _ h => h.elim)
  rcases hpublish.cases with ⟨_, _, -, hfalse⟩ | ⟨fault, u, hrun, rfl⟩
  · exact hfalse.elim
  · rw [hrun, answer]

lemma isFile_of_publish {u : CacheSession} {today : Date} (hp : e.pending = some place) (hi : e.Inside s)
    (hrun : (e.publish today).run s = .ok () u)
    (hc : u.files.find? (objectPlace s.cache.root e.hash) = some (.file content)) : s.files.isFile place = true := by
  have hpublish := ensures_publish hp hi today
  rw [Ensures, hrun] at hpublish
  obtain ⟨made, n, hext, -, -, hn, rfl⟩ := hpublish
  obtain rfl := Option.some.inj ((find?_put_self (below_objectPlace _ _).ne_nil).symm.trans hc)
  rcases hext.made place _ hn with hn | hn
  · exact isFile_iff.2 ⟨content, hn⟩
  · cases hn

end CacheSlot

end Committing

namespace Ledger

variable {id : ℕ} {l : Ledger} {a : Action} {root : Place} {owner : ℕ} {e : Holding}

lemma held_settle (l : Ledger) (id : ℕ) (key : CacheKey) (content : Option Bytes)
    (r : EStateM.Result CacheFault CacheSession Unit) : (l.settle id key content r).held = Function.update l.held id none := by
  cases r <;> rfl

lemma held_act_of_ne (ha : a.id? ≠ some id) : (l.act a).held id = l.held id := by
  have hupdate : ∀ {id'} (x : Option Holding), some id' ≠ some id → Function.update l.held id' x id = l.held id :=
    fun x hne => Function.update_of_ne (fun h => hne (congrArg some h.symm)) x l.held
  cases a with
  | lookup id' today key =>
    rw [act]
    split
    · rfl
    · split
      · exact hupdate _ ha
      · rfl
  | stage id' =>
    rw [act]
    split
    · rfl
    · split
      · exact hupdate _ ha
      · exact hupdate _ ha
  | write id' content =>
    rw [act]
    split
    · rfl
    · exact hupdate _ ha
  | publish id' today =>
    rw [act]
    split
    · rfl
    · rw [held_settle]
      exact hupdate _ ha
  | release id' =>
    rw [act]
    split
    · rfl
    · exact hupdate _ ha
  | store id' today content =>
    rw [act]
    split
    · rfl
    · rw [held_settle]
      exact hupdate _ ha
  | save => rfl
  | prune day => rfl
  | clear => rfl

lemma begun_of_act_stage {place : Place} (h : l.Kept root owner) (he : (l.act (.stage id)).held id = some e)
    (hp : e.slot.pending = some place) :
    e.written = some [] ∧ (l.act (.stage id)).session.files.find? place = some (.file []) := by
  rw [act] at he ⊢
  cases hl : l.held id with
  | none =>
    rw [hl] at he
    dsimp only at he
    rw [hl] at he
    cases he
  | some old =>
    rw [hl] at he
    dsimp only at he ⊢
    rcases (CacheSlot.ensures_stage (h.inside hl)).cases with
      ⟨slot, s, hrun, r, place', n, hr, -, hn, hplace, rfl, rfl⟩ | ⟨fault, s, hrun, hs⟩
    · rw [hrun] at he ⊢
      obtain rfl := Option.some.inj ((Function.update_self id _ l.held).symm.trans he)
      obtain rfl := Option.some.inj hp
      exact ⟨rfl, find?_put_self (by simp [hplace])⟩
    · rw [hrun] at he
      obtain rfl := Option.some.inj ((Function.update_self id _ l.held).symm.trans he)
      cases hp

end Ledger

namespace Site

variable {s s₁ : Site} {x : Step} {between : List Step} {root place : Place} {i id : ℕ} {l : Ledger} {slot : CacheSlot}
  {content : Bytes}

def written (i id : ℕ) : Step → Bytes
  | .act j (.write k content) => if j = i ∧ k = id then content else []
  | _ => []

lemma written_eq_nil (h : ∀ content, x ≠ .act i (.write id content)) : written i id x = [] := by
  cases x with
  | enter => rfl
  | act j a =>
    cases a with
    | write k content =>
      refine if_neg ?_
      rintro ⟨rfl, rfl⟩
      exact h content rfl
    | _ => rfl

def Continues (i id : ℕ) : Step → Prop
  | .act j a => a ≠ .clear ∧ (j = i → a.id? = some id → ∃ content, a = .write id content)
  | .enter _ _ _ _ _ => True

def Joined (s₁ s : Site) : Prop := ∃ j, s₁.ledger? j = none ∧ s.ledger? j ≠ none

lemma not_joined_run (h : between.filterMap Step.entrant? = []) : ¬ Joined s (s.run between) := by
  rintro ⟨j, hnone, hsome⟩
  exact hsome (ledger?_run_eq_none (by simp [h]) hnone)

structure Underway (s₁ : Site) (i id : ℕ) (slot : CacheSlot) (content : Bytes) (s : Site) : Prop where
  held : ∃ l, s.ledger? i = some l ∧ l.held id = some ⟨slot, some content⟩
  kept : ¬ Joined s₁ s → ∀ place, slot.pending = some place → s.files.find? place = some (.file content)
  swept : Joined s₁ s → ∀ place, slot.pending = some place → s.files.isFile place = false
  stays : ∀ j, s₁.ledger? j ≠ none → s.ledger? j ≠ none

lemma exists_place (ho : s.Orderly root) (hl : s.ledger? i = some l) (hh : l.held id = some ⟨slot, some content⟩)
    (hp : slot.pending = some place) :
    ∃ stem n, n < l.session.cache.temporaries ∧ place = root ++ [RawText.ofText (temporaryName stem i n)] :=
  (ho.kept i l hl).booked.numbered id place ((Ledger.pendingOf_eq hh).trans hp)

lemma find?_act {j : ℕ} {m : Ledger} {a : Ledger.Action} (ho : s.Orderly root) (hl : s.ledger? i = some l)
    (hh : l.held id = some ⟨slot, some content⟩) (hp : slot.pending = some place) (hm : s.ledger? j = some m)
    (ha : a ≠ .clear) (hother : j = i → a.id? ≠ some id) :
    (m.act a).session.files.find? place = s.files.find? place := by
  have hkept := ho.kept j m hm
  have hfiles := files_of_ledger? hm
  obtain ⟨stem, n, hn, rfl⟩ := exists_place ho hl hh hp
  have hspares := Ledger.spares_act hkept (hfiles ▸ ho.reaches j m hm) ha
  rw [hfiles] at hspares
  apply hspares
  rw [CacheSession.Tends, hkept.root_eq, hkept.owner_eq]
  apply not_tended_temporary
  · -- a name tells its owner, and no two entries of one owner have one temporary file
    intro hpending
    obtain ⟨id', hid, hpending⟩ := Option.bind_eq_some_iff.1 hpending
    obtain ⟨stem', n', -, hplace⟩ := hkept.booked.numbered id' _ hpending
    have hname : temporaryName stem i n = temporaryName stem' j n' := by simpa using hplace
    obtain rfl := (eq_of_temporaryName_eq hname).1
    obtain rfl := Option.some.inj (hl.symm.trans hm)
    refine hother rfl (hid.trans (congrArg some ?_))
    exact hkept.booked.apart id' id _ hpending ((Ledger.pendingOf_eq hh).trans hp)
  · rintro rfl
    obtain rfl := Option.some.inj (hl.symm.trans hm)
    exact hn

namespace Underway

lemma of_ledger? {s' : Site} (h : Underway s₁ i id slot content s) {new : Bytes} (hsame : ∀ j, s'.ledger? j = none ↔ s.ledger? j = none)
    (hheld : ∃ l, s'.ledger? i = some l ∧ l.held id = some ⟨slot, some new⟩)
    (hkept : ∀ place, slot.pending = some place → s.files.find? place = some (.file content) →
      s'.files.find? place = some (.file new))
    (hswept : ∀ place, slot.pending = some place → s.files.isFile place = false → s'.files.isFile place = false) :
    Underway s₁ i id slot new s' := by
  have hjoined : Joined s₁ s' ↔ Joined s₁ s := by simp only [Joined, ne_eq, hsame]
  refine ⟨hheld, fun hj place hp => ?_, fun hj place hp => ?_, fun j hj => (hsame j).not.2 (h.stays j hj)⟩
  · exact hkept place hp (h.kept (mt hjoined.2 hj) place hp)
  · exact hswept place hp (h.swept (hjoined.1 hj) place hp)

lemma made {t : FileTree} (h : Underway s₁ i id slot content s) (ht : s.files.Extends t) :
    Underway s₁ i id slot content { s with files := t } := by
  obtain ⟨l, hl, hh⟩ := h.held
  refine h.of_ledger? (fun j => ?_) ⟨_, (ledger?_withFiles s t i).trans (congrArg _ hl), hh⟩ ?_ ?_
  · rw [ledger?_withFiles, Option.map_eq_none_iff]
  · exact fun place _ hc => ht.kept place _ hc
  · intro place _ hf
    rw [← Bool.not_eq_true, isFile_iff] at hf ⊢
    rintro ⟨new, hn⟩
    rcases ht.made place _ hn with hn | hn
    · exact hf ⟨new, hn⟩
    · cases hn

lemma opened {owner : ℕ} {c : Cache} {t : FileTree} {cwd : Place} {path : RawText}
    (h : Underway s₁ i id slot content s) (ho : s.Orderly root) (hnone : s.ledgers owner = none)
    (hopens : Cache.Opens s.files cwd path root t) :
    Underway s₁ i id slot content ⟨t, Function.update s.ledgers owner (some (.fresh ⟨c, t⟩))⟩ := by
  have howner : s.ledger? owner = none := by rw [ledger?, hnone, Option.map_none]
  obtain ⟨l, hl, hh⟩ := h.held
  have hne : i ≠ owner := by
    rintro rfl
    rw [hl] at howner
    cases howner
  have hjoined : Joined s₁ ⟨t, Function.update s.ledgers owner (some (.fresh ⟨c, t⟩))⟩ := by
    refine ⟨owner, by_contra fun hold => h.stays owner hold howner, ?_⟩
    rw [ledger?_update, if_pos rfl]
    simp
  refine ⟨⟨l.withFiles t, ?_, hh⟩, fun hj => absurd hjoined hj, fun _ place hp => ?_, fun j hj => ?_⟩
  · rw [ledger?_update, if_neg hne, hl, Option.map_some]
  · obtain ⟨stem, n, -, rfl⟩ := exists_place ho hl hh hp
    exact hopens.swept (isTemporary_temporaryName stem i n)
  · rw [ledger?_update]
    split
    · simp
    · simpa using h.stays j hj

lemma ledger?_acted {j : ℕ} {m : Ledger} (hm : s.ledger? j = some m) (l : Ledger) (t : FileTree) (k : ℕ) :
    (⟨t, Function.update s.ledgers j (some l)⟩ : Site).ledger? k = none ↔ s.ledger? k = none := by
  rw [ledger?_update]
  split
  next hk => simp [hk, hm]
  next => simp

lemma wrote (h : Underway s₁ i id slot content s) (ho : s.Orderly root) (hl : s.ledger? i = some l) (new : Bytes) :
    Underway s₁ i id slot (content ++ new)
      ⟨(l.act (.write id new)).session.files, Function.update s.ledgers i (some (l.act (.write id new)))⟩ := by
  obtain ⟨m, hm, hh⟩ := h.held
  obtain rfl := Option.some.inj (hl.symm.trans hm)
  have hact : l.act (.write id new) = ⟨after ((slot.write new).run l.session),
      Function.update l.held id (some ⟨slot, some (content ++ new)⟩), l.committed⟩ := by
    rw [Ledger.act, hh]
    rfl
  have hfiles : ∀ place, slot.pending = some place →
      (l.act (.write id new)).session.files = s.files.append place new := by
    intro place hp
    rw [hact, CacheSlot.run_write hp, after, files_of_ledger? hl]
  have hne : ∀ place, slot.pending = some place → place ≠ [] := by
    intro place hp
    obtain ⟨stem, n, -, rfl⟩ := exists_place ho hl hh hp
    simp
  refine h.of_ledger? (ledger?_acted hl _ _) ⟨_, (ledger?_update s _ i i _).trans (if_pos rfl), ?_⟩ ?_ ?_
  · rw [hact]
    exact Function.update_self id _ l.held
  · intro place hp hc
    rw [hfiles place hp, append_of_file hc]
    exact find?_put_self (hne place hp)
  · intro place hp hf
    rw [hfiles place hp]
    rw [← Bool.not_eq_true, isFile_iff] at hf ⊢
    rintro ⟨c, hc⟩
    obtain ⟨old, hold, -⟩ := find?_append_eq_file (hne place hp) hc
    exact hf ⟨old, hold⟩

lemma passed {j : ℕ} {m : Ledger} {a : Ledger.Action} (h : Underway s₁ i id slot content s) (ho : s.Orderly root)
    (hm : s.ledger? j = some m) (ha : a ≠ .clear) (hother : j = i → a.id? ≠ some id) :
    Underway s₁ i id slot content ⟨(m.act a).session.files, Function.update s.ledgers j (some (m.act a))⟩ := by
  obtain ⟨l, hl, hh⟩ := h.held
  have hfind : ∀ place, slot.pending = some place → (m.act a).session.files.find? place = s.files.find? place :=
    fun place hp => find?_act ho hl hh hp hm ha hother
  refine h.of_ledger? (ledger?_acted hm _ _) ?_ (fun place hp hc => (hfind place hp).trans hc) fun place hp hf => ?_
  · rw [ledger?_update]
    split
    next hi =>
      subst hi
      obtain rfl := Option.some.inj (hl.symm.trans hm)
      exact ⟨_, rfl, (Ledger.held_act_of_ne (hother rfl)).trans hh⟩
    next =>
      rw [hl]
      exact ⟨_, rfl, hh⟩
  · rwa [isFile, hfind place hp]

lemma acted {j : ℕ} {m : Ledger} {a : Ledger.Action} (h : Underway s₁ i id slot content s) (ho : s.Orderly root)
    (hm : s.ledger? j = some m) (hx : Continues i id (.act j a)) :
    Underway s₁ i id slot (content ++ written i id (.act j a))
      ⟨(m.act a).session.files, Function.update s.ledgers j (some (m.act a))⟩ := by
  by_cases hmine : j = i ∧ a.id? = some id
  · obtain ⟨rfl, hid⟩ := hmine
    obtain ⟨new, rfl⟩ := hx.2 rfl hid
    rw [show written j id (.act j (.write id new)) = new from if_pos ⟨rfl, rfl⟩]
    exact h.wrote ho hm new
  · have hother : j = i → a.id? ≠ some id := fun hj hid => hmine ⟨hj, hid⟩
    have hwritten : written i id (.act j a) = [] := by
      refine written_eq_nil ?_
      rintro content ⟨⟩
      exact hother rfl rfl
    rw [hwritten, List.append_nil]
    exact h.passed ho hm hx.1 hother

lemma step (h : Underway s₁ i id slot content s) (ho : s.Orderly root) (hat : (s.step x).At root)
    (hx : Continues i id x) : Underway s₁ i id slot (content ++ written i id x) (s.step x) := by
  have hout := outcome_step s x
  generalize s.step x = s' at hout hat ⊢
  cases hout with
  | idle hidle =>
    obtain ⟨l, hl, -⟩ := h.held
    have hwritten : written i id x = [] := written_eq_nil fun _ hx => by cases (hidle i _ hx).symm.trans hl
    rwa [hwritten, List.append_nil]
  | made hne ht =>
    rw [written_eq_nil fun _ => hne i _, List.append_nil]
    exact h.made ht
  | @opened owner _ _ _ _ c t henter hnone hopens _ _ =>
    have hroot : c.root = root := hat owner _ ((ledger?_update s t owner owner _).trans (if_pos rfl))
    rw [written_eq_nil fun _ => by simp [henter], List.append_nil]
    exact h.opened ho hnone (hroot ▸ hopens)
  | acted hact hm =>
    subst hact
    exact h.acted ho hm hx

lemma run (h : Underway s₁ i id slot content s) (ho : s.Orderly root) (hat : (s.run between).At root)
    (hbetween : ∀ x ∈ between, Continues i id x) :
    Underway s₁ i id slot (content ++ between.flatMap (written i id)) (s.run between) := by
  induction between generalizing s content with
  | nil => simpa [Site.run] using h
  | cons x between ih =>
    have hx : (s.step x).At root := .of_run (ho.tidy.step x) hat
    rw [List.flatMap_cons, ← List.append_assoc]
    exact ih (h.step ho hx (hbetween x (by simp))) (ho.step hx) hat fun y hy => hbetween y (by simp [hy])

lemma begin {e : Holding} (hs : s.Tidy) (hl : (s.step (.act i (.stage id))).ledger? i = some l)
    (he : l.held id = some e) (hp : e.slot.pending = some place) :
    Underway (s.step (.act i (.stage id))) i id e.slot [] (s.step (.act i (.stage id))) := by
  have hjoined : ¬ Joined (s.step (.act i (.stage id))) (s.step (.act i (.stage id))) := fun ⟨_, hnone, hsome⟩ => hsome hnone
  cases hm : s.ledger? i with
  | none =>
    rw [Site.step, hm] at hl
    cases hm.symm.trans hl
  | some m =>
    obtain rfl := Option.some.inj ((ledger?_step_act hm _).symm.trans hl)
    obtain ⟨hwritten, hfile⟩ := Ledger.begun_of_act_stage (hs i m hm) he hp
    obtain ⟨slot, _⟩ := e
    obtain rfl := hwritten
    refine ⟨⟨_, hl, he⟩, fun _ place' hp' => ?_, fun hj => absurd hj hjoined, fun _ h => h⟩
    obtain rfl := Option.some.inj (hp.symm.trans hp')
    rwa [step_act hm]

end Underway

/-- However owners with handles on one directory take their steps, a store is committed with just what was written to it
if no one joins them while it is in progress, and not if someone does. Nothing is in the way of the object, and
nothing is cleared. -/
theorem publish_iff_not_joined {t : FileTree} {before between : List Step} {s₂ : Site} {e : Holding}
    (hs₁ : (ofFiles t).run (before ++ [.act i (.stage id)]) = s₁) (hs₂ : s₁.run between = s₂) (hat : s₂.At root)
    (hl : s₁.ledger? i = some l) (he : l.held id = some e) (hp : e.slot.pending = some place)
    (hbetween : ∀ x ∈ between, Continues i id x)
    (hshard : s₂.files.find? (shardPlace root e.slot.hash) = none ∨
      s₂.files.find? (shardPlace root e.slot.hash) = some .directory)
    (hobject : s₂.files.find? (objectPlace root e.slot.hash) ≠ some .directory) (today : Date) :
    let content := between.flatMap (written i id)
    ∃ l₂, s₂.ledger? i = some l₂ ∧ l₂.held id = some ⟨e.slot, some content⟩ ∧
      ((∃ u, (e.slot.publish today).run l₂.session = .ok () u ∧
        u.files.find? (objectPlace root e.slot.hash) = some (.file content)) ↔ ¬ Joined s₁ s₂) := by
  intro content
  have htidy : ((ofFiles t).run before).Tidy := tidy_run (tidy_ofFiles t) before
  rw [run_concat] at hs₁
  subst hs₁ hs₂
  have hat₁ : (((ofFiles t).run before).step (.act i (.stage id))).At root := .of_run (htidy.step _) hat
  have ho₁ : (((ofFiles t).run before).step (.act i (.stage id))).Orderly root :=
    (orderly_of_at (.of_step htidy hat₁)).step hat₁
  have ho₂ := ho₁.run hat
  have hunder := (Underway.begin htidy hl he hp).run ho₁ hat hbetween
  rw [List.nil_append] at hunder
  obtain ⟨l₂, hl₂, hh⟩ := hunder.held
  have hkept := ho₂.kept i l₂ hl₂
  have hfiles := files_of_ledger? hl₂
  refine ⟨l₂, hl₂, hh, ?_, fun hj => ?_⟩
  · -- what is committed was in the temporary file, which who joined has swept
    rintro ⟨u, hrun, hu⟩ hj
    have hroot := hkept.root_eq
    rw [← hroot] at hu
    have hinside := hkept.inside hh
    have hfile := CacheSlot.isFile_of_publish hp hinside hrun hu
    rw [hfiles, hunder.swept hj place hp] at hfile
    cases hfile
  · obtain ⟨stem, n, -, hplace⟩ := exists_place ho₂ hl₂ hh hp
    rw [← hkept.root_eq, ← hfiles] at hshard hobject
    have hreach := ho₂.reaches i l₂ hl₂
    rw [← hkept.root_eq, ← hfiles] at hreach
    have hc := hunder.kept hj place hp
    rw [← hfiles] at hc
    rw [← hkept.root_eq]
    exact CacheSlot.exists_publish hp ⟨_, hkept.root_eq ▸ hplace⟩ hreach hc hshard hobject today

theorem publish_of_two_owners :
    let key : CacheKey := ⟨"0123456789abcdef0123456789abcdef0123456789abcdef0123456789abcdef", by decide⟩
    let day : Date := ⟨2024, 1, 1⟩
    let s₁ := (ofFiles .empty).run ([.enter 1 "cache" [] 30 day, .enter 2 "cache" [] 30 day, .act 1 (.lookup 0 day key),
      .act 2 (.lookup 0 day key), .act 2 (.stage 0)] ++ [.act 1 (.stage 0)])
    let s₂ := s₁.run [.act 1 (.write 0 [1]), .act 2 (.write 0 [9]), .act 2 (.publish 0 day), .act 1 (.write 0 [2]),
      .act 2 .save, .act 2 (.prune day)]
    let slot : CacheSlot := ⟨key, false, some ["cache", .ofText (temporaryName key.text 1 0)]⟩
    ∃ l, s₂.ledger? 1 = some l ∧ l.held 0 = some ⟨slot, some [1, 2]⟩ ∧ ∃ u,
      (slot.publish day).run l.session = .ok () u ∧ u.files.find? (objectPlace ["cache"] key) = some (.file [1, 2]) := by
  intro key day s₁ s₂ slot
  have hbegun : (s₁.ledger? 1).bind (fun l => l.held 0) = some ⟨slot, some []⟩ := by decide +kernel
  obtain ⟨l₁, hl₁, he⟩ := Option.bind_eq_some_iff.1 hbegun
  have hrun : s₂ = (ofFiles .empty).run _ := (run_append _ _ _).symm
  have hfacts : (∀ i ∈ [1, 2], (s₂.ledger? i).all fun l => decide (l.session.cache.root = (["cache"] : Place))) ∧
      s₂.files.find? (shardPlace ["cache"] key) = some .directory ∧
      s₂.files.find? (objectPlace ["cache"] key) ≠ some .directory := by decide +kernel
  have hat : s₂.At ["cache"] := by
    rw [hrun]
    exact at_run (hrun ▸ hfacts.1)
  obtain ⟨l, hl, hh, hiff⟩ := publish_iff_not_joined (t := .empty) rfl (Eq.refl s₂) hat hl₁ he rfl
    (by simp [Continues, Ledger.Action.id?]) (.inr hfacts.2.1) hfacts.2.2 day
  exact ⟨l, hl, hh, hiff.2 (not_joined_run rfl)⟩

/-- An owner opens the cache while another one's store is in progress, whose commit then fails. -/
theorem publish_fails_of_joined :
    let key : CacheKey := ⟨"0123456789abcdef0123456789abcdef0123456789abcdef0123456789abcdef", by decide⟩
    let day : Date := ⟨2024, 1, 1⟩
    let s₁ := (ofFiles .empty).run [.enter 1 "cache" [] 30 day, .act 1 (.lookup 0 day key), .act 1 (.stage 0),
      .act 1 (.write 0 [1, 2])]
    let s₂ := s₁.step (.enter 2 "cache" [] 30 day)
    ∃ l e, s₂.ledger? 1 = some l ∧ l.held 0 = some e ∧ e.written = some [1, 2] ∧
      answer ((e.slot.publish day).run l.session) = .error (.commit key .notFound) := by
  intro key day s₁ s₂
  let name : RawText := .ofText (temporaryName key.text 1 0)
  let slot : CacheSlot := ⟨key, false, some ["cache", name]⟩
  let t : FileTree := ⟨[(["cache", name], .file [1, 2]), (["cache", ".lock"], .file []), (["cache"], .directory)], []⟩
  have hheld : (s₁.ledger? 1).bind (fun l => (l.held 0).map fun e => (l.session, e)) =
      some (⟨⟨"cache", ["cache"], 30, 1, 1, .empty⟩, t⟩, ⟨slot, some [1, 2]⟩) ∧ s₁.files = t ∧ s₁.ledgers 2 = none := by
    decide +kernel
  obtain ⟨hheld, hfiles, hnone⟩ := hheld
  obtain ⟨l, hl, hheld⟩ := Option.bind_eq_some_iff.1 hheld
  obtain ⟨e, he, heq⟩ := Option.map_eq_some_iff.1 hheld
  obtain ⟨hsession, rfl⟩ := Prod.mk.inj heq
  -- the names in the directory are not sorted here, it is enough that this one is among them
  have hspares := Cache.spares_sweep ["cache"] t
  have hreach : (Cache.sweep ["cache"] t).Reaches ["cache"] := by
    refine reaches_concat.2 ⟨reaches_nil _, (hspares _ ?_).trans (by decide)⟩
    rintro ⟨name, -, hname⟩
    exact absurd (congrArg List.length hname) (by simp)
  obtain ⟨m, hm⟩ := Cache.exists_loadMetadata day hreach
  have hmade : t.makeDirectoriesAt [] "cache" = .ok t := eq_ok_of_toOption_eq_some (by decide +kernel)
  have hopen := Cache.run_openWith 30 2 hmade (eq_ok_of_toOption_eq_some (by decide +kernel))
    (eq_ok_of_toOption_eq_some (by decide +kernel)) hm
  have hs₂ : s₂ = ⟨Cache.sweep ["cache"] t, Function.update s₁.ledgers 2
      (some (.fresh ⟨⟨"cache", ["cache"], 30, 2, 0, m⟩, Cache.sweep ["cache"] t⟩))⟩ := by
    change s₁.step _ = _
    rw [Site.step, hnone, hfiles, hopen]
  have hgone : (Cache.sweep ["cache"] t).find? ["cache", name] = none :=
    Cache.find?_sweep_of_isFile (isTemporary_temporaryName key.text 1 0) (by decide +kernel)
  have hshard : (Cache.sweep ["cache"] t).find? (shardPlace ["cache"] key) = none :=
    ((Cache.find?_sweep_cases _ _ _).elim id fun h => h.trans (by decide +kernel))
  refine ⟨l.withFiles (Cache.sweep ["cache"] t), _, ?_, he, rfl, ?_⟩
  · rw [hs₂, ledger?_update, if_neg (by decide), hl, Option.map_some]
  · rw [Ledger.withFiles, hsession]
    exact CacheSlot.answer_publish_of_gone rfl (isTemporary_temporaryName key.text 1 0) hreach hgone (.inl hshard) day

end Site

end NamespaceMigration
