import Mathlib.Logic.Function.Basic
import NamespaceMigration.Proofs.Cache.Names
import NamespaceMigration.Proofs.Cache.Slot

namespace NamespaceMigration

open FileTree CacheLayout Steps

structure Holding where
  slot : CacheSlot
  written : Option Bytes
  deriving DecidableEq, Repr

/-- A handle, the entries in use by their numbers, and what the last committed store of each hash wrote. -/
structure Ledger where
  session : CacheSession
  held : ℕ → Option Holding
  committed : CacheKey → Option Bytes

namespace Ledger

inductive Action where
  | lookup (id : ℕ) (today : Date) (key : CacheKey)
  | stage (id : ℕ)
  | write (id : ℕ) (content : Bytes)
  | publish (id : ℕ) (today : Date)
  | release (id : ℕ)
  | store (id : ℕ) (today : Date) (content : Bytes)
  | save
  | prune (day : Date)
  | clear
  deriving DecidableEq, Repr

def fresh (s : CacheSession) : Ledger := ⟨s, fun _ => none, fun _ => none⟩

def settle (l : Ledger) (id : ℕ) (key : CacheKey) (content : Option Bytes) : EStateM.Result CacheFault CacheSession Unit → Ledger
  | .ok _ s => ⟨s, Function.update l.held id none, Function.update l.committed key content⟩
  | .error _ s => ⟨s, Function.update l.held id none, l.committed⟩

def act (l : Ledger) : Action → Ledger
  | .lookup id today key =>
    -- a number stays with its entry until that is used up
    match l.held id with
    | some _ => l
    | none =>
      match (CacheSlot.lookup today key).run l.session with
      | .ok slot s => { l with session := s, held := Function.update l.held id (some ⟨slot, none⟩) }
      | .error _ s => { l with session := s }
  | .stage id =>
    match l.held id with
    | none => l
    | some e =>
      match e.slot.stage.run l.session with
      | .ok slot s => { l with session := s, held := Function.update l.held id (some ⟨slot, some []⟩) }
      | .error _ s =>
        { l with session := s, held := Function.update l.held id (some ⟨{ e.slot with pending := none }, none⟩) }
  | .write id content =>
    match l.held id with
    | none => l
    | some e => { l with
        session := after ((e.slot.write content).run l.session)
        held := Function.update l.held id (some { e with written := e.written.map (· ++ content) }) }
  | .publish id today =>
    match l.held id with
    | none => l
    | some e => l.settle id e.slot.hash e.written ((e.slot.publish today).run l.session)
  | .release id =>
    match l.held id with
    | none => l
    | some e => { l with session := after (e.slot.unstage.run l.session), held := Function.update l.held id none }
  | .store id today content =>
    match l.held id with
    | none => l
    | some e => l.settle id e.slot.hash (some content) ((e.slot.store today content).run l.session)
  | .save => { l with session := after (Cache.save.run l.session) }
  | .prune day => { l with session := after ((Cache.prune day).run l.session) }
  | .clear => { l with session := after (Cache.clear.run l.session) }

def pendingOf (held : ℕ → Option Holding) (id : ℕ) : Option Place := (held id).bind fun e => e.slot.pending

variable {root p place : Place} {owner count count' id id' : ℕ} {held : ℕ → Option Holding} {x : Option Holding}
  {committed : CacheKey → Option Bytes} {e : Holding} {content : Bytes} {key : CacheKey} {l : Ledger} {u : CacheSession}

lemma pendingOf_eq (he : held id = some e) : pendingOf held id = e.slot.pending := by rw [pendingOf, he, Option.bind_some]

lemma pendingOf_update :
    pendingOf (Function.update held id x) id' = if id' = id then x.bind fun e => e.slot.pending else pendingOf held id' := by
  rw [pendingOf, Function.update_apply]
  split <;> rfl

lemma settle_update (s : CacheSession) (x : Option Holding) (c : Option Bytes) (r : EStateM.Result CacheFault CacheSession Unit) :
    (⟨s, Function.update l.held id x, l.committed⟩ : Ledger).settle id key c r = l.settle id key c r := by
  cases r <;> simp [settle]

lemma act_store (l : Ledger) (id : ℕ) (today : Date) (content : Bytes) :
    l.act (.store id today content) = ((l.act (.stage id)).act (.write id content)).act (.publish id today) := by
  cases he : l.held id with
  | none => simp [act, he]
  | some e =>
    cases hs : e.slot.stage.run l.session with
    | ok slot s =>
      have hstaged : l.act (.stage id) = ⟨s, Function.update l.held id (some ⟨slot, some []⟩), l.committed⟩ := by
        simp [act, he, hs]
      rw [hstaged]
      simp [act, he, CacheSlot.run_store_of_ok hs, CacheSlot.hash_of_stage hs, settle_update]
    | error fault s =>
      have hstaged : l.act (.stage id) =
          ⟨s, Function.update l.held id (some ⟨{ e.slot with pending := none }, none⟩), l.committed⟩ := by
        simp [act, he, hs]
      rw [hstaged]
      simp [act, he, CacheSlot.run_store_of_error hs, CacheSlot.run_write_of_pending_eq_none,
        CacheSlot.run_publish_of_pending_eq_none, after, settle]

/-- Whether a file with some content is accounted for: it is the lock, the metadata, the temporary file of a store
with what was written to it, or an object with what was committed for its hash. -/
inductive Explained (root : Place) (held : ℕ → Option Holding) (committed : CacheKey → Option Bytes) (p : Place)
    (content : Bytes) : Prop
  | lock (hp : p = lockPlace root)
  | metadata (hp : p = metadataPlace root)
  | temporary {id : ℕ} {e : Holding} (he : held id = some e) (hp : e.slot.pending = some p) (hw : e.written = some content)
  | object {key : CacheKey} (hp : p = objectPlace root key) (hc : committed key = some content)

namespace Explained

lemma update (h : Explained root held committed p content) (hne : pendingOf held id ≠ some p) (x : Option Holding) :
    Explained root (Function.update held id x) committed p content := by
  cases h with
  | lock hp => exact .lock hp
  | metadata hp => exact .metadata hp
  | object hp hc => exact .object hp hc
  | @temporary id' e he hp hw =>
    have hid : id' ≠ id := by
      rintro rfl
      exact hne ((pendingOf_eq he).trans hp)
    exact .temporary ((Function.update_of_ne hid x held).trans he) hp hw

lemma commit (h : Explained root held committed p content) (hne : p ≠ objectPlace root key) (c : Option Bytes) :
    Explained root held (Function.update committed key c) p content := by
  cases h with
  | lock hp => exact .lock hp
  | metadata hp => exact .metadata hp
  | temporary he hp hw => exact .temporary he hp hw
  | @object key' hp hc =>
    have hkey : key' ≠ key := by
      rintro rfl
      exact hne hp
    exact .object hp ((Function.update_of_ne hkey c committed).trans hc)

lemma temporary_of_isTemporary {name : RawText} (h : Explained root held committed (root ++ [name]) content)
    (hn : isTemporary name = true) :
    ∃ id e, held id = some e ∧ e.slot.pending = some (root ++ [name]) ∧ e.written = some content := by
  cases h with
  | lock hp =>
    obtain rfl : name = lockName := by simpa [lockPlace] using hp
    exact absurd hn (by decide)
  | metadata hp =>
    obtain rfl : name = Metadata.fileName := by simpa [metadataPlace] using hp
    exact absurd hn (by decide)
  | object hp hc => exact absurd hp.symm (objectPlace_ne_append root _ name)
  | temporary he hp hw => exact ⟨_, _, he, hp, hw⟩

end Explained

/-- Whether stores in progress have temporary files of their own, under numbers that the handle has used, and others
have written nothing. -/
structure Booked (root : Place) (owner count : ℕ) (held : ℕ → Option Holding) : Prop where
  numbered : ∀ id place, pendingOf held id = some place → ∃ stem n, n < count ∧ place = root ++ [RawText.ofText (temporaryName stem owner n)]
  apart : ∀ id id' place, pendingOf held id = some place → pendingOf held id' = some place → id = id'
  begun : ∀ id e, held id = some e → (e.slot.pending = none ↔ e.written = none)

namespace Booked

lemma mono (h : Booked root owner count held) (hcount : count ≤ count') : Booked root owner count' held where
  numbered id place hp := by
    obtain ⟨stem, n, hn, hplace⟩ := h.numbered id place hp
    exact ⟨stem, n, Nat.lt_of_lt_of_le hn hcount, hplace⟩
  apart := h.apart
  begun := h.begun

lemma update (h : Booked root owner count held)
    (hx : ∀ e place, x = some e → e.slot.pending = some place → pendingOf held id = some place)
    (hbegun : ∀ e, x = some e → (e.slot.pending = none ↔ e.written = none)) :
    Booked root owner count (Function.update held id x) := by
  have hold : ∀ id' place, pendingOf (Function.update held id x) id' = some place → pendingOf held id' = some place := by
    intro id' place hp
    rw [pendingOf_update] at hp
    split at hp
    next hid =>
      obtain ⟨e, he, hp⟩ := Option.bind_eq_some_iff.1 hp
      exact hid ▸ hx e place he hp
    next => exact hp
  constructor
  · exact fun id' place hp => h.numbered id' place (hold id' place hp)
  · exact fun id₁ id₂ place hp₁ hp₂ => h.apart id₁ id₂ place (hold id₁ place hp₁) (hold id₂ place hp₂)
  · intro id' e he
    rw [Function.update_apply] at he
    split at he
    · exact hbegun e he
    · exact h.begun id' e he

lemma ne_of_le (h : Booked root owner count held) {n : ℕ} (hn : count ≤ n) (stem : String) :
    pendingOf held id ≠ some (root ++ [RawText.ofText (temporaryName stem owner n)]) := by
  intro hp
  obtain ⟨stem', m, hm, hplace⟩ := h.numbered id _ hp
  have hname : temporaryName stem owner n = temporaryName stem' owner m := by simpa using hplace
  rw [(eq_of_temporaryName_eq hname).2] at hn
  exact Nat.not_le_of_lt hm hn

lemma begin {n : ℕ} {stem : String} (h : Booked root owner count held) (hn : count ≤ n)
    (hp : e.slot.pending = some (root ++ [RawText.ofText (temporaryName stem owner n)])) (hw : e.written ≠ none) :
    Booked root owner (n + 1) (Function.update held id (some e)) := by
  have hnew : ∀ id' place, pendingOf (Function.update held id (some e)) id' = some place →
      id' = id ∧ place = root ++ [RawText.ofText (temporaryName stem owner n)] ∨ id' ≠ id ∧ pendingOf held id' = some place := by
    intro id' place hp'
    rw [pendingOf_update] at hp'
    split at hp'
    next hid => exact .inl ⟨hid, Option.some.inj (hp'.symm.trans hp)⟩
    next hid => exact .inr ⟨hid, hp'⟩
  constructor
  · intro id' place hp'
    rcases hnew id' place hp' with ⟨-, rfl⟩ | ⟨-, hold⟩
    · exact ⟨stem, n, Nat.lt_succ_self n, rfl⟩
    · obtain ⟨stem', m, hm, hplace⟩ := h.numbered id' place hold
      exact ⟨stem', m, Nat.lt_succ_of_lt (Nat.lt_of_lt_of_le hm hn), hplace⟩
  · intro id₁ id₂ place hp₁ hp₂
    -- only two old stores are told apart by what was booked before, the new one by its number
    rcases hnew id₁ place hp₁ with ⟨rfl, rfl⟩ | ⟨-, hold₁⟩ <;> rcases hnew id₂ _ hp₂ with ⟨rfl, he⟩ | ⟨-, hold₂⟩
    · rfl
    · exact absurd hold₂ (h.ne_of_le hn stem)
    · exact absurd (he ▸ hold₁) (h.ne_of_le hn stem)
    · exact h.apart id₁ id₂ place hold₁ hold₂
  · intro id' e' he'
    rw [Function.update_apply] at he'
    split at he'
    · obtain rfl := Option.some.inj he'
      simp [hp, hw]
    · exact h.begun id' e' he'

end Booked

lemma Explained.committed_eq (h : Explained root held committed (objectPlace root key) content)
    (hb : Booked root owner count held) : committed key = some content := by
  cases h with
  | lock hp => exact absurd hp (objectPlace_ne_append root key lockName)
  | metadata hp => exact absurd hp (objectPlace_ne_append root key Metadata.fileName)
  | temporary he hp hw =>
    obtain ⟨stem, n, -, hplace⟩ := hb.numbered _ _ ((pendingOf_eq he).trans hp)
    exact absurd hplace (objectPlace_ne_append root key _)
  | object hp hc =>
    obtain rfl := objectPlace_inj.1 hp
    exact hc

end Ledger

end NamespaceMigration
