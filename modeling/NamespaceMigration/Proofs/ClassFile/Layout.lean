import NamespaceMigration.ClassFile.Draft
import NamespaceMigration.Proofs.ClassFile.ModifiedUtf8
import NamespaceMigration.Proofs.ClassFile.Protection
import NamespaceMigration.Proofs.ClassFile.Writing
import NamespaceMigration.Proofs.Text.Octets

/-! Constants laid out in a pool. -/

namespace NamespaceMigration

open ConstantPool (Holds)

namespace PoolDraft

variable {c : Constant} {d d' : PoolDraft} {cs : List Constant} {pool : ConstantPool} {start i : ℕ}

lemma width_eq (c : Constant) : width c = c.slots.length := by
  unfold width Constant.slots
  split <;> rfl

lemma slotsOf_eq (cs : List Constant) : slotsOf cs = (cs.flatMap Constant.slots).length := by
  induction cs with
  | nil => rfl
  | cons c cs ih => rw [slotsOf, List.map_cons, List.foldr_cons, ← slotsOf, ih, width_eq, List.flatMap_cons, List.length_append]

lemma find?_eq_some (h : find? c start cs = some i) : ∃ before after, cs = before ++ c :: after ∧ i = start + slotsOf before := by
  induction cs generalizing start with
  | nil => cases h
  | cons e cs ih =>
    rw [find?] at h
    split at h
    next he => exact ⟨[], cs, he ▸ rfl, (Option.some.inj h).symm⟩
    next =>
      obtain ⟨before, after, rfl, rfl⟩ := ih h
      exact ⟨e :: before, after, rfl, Nat.add_assoc _ _ _⟩

lemma notMem_of_find?_eq_none (h : find? c start cs = none) : c ∉ cs := by
  induction cs generalizing start with
  | nil => exact List.not_mem_nil
  | cons e cs ih =>
    rw [find?] at h
    split at h
    next => cases h
    next he => exact List.not_mem_cons_of_ne_of_not_mem (Ne.symm he) (ih h)

structure Sound (d : PoolDraft) : Prop where
  fits : ∀ c ∈ d.constants.toList, c.Fits
  nodup : d.constants.toList.Nodup

def Heads (d : PoolDraft) (pool : ConstantPool) : Prop :=
  ∃ after, pool.Holds (d.constants.toList ++ after) ∧ pool.slots.size ≤ 65535

lemma Heads.mono (hp : d.constants.toList <+: d'.constants.toList) (h : d'.Heads pool) : d.Heads pool := by
  obtain ⟨added, hadded⟩ := hp
  obtain ⟨after, hholds, hsize⟩ := h
  refine ⟨added ++ after, ?_, hsize⟩
  rwa [← List.append_assoc, hadded]

lemma Heads.get_eq {before after : List Constant} (h : d.Heads pool) (hd : d.constants.toList = before ++ c :: after)
    (hi : i = 1 + slotsOf before) : pool.get (UInt16.ofNat i) = .ok c := by
  obtain ⟨rest, hholds, hsize⟩ := h
  have hslot : pool.slots[i]? = some (some c) := by
    refine hholds.getElem?_eq_some_iff.2 ⟨before, after ++ rest, ?_, ?_⟩
    · rw [hd, List.append_assoc, List.cons_append]
    · rw [hi, slotsOf_eq]
  have hlt : i < pool.slots.size := (Array.getElem?_eq_some_iff.1 hslot).1
  rw [ConstantPool.get_eq_ok_iff, UInt16.toNat_ofNat', Nat.mod_eq_of_lt (by omega), hslot]

lemma mem_intern (c : Constant) (d : PoolDraft) : c ∈ (intern c d).2.constants.toList := by
  unfold intern
  split
  next i hi =>
    obtain ⟨before, after, hd, -⟩ := find?_eq_some hi
    simp [hd]
  next => simp

end PoolDraft

/-- Whether a layout keeps the constants sound as it adds some behind them, and what it gives stands in each pool that has
them first. -/
structure Lays {α : Type} (x : StateM PoolDraft α) (stands : ConstantPool → α → Prop) : Prop where
  sound : ∀ d, d.Sound → (x d).2.Sound
  adds : ∀ d, d.constants.toList <+: (x d).2.constants.toList
  stands : ∀ d pool, (x d).2.Heads pool → stands pool (x d).1

namespace Lays

variable {α β : Type} {x : StateM PoolDraft α} {f : α → StateM PoolDraft β} {a : α} {s : String}
variable {stands : ConstantPool → α → Prop} {stands' : ConstantPool → β → Prop}

lemma pure (h : ∀ pool, stands pool a) : Lays (pure a) stands :=
  ⟨fun _ hd => hd, fun _ => List.prefix_rfl, fun _ pool _ => h pool⟩

lemma bind (hx : Lays x stands) (hf : ∀ a, Lays (f a) fun pool b => stands pool a → stands' pool b) :
    Lays (x >>= f) stands' where
  sound d hd := (hf _).sound _ (hx.sound d hd)
  adds d := (hx.adds d).trans ((hf _).adds _)
  stands d pool hpool := (hf _).stands _ pool hpool (hx.stands d pool (.mono ((hf _).adds _) hpool))

lemma mono {stands' : ConstantPool → α → Prop} (hx : Lays x stands) (h : ∀ pool a, stands pool a → stands' pool a) :
    Lays x stands' :=
  ⟨hx.sound, hx.adds, fun d pool hpool => h pool _ (hx.stands d pool hpool)⟩

lemma mapM {l : List α} {stands : α → ConstantPool → β → Prop} (h : ∀ a ∈ l, Lays (f a) (stands a)) :
    Lays (l.mapM f) fun pool bs => List.Forall₂ (fun a b => stands a pool b) l bs := by
  induction l with
  | nil => exact .pure fun _ => .nil
  | cons a l ih =>
    rw [List.mapM_cons]
    refine (h a (by simp)).bind fun b => (ih fun a ha => h a (by simp [ha])).bind fun bs => .pure fun pool hbs hb => ?_
    exact .cons hb hbs

lemma intern {c : Constant} (hc : c.Fits) : Lays (PoolDraft.intern c) fun pool i => pool.get i = .ok c where
  sound d hd := by
    unfold PoolDraft.intern
    split
    next => exact hd
    next hnone =>
      refine ⟨fun e he => ?_, ?_⟩
      · rw [Array.toList_push, List.mem_append, List.mem_singleton] at he
        rcases he with he | rfl
        · exact hd.fits e he
        · exact hc
      · rw [Array.toList_push]
        refine List.nodup_append.2 ⟨hd.nodup, by simp, fun e he e' he' => ?_⟩
        rw [List.mem_singleton.1 he']
        rintro rfl
        exact PoolDraft.notMem_of_find?_eq_none hnone he
  adds d := by
    unfold PoolDraft.intern
    split
    next => exact List.prefix_rfl
    next =>
      rw [Array.toList_push]
      exact List.prefix_append _ _
  stands d pool hpool := by
    unfold PoolDraft.intern at hpool ⊢
    split at hpool
    next i hi =>
      obtain ⟨before, after, hd, rfl⟩ := PoolDraft.find?_eq_some hi
      exact hpool.get_eq hd rfl
    next =>
      have hpushed : (d.constants.push c).toList = d.constants.toList ++ c :: [] := Array.toList_push
      exact hpool.get_eq hpushed (Nat.add_comm _ _)

end Lays

def IsShort (s : String) : Prop := (∀ c ∈ s.toList, c.toNat ≠ 0 ∧ c.toNat < 0x10000) ∧ (Bytes.utf8 s).length < 65536

instance (s : String) : Decidable (IsShort s) :=
  have : Decidable (∀ c ∈ s.toList, c.toNat ≠ 0 ∧ c.toNat < 0x10000) := List.decidableBAll _ _
  inferInstanceAs (Decidable (_ ∧ _))

lemma IsShort.decoded {s : String} (h : IsShort s) : ConstantPool.decoded (Bytes.utf8 s) = .ok s := by
  have hs : Bytes.utf8 s = ModifiedUtf8.encodeChars s.toList := by
    rw [Bytes.utf8_eq_flatMap, ModifiedUtf8.encodeChars, ModifiedUtf8.units, List.flatMap_assoc]
    exact List.flatMap_congr fun c hc => ModifiedUtf8.utf8EncodeChar_of_lt (h.1 c hc).1 (h.1 c hc).2
  rw [ConstantPool.decoded, hs, ModifiedUtf8.decode?_encodeChars, String.ofList_toList]

namespace Lays

variable {s owner name descriptor : String}

lemma utf8 (hs : IsShort s) : Lays (PoolDraft.utf8 s) fun pool i => pool.utf8Bytes i = .ok (Bytes.utf8 s) ∧ pool.utf8 i = .ok s := by
  refine (Lays.intern (c := .utf8 (Bytes.utf8 s)) hs.2).mono fun pool i hi => ?_
  have hbytes : pool.utf8Bytes i = .ok (Bytes.utf8 s) := by
    rw [ConstantPool.utf8Bytes, hi]
    rfl
  refine ⟨hbytes, ?_⟩
  rw [ConstantPool.utf8, hbytes]
  exact hs.decoded

lemma classInfo (hs : IsShort s) : Lays (PoolDraft.classInfo s) fun pool i =>
    pool.classNameBytes i = .ok (Bytes.utf8 s) ∧ pool.className i = .ok s := by
  refine (Lays.utf8 hs).bind fun i => (Lays.intern (by trivial)).mono fun pool j hj hi => ?_
  have hbytes : pool.classNameBytes j = .ok (Bytes.utf8 s) := by
    rw [ConstantPool.classNameBytes, hj]
    exact hi.1
  refine ⟨hbytes, ?_⟩
  rw [ConstantPool.className, hbytes]
  exact hs.decoded

lemma string (hs : IsShort s) : Lays (PoolDraft.string s) fun pool i =>
    ∃ text, pool.get i = .ok (.string text) ∧ pool.utf8 text = .ok s :=
  (Lays.utf8 hs).bind fun i => (Lays.intern (by trivial)).mono fun _ _ hj hi => ⟨i, hj, hi.2⟩

lemma fieldRef (ho : IsShort owner) (hn : IsShort name) (hd : IsShort descriptor) :
    Lays (PoolDraft.fieldRef owner name descriptor) fun pool i =>
      pool.field i = .ok ⟨Bytes.utf8 owner, Bytes.utf8 name, Bytes.utf8 descriptor⟩ := by
  refine (Lays.classInfo ho).bind fun o => (Lays.utf8 hn).bind fun n => (Lays.utf8 hd).bind fun d => ?_
  refine (Lays.intern (by trivial)).bind fun m => (Lays.intern (by trivial)).mono fun pool i hi hm hd hn ho => ?_
  rw [ConstantPool.field, hi]
  change (pool.get m >>= _) = _
  rw [hm]
  change (pool.classNameBytes o >>= _) = _
  rw [ho.1]
  change (pool.utf8Bytes n >>= _) = _
  rw [hn.1]
  change (pool.utf8Bytes d >>= _) = _
  rw [hd.1]
  rfl

end Lays

end NamespaceMigration
