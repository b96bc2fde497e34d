import Mathlib.Data.List.Basic
import NamespaceMigration.ClassFile.Basic

/-! Reading and writing of class files. -/

namespace NamespaceMigration

namespace Bytes

lemma joinBig16_big16 (n : UInt16) : joinBig16 (n >>> 8).toUInt8 n.toUInt8 = n := by
  apply UInt16.toBitVec_inj.1
  ext i hi
  simp [joinBig16, -UInt16.toUInt16_toUInt8]
  grind

lemma big16_inj {m n : UInt16} : big16 m = big16 n ↔ m = n := by
  constructor
  · intro h
    obtain ⟨hhigh, hlow⟩ : (m >>> 8).toUInt8 = (n >>> 8).toUInt8 ∧ m.toUInt8 = n.toUInt8 := by
      simpa only [big16, List.cons.injEq, and_true] using h
    rw [← joinBig16_big16 m, hhigh, hlow, joinBig16_big16]
  · rintro rfl
    rfl

lemma big16_joinBig16 (a b : UInt8) : big16 (joinBig16 a b) = [a, b] := by
  simp only [big16, List.cons.injEq, and_true, ← UInt8.toBitVec_inj]
  constructor <;> (ext i hi; simp [joinBig16]; try grind)

lemma joinBig32_big32 (n : UInt32) :
    joinBig32 (n >>> 24).toUInt8 (n >>> 16).toUInt8 (n >>> 8).toUInt8 n.toUInt8 = n := by
  apply UInt32.toBitVec_inj.1
  ext i hi
  simp [joinBig32, -UInt32.toUInt32_toUInt8]
  grind

lemma big32_joinBig32 (a b c d : UInt8) : big32 (joinBig32 a b c d) = [a, b, c, d] := by
  simp only [big32, List.cons.injEq, and_true, ← UInt8.toBitVec_inj]
  refine ⟨?_, ?_, ?_, ?_⟩ <;> ext i hi <;> simp [joinBig32] <;> grind

lemma joinBig64_halves (n : UInt64) : joinBig64 (n >>> 32).toUInt32 n.toUInt32 = n := by
  apply UInt64.toBitVec_inj.1
  ext i hi
  simp [joinBig64, -UInt64.toUInt64_toUInt32]
  grind

lemma big64_joinBig64 (high low : UInt32) : big64 (joinBig64 high low) = big32 high ++ big32 low := by
  have hh : (joinBig64 high low >>> 32).toUInt32 = high := by
    apply UInt32.toBitVec_inj.1
    ext i hi
    simp [joinBig64]
    grind
  have hl : (joinBig64 high low).toUInt32 = low := by
    apply UInt32.toBitVec_inj.1
    ext i hi
    simp [joinBig64]
  rw [big64, hh, hl]

end Bytes

namespace Reader

variable {α β : Type} {s rest : Bytes}

lemma pure_eq_ok_iff {a b : α} : (pure a : Reader α) s = .ok (b, rest) ↔ a = b ∧ s = rest := by
  change Except.ok (a, s) = Except.ok (b, rest) ↔ _
  simp

lemma bind_eq_ok_iff {x : Reader α} {f : α → Reader β} {b : β} :
    (x >>= f) s = .ok (b, rest) ↔ ∃ a t, x s = .ok (a, t) ∧ f a t = .ok (b, rest) := by
  change (x s).bind (fun p => f p.1 p.2) = _ ↔ _
  cases x s with
  | error e => simp [Except.bind]
  | ok r => obtain ⟨a, t⟩ := r; simp [Except.bind]

lemma map_eq_ok_iff {x : Reader α} {f : α → β} {b : β} :
    (f <$> x) s = .ok (b, rest) ↔ ∃ a, x s = .ok (a, rest) ∧ f a = b := by
  rw [map_eq_pure_bind, bind_eq_ok_iff]
  constructor
  · rintro ⟨a, t, h, hp⟩
    obtain ⟨rfl, rfl⟩ := pure_eq_ok_iff.1 hp
    exact ⟨a, h, rfl⟩
  · rintro ⟨a, h, rfl⟩
    exact ⟨a, rest, h, pure_eq_ok_iff.2 ⟨rfl, rfl⟩⟩

lemma throw_ne_ok {e : ClassFault} {r : α × Bytes} : (throw e : Reader α) s ≠ .ok r := by
  rintro ⟨⟩

lemma get_eq_ok_iff {t : Bytes} : (get : Reader Bytes) s = .ok (t, rest) ↔ s = t ∧ s = rest := by
  change Except.ok (s, s) = Except.ok (t, rest) ↔ _
  simp

lemma u1_eq_ok_iff {n : UInt8} : u1 s = .ok (n, rest) ↔ s = n :: rest := by
  cases s <;> simp [u1]

lemma u2_eq_ok_iff {n : UInt16} : u2 s = .ok (n, rest) ↔ s = Bytes.big16 n ++ rest := by
  rcases s with _ | ⟨a, _ | ⟨b, s⟩⟩
  · simp [u2, Bytes.big16]
  · simp [u2, Bytes.big16]
  · constructor
    · intro h
      obtain ⟨rfl, rfl⟩ : Bytes.joinBig16 a b = n ∧ s = rest := by simpa [u2] using h
      simp [Bytes.big16_joinBig16]
    · intro h
      obtain ⟨rfl, rfl, rfl⟩ : a = _ ∧ b = _ ∧ s = rest := by simpa [Bytes.big16] using h
      simp [u2, Bytes.joinBig16_big16]

lemma u4_eq_ok_iff {n : UInt32} : u4 s = .ok (n, rest) ↔ s = Bytes.big32 n ++ rest := by
  rcases s with _ | ⟨a, _ | ⟨b, _ | ⟨c, _ | ⟨d, s⟩⟩⟩⟩
  iterate 4 simp [u4, Bytes.big32]
  constructor
  · intro h
    obtain ⟨rfl, rfl⟩ : Bytes.joinBig32 a b c d = n ∧ s = rest := by simpa [u4] using h
    simp [Bytes.big32_joinBig32]
  · intro h
    obtain ⟨rfl, rfl, rfl, rfl, rfl⟩ : a = _ ∧ b = _ ∧ c = _ ∧ d = _ ∧ s = rest := by
      simpa [Bytes.big32] using h
    simp [u4, Bytes.joinBig32_big32]

lemma u8_eq_ok_iff {n : UInt64} : u8 s = .ok (n, rest) ↔ s = Bytes.big64 n ++ rest := by
  simp only [u8, bind_eq_ok_iff, pure_eq_ok_iff, u4_eq_ok_iff]
  constructor
  · rintro ⟨high, t, rfl, low, _, rfl, rfl, rfl⟩
    simp [Bytes.big64_joinBig64]
  · rintro rfl
    exact ⟨_, _, by rw [Bytes.big64, List.append_assoc], _, _, rfl, Bytes.joinBig64_halves n, rfl⟩

lemma bytes_eq_ok_iff {n : ℕ} {part : Bytes} :
    bytes n s = .ok (part, rest) ↔ part.length = n ∧ s = part ++ rest := by
  have ht := List.take_append_drop n s
  simp only [bytes]
  split
  next h =>
    simp only [Except.ok.injEq, Prod.mk.injEq]
    constructor
    · rintro ⟨rfl, rfl⟩
      exact ⟨h, ht.symm⟩
    · rintro ⟨rfl, rfl⟩
      simp
  next h =>
    simp only [reduceCtorEq, false_iff, not_and]
    rintro rfl rfl
    simp at h

end Reader

namespace Constant

def Fits : Constant → Prop
  | utf8 bytes => bytes.length < 65536
  | _ => True

lemma readPayload_eq_ok_iff {t : UInt8} {c : Constant} {s rest : Bytes} :
    readPayload t s = .ok (c, rest) ↔ c.Fits ∧ c.tag = t ∧ s = c.payload ++ rest := by
  constructor
  · intro h
    unfold readPayload at h
    split at h
    all_goals
      simp only [bind_pure_comp, Reader.map_eq_ok_iff, Reader.bind_eq_ok_iff, Reader.u1_eq_ok_iff, Reader.u2_eq_ok_iff,
        Reader.u4_eq_ok_iff, Reader.u8_eq_ok_iff, Reader.bytes_eq_ok_iff, Reader.throw_ne_ok] at h
    case h_1 =>
      obtain ⟨size, t, rfl, bytes, ⟨hn, rfl⟩, rfl⟩ := h
      exact ⟨by simpa [Fits, hn] using size.toNat_lt, rfl, by simp [payload, hn]⟩
    case h_2 =>
      obtain ⟨value, rfl, rfl⟩ := h
      simp [Fits, tag, payload]
    case h_4 =>
      obtain ⟨value, rfl, rfl⟩ := h
      simp [Fits, tag, payload]
    all_goals grind [Fits, tag, payload]
  · rintro ⟨hc, rfl, rfl⟩
    cases c with
    | utf8 bytes =>
      have hn : bytes.length = (UInt16.ofNat bytes.length).toNat := by
        simpa using (Nat.mod_eq_of_lt hc).symm
      simp only [tag, payload, readPayload, List.append_assoc, bind_pure_comp, Reader.bind_eq_ok_iff,
        Reader.u2_eq_ok_iff, Reader.map_eq_ok_iff, Reader.bytes_eq_ok_iff]
      exact ⟨_, _, rfl, bytes, ⟨hn, rfl⟩, rfl⟩
    | integer value =>
      simp only [tag, payload, readPayload, bind_pure_comp, Reader.map_eq_ok_iff, Reader.u4_eq_ok_iff]
      exact ⟨_, rfl, by simp⟩
    | long value =>
      simp only [tag, payload, readPayload, bind_pure_comp, Reader.map_eq_ok_iff, Reader.u8_eq_ok_iff]
      exact ⟨_, rfl, by simp⟩
    | _ => simp [tag, payload, readPayload, Reader.bind_eq_ok_iff, Reader.map_eq_ok_iff, Reader.u1_eq_ok_iff,
        Reader.u2_eq_ok_iff, Reader.u4_eq_ok_iff, Reader.u8_eq_ok_iff]

lemma read_eq_ok_iff {c : Constant} {s rest : Bytes} : read s = .ok (c, rest) ↔ c.Fits ∧ s = c.write ++ rest := by
  simp only [read, Reader.bind_eq_ok_iff, Reader.u1_eq_ok_iff, readPayload_eq_ok_iff]
  constructor
  · rintro ⟨t, s, rfl, hc, rfl, rfl⟩
    exact ⟨hc, rfl⟩
  · rintro ⟨hc, rfl⟩
    exact ⟨c.tag, c.payload ++ rest, rfl, hc, rfl, rfl⟩

def slots (c : Constant) : List (Option Constant) := if c.takesTwoSlots then [some c, none] else [some c]

end Constant

namespace ConstantPool

def Fills (count : ℕ) : ℕ → List Constant → Prop
  | size, [] => count ≤ size
  | size, c :: cs => size < count ∧ Fills count (size + c.slots.length) cs

def Filled (count : ℕ) (slots : Array (Option Constant)) (s : Bytes) (slots' : Array (Option Constant))
    (rest : Bytes) : Prop :=
  ∃ cs : List Constant, (∀ c ∈ cs, c.Fits) ∧ Fills count slots.size cs ∧
    slots' = slots ++ (cs.flatMap Constant.slots).toArray ∧ s = cs.flatMap Constant.write ++ rest

variable {count : ℕ} {slots slots' : Array (Option Constant)} {s rest : Bytes}

lemma filled_of_le (h : count ≤ slots.size) : Filled count slots s slots' rest ↔ slots = slots' ∧ s = rest := by
  constructor
  · rintro ⟨_ | ⟨c, cs⟩, -, hf, rfl, rfl⟩
    · simp
    · exact absurd hf.1 (by omega)
  · rintro ⟨rfl, rfl⟩
    exact ⟨[], by simp, h, by simp, rfl⟩

lemma filled_step (h : slots.size < count) :
    Filled count slots s slots' rest ↔ ∃ c t, Constant.read s = .ok (c, t) ∧
      Filled count (slots ++ c.slots.toArray) t slots' rest := by
  constructor
  · rintro ⟨_ | ⟨c, cs⟩, hc, hf, rfl, rfl⟩
    · exact absurd h (Nat.not_lt.2 hf)
    · refine ⟨c, cs.flatMap Constant.write ++ rest, ?_, cs, fun d hd => hc d (by simp [hd]), ?_, ?_, rfl⟩
      · exact Constant.read_eq_ok_iff.2 ⟨hc c (by simp), by simp⟩
      · simpa using hf.2
      · simp
  · rintro ⟨c, t, hr, cs, hc, hf, rfl, rfl⟩
    obtain ⟨hd, rfl⟩ := Constant.read_eq_ok_iff.1 hr
    refine ⟨c :: cs, by simpa using ⟨hd, hc⟩, ⟨h, by simpa using hf⟩, by simp, by simp⟩

lemma readSlots_eq_ok_iff : readSlots count slots s = .ok (slots', rest) ↔ Filled count slots s slots' rest := by
  fun_induction readSlots count slots s with
  | case1 slots s hlt c s' hc hw ih =>
    have hp : (slots.push (some c)).push none = slots ++ #[some c, none] := by simp [← Array.toList_inj]
    rw [hp] at ih ⊢
    simp [ih, filled_step hlt, hc, Constant.slots, hw]
  | case2 slots s hlt c s' hc hw ih => simp [ih, filled_step hlt, hc, Constant.slots, hw]
  | case3 slots s hlt e he => simp [filled_step hlt, he]
  | case4 slots s hlt => simp [filled_of_le (Nat.not_lt.1 hlt)]

lemma read_eq_ok_iff {pool : ConstantPool} :
    read s = .ok (pool, rest) ↔ ∃ (n : UInt16) (t : Bytes), s = Bytes.big16 n ++ t ∧
      Filled n.toNat #[none] t pool.slots rest := by
  simp only [read, Reader.bind_eq_ok_iff, Reader.u2_eq_ok_iff, bind_pure_comp, Reader.map_eq_ok_iff,
    readSlots_eq_ok_iff]
  constructor
  · rintro ⟨n, t, rfl, slots, h, rfl⟩
    exact ⟨n, t, rfl, h⟩
  · rintro ⟨n, t, rfl, h⟩
    exact ⟨n, t, rfl, pool.slots, h, rfl⟩

def Holds (pool : ConstantPool) (cs : List Constant) : Prop :=
  (∀ c ∈ cs, c.Fits) ∧ pool.slots = #[none] ++ (cs.flatMap Constant.slots).toArray

lemma Holds.toList_slots {pool : ConstantPool} {cs : List Constant} (h : pool.Holds cs) :
    pool.slots.toList = none :: cs.flatMap Constant.slots := by
  rw [h.2, Array.toList_append]
  rfl

lemma Holds.size_slots {pool : ConstantPool} {cs : List Constant} (h : pool.Holds cs) :
    pool.slots.size = 1 + (cs.flatMap Constant.slots).length := by
  rw [← Array.length_toList, h.toList_slots, List.length_cons, Nat.add_comm]

lemma length_slots_pos (c : Constant) : 0 < c.slots.length := by
  unfold Constant.slots
  split <;> simp

lemma fills_up (size : ℕ) (cs : List Constant) : Fills (size + (cs.flatMap Constant.slots).length) size cs := by
  induction cs generalizing size with
  | nil => simp [Fills]
  | cons c cs ih =>
    have hpos := length_slots_pos c
    have h := ih (size + c.slots.length)
    rw [List.flatMap_cons, List.length_append, ← Nat.add_assoc]
    exact ⟨by omega, h⟩

lemma length_slots_le (c : Constant) : c.slots.length ≤ 2 := by
  unfold Constant.slots
  split <;> simp

lemma Fills.length_le {size : ℕ} {cs : List Constant} (h : Fills count size cs) (hs : size ≤ count + 1) :
    size + (cs.flatMap Constant.slots).length ≤ count + 1 := by
  induction cs generalizing size with
  | nil => simpa using hs
  | cons c cs ih =>
    have hc := length_slots_le c
    have hl := ih h.2 (by have := h.1; omega)
    rw [List.flatMap_cons, List.length_append, ← Nat.add_assoc]
    exact hl

lemma filterMap_slots (cs : List Constant) : (cs.flatMap Constant.slots).filterMap id = cs := by
  induction cs with
  | nil => rfl
  | cons c cs ih =>
    have hc : c.slots.filterMap id = [c] := by
      unfold Constant.slots
      split <;> rfl
    rw [List.flatMap_cons, List.filterMap_append, ih, hc, List.singleton_append]

lemma Holds.write_eq {pool : ConstantPool} {cs : List Constant} (h : pool.Holds cs) :
    pool.write = Bytes.big16 pool.count ++ cs.flatMap Constant.write := by
  have hconstants : pool.slots.toList.filterMap id = cs := by
    rw [h.toList_slots]
    exact filterMap_slots cs
  rw [write, hconstants]

lemma read_write {pool : ConstantPool} {cs : List Constant} (h : pool.Holds cs) (hn : pool.slots.size ≤ 65535)
    (rest : Bytes) : read (pool.write ++ rest) = .ok (pool, rest) := by
  have hcount : pool.count.toNat = pool.slots.size := by
    simpa [count] using Nat.mod_eq_of_lt (by omega : pool.slots.size < 65536)
  refine read_eq_ok_iff.2 ⟨pool.count, cs.flatMap Constant.write ++ rest, ?_, cs, h.1, ?_, h.2, rfl⟩
  · rw [h.write_eq, List.append_assoc]
  · rw [hcount, h.size_slots]
    exact fills_up 1 cs

end ConstantPool

namespace Reader

lemma run_eq_ok_iff {α : Type} {item : Reader α} {s : Bytes} {a : α} : run item s = .ok a ↔ item s = .ok (a, []) := by
  have hf : ∀ {t rest : Bytes} {u : Unit}, finish t = .ok (u, rest) ↔ t = [] ∧ rest = [] := by
    intro t rest u
    cases t <;> simp [finish, eq_comm]
  have hb : ∀ r : α × Bytes, (do let a ← item; finish; return a : Reader α) s = .ok r ↔
      r.2 = [] ∧ item s = .ok (r.1, []) := by
    rintro ⟨b, rest⟩
    simp only [bind_eq_ok_iff, pure_eq_ok_iff, hf]
    grind
  unfold run
  split
  next b rest h =>
    obtain ⟨rfl, hi⟩ := (hb _).1 h
    simp [hi]
  next e h =>
    simp only [reduceCtorEq, false_iff]
    intro ha
    rw [(hb (a, [])).2 ⟨rfl, ha⟩] at h
    cases h

end Reader

namespace ClassFile

lemma read_eq_ok_iff {c : ClassFile} {s rest : Bytes} :
    read s = .ok (c, rest) ↔ ∃ t, s = Bytes.big32 magic ++ (Bytes.big16 c.minor ++ (Bytes.big16 c.major ++ t)) ∧
      ConstantPool.read t = .ok (c.pool, c.bodyBytes) ∧ ClassBody.read c.bodyBytes = .ok (c.body, rest) := by
  simp only [read, Reader.bind_eq_ok_iff, Reader.u4_eq_ok_iff]
  constructor
  · rintro ⟨found, t, rfl, h⟩
    split at h
    · simp [Reader.bind_eq_ok_iff, Reader.throw_ne_ok] at h
    next hm =>
      obtain rfl := not_not.1 hm
      simp only [Reader.bind_eq_ok_iff, Reader.pure_eq_ok_iff, Reader.u2_eq_ok_iff, Reader.get_eq_ok_iff] at h
      obtain ⟨minor, t, rfl, major, t, rfl, pool, t', hp, bytes, t', ⟨rfl, rfl⟩, body, t', hb, rfl, rfl⟩ := h
      exact ⟨t, rfl, hp, hb⟩
  · rintro ⟨t, rfl, hp, hb⟩
    refine ⟨magic, _, rfl, ?_⟩
    simp only [ne_eq, not_true_eq_false, if_false, Reader.bind_eq_ok_iff, Reader.pure_eq_ok_iff,
      Reader.u2_eq_ok_iff, Reader.get_eq_ok_iff]
    exact ⟨_, _, rfl, _, _, rfl, _, _, hp, _, _, ⟨rfl, rfl⟩, _, _, hb, rfl, rfl⟩

lemma parse_eq_ok_iff {c : ClassFile} {s : Bytes} : parse s = .ok c ↔ read s = .ok (c, []) := Reader.run_eq_ok_iff

def declaredCount (source : Bytes) : UInt16 := Bytes.joinBig16 (source.getD 8 0) (source.getD 9 0)

lemma exists_parts_of_parse {c : ClassFile} {s : Bytes} (h : parse s = .ok c) : ∃ before after cs, before.length = 8 ∧
    c.pool.Holds cs ∧ ConstantPool.Fills (declaredCount s).toNat 1 cs ∧
    s = before ++ (Bytes.big16 (declaredCount s) ++ after) ∧ c.toBytes = before ++ (Bytes.big16 c.pool.count ++ after) := by
  obtain ⟨t, hs, hp, -⟩ := read_eq_ok_iff.1 (parse_eq_ok_iff.1 h)
  obtain ⟨n, t, rfl, cs, hfits, hf, hslots, rfl⟩ := ConstantPool.read_eq_ok_iff.1 hp
  have hholds : c.pool.Holds cs := ⟨hfits, hslots⟩
  have hdeclared : declaredCount s = n := by
    rw [hs]
    exact Bytes.joinBig16_big16 n
  rw [hdeclared]
  refine ⟨Bytes.big32 magic ++ Bytes.big16 c.minor ++ Bytes.big16 c.major, cs.flatMap Constant.write ++ c.bodyBytes, cs, rfl,
    hholds, hf, ?_, ?_⟩
  · rw [hs]
    simp only [List.append_assoc]
  · rw [toBytes, hholds.write_eq]
    simp only [List.append_assoc]

lemma exists_holds_of_parse {c : ClassFile} {s : Bytes} (h : parse s = .ok c) : ∃ cs, c.pool.Holds cs := by
  obtain ⟨-, -, cs, -, hholds, -⟩ := exists_parts_of_parse h
  exact ⟨cs, hholds⟩

lemma size_slots_le_of_parse {c : ClassFile} {s : Bytes} (h : parse s = .ok c) : c.pool.slots.size ≤ 65536 := by
  obtain ⟨-, -, cs, -, hholds, hf, -⟩ := exists_parts_of_parse h
  have hover := hf.length_le (Nat.le_add_left 1 _)
  have hlt := (declaredCount s).toNat_lt
  rw [hholds.size_slots]
  omega

lemma parse_toBytes {c : ClassFile} {s : Bytes} (h : parse s = .ok c) {pool : ConstantPool} {cs : List Constant}
    (hp : pool.Holds cs) (hn : pool.slots.size ≤ 65535) :
    parse { c with pool := pool }.toBytes = .ok { c with pool := pool } := by
  obtain ⟨t, -, -, hb⟩ := read_eq_ok_iff.1 (parse_eq_ok_iff.1 h)
  refine parse_eq_ok_iff.2 (read_eq_ok_iff.2 ⟨pool.write ++ c.bodyBytes, ?_, ?_, hb⟩)
  · simp [toBytes]
  · exact ConstantPool.read_write hp hn c.bodyBytes

end ClassFile

end NamespaceMigration
