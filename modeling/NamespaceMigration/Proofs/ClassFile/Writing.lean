import NamespaceMigration.Proofs.ClassFile.Codec

/-! Writing of class files that were read. -/

namespace NamespaceMigration

namespace ConstantPool

variable {pool : ConstantPool} {count size i : ℕ} {cs as bs : List Constant} {d : Constant}

lemma length_slots_of_wide (hd : d.takesTwoSlots = true) : d.slots.length = 2 := by
  rw [Constant.slots, if_pos hd]
  rfl

lemma length_slots_of_narrow (hd : d.takesTwoSlots = false) : d.slots.length = 1 := by
  rw [Constant.slots, if_neg (by simp [hd])]
  rfl

lemma length_flatMap_slots : ((as ++ d :: bs).flatMap Constant.slots).length =
    (as.flatMap Constant.slots).length + d.slots.length + (bs.flatMap Constant.slots).length := by
  rw [List.flatMap_append, List.flatMap_cons, List.length_append, List.length_append, Nat.add_assoc]

lemma le_of_fills (h : Fills count size cs) : count ≤ size + (cs.flatMap Constant.slots).length := by
  induction cs generalizing size with
  | nil => exact h
  | cons d cs ih =>
    rw [List.flatMap_cons, List.length_append, ← Nat.add_assoc]
    exact ih h.2

lemma Fills.lt_of_append (h : Fills count size (as ++ d :: bs)) : size + (as.flatMap Constant.slots).length < count := by
  induction as generalizing size with
  | nil => exact h.1
  | cons e as ih =>
    rw [List.flatMap_cons, List.length_append, ← Nat.add_assoc]
    exact ih h.2

lemma getElem?_flatMap_slots : (cs.flatMap Constant.slots)[i]? = some (some d) ↔
    ∃ as bs, cs = as ++ d :: bs ∧ (as.flatMap Constant.slots).length = i := by
  constructor
  · intro h
    induction cs generalizing i with
    | nil => cases h
    | cons e cs ih =>
      rw [List.flatMap_cons] at h
      by_cases hi : i < e.slots.length
      · refine ⟨[], cs, ?_⟩
        rw [List.getElem?_append_left hi, Constant.slots] at h
        split at h <;> rcases i with _ | _ | i <;> simp_all
      · rw [List.getElem?_append_right (Nat.not_lt.1 hi)] at h
        obtain ⟨as, bs, rfl, hl⟩ := ih h
        refine ⟨e :: as, bs, rfl, ?_⟩
        rw [List.flatMap_cons, List.length_append, hl]
        omega
  · rintro ⟨as, bs, rfl, rfl⟩
    rw [List.flatMap_append, List.getElem?_append_right (Nat.le_refl _), Nat.sub_self, List.flatMap_cons, Constant.slots]
    split <;> rfl

namespace Holds

variable (h : pool.Holds cs)

include h

lemma getElem?_eq_some_iff : pool.slots[i]? = some (some d) ↔
    ∃ as bs, cs = as ++ d :: bs ∧ 1 + (as.flatMap Constant.slots).length = i := by
  rw [← Array.getElem?_toList, h.toList_slots]
  cases i with
  | zero => simp
  | succ i =>
    rw [List.getElem?_cons_succ, getElem?_flatMap_slots]
    apply exists_congr
    intro as
    apply exists_congr
    intro bs
    apply and_congr_right
    intro _
    omega

lemma size_slots_eq_iff (hf : Fills count 1 cs) :
    pool.slots.size = count ↔ 1 ≤ count ∧ ∀ d, pool.slots[count - 1]? = some (some d) → d.takesTwoSlots = false := by
  have hsize := h.size_slots
  have hle := le_of_fills hf
  constructor
  · intro hcount
    refine ⟨by omega, fun d hd => ?_⟩
    obtain ⟨as, bs, rfl, hstart⟩ := h.getElem?_eq_some_iff.1 hd
    by_contra hwide
    -- its second slot would be beyond the count
    have hwidth := length_slots_of_wide (eq_true_of_ne_false hwide)
    rw [length_flatMap_slots] at hsize
    omega
  · rintro ⟨hpos, hlast⟩
    -- only the last constant can reach beyond the count, as each one begins below it
    rcases List.eq_nil_or_concat' cs with rfl | ⟨as, d, rfl⟩
    · have hone : count ≤ 1 := hf
      rw [List.flatMap_nil, List.length_nil] at hsize
      omega
    · have hlt := hf.lt_of_append
      rw [length_flatMap_slots, List.flatMap_nil, List.length_nil] at hsize hle
      cases hd : d.takesTwoSlots with
      | false =>
        have hwidth := length_slots_of_narrow hd
        omega
      | true =>
        have hwidth := length_slots_of_wide hd
        have hstart : 1 + (as.flatMap Constant.slots).length ≠ count - 1 := by
          intro hi
          have hnarrow := hlast d (h.getElem?_eq_some_iff.2 ⟨as, [], rfl, hi⟩)
          rw [hd] at hnarrow
          cases hnarrow
        omega

end Holds

end ConstantPool

namespace ClassFile

variable {c : ClassFile} {source : Bytes}

lemma count_eq_iff (hc : parse source = .ok c) :
    c.pool.count = declaredCount source ↔ c.pool.slots.size = (declaredCount source).toNat := by
  obtain ⟨-, -, cs, -, hholds, hf, -, -⟩ := exists_parts_of_parse hc
  have hle := ConstantPool.le_of_fills hf
  have hover := hf.length_le (Nat.le_add_left 1 _)
  have hlt := (declaredCount source).toNat_lt
  rw [← UInt16.toNat_inj, ConstantPool.count, UInt16.toNat_ofNat', hholds.size_slots]
  omega

lemma toBytes_eq_iff_count (hc : parse source = .ok c) : c.toBytes = source ↔ c.pool.count = declaredCount source := by
  obtain ⟨before, after, -, -, -, -, hsource, hwritten⟩ := exists_parts_of_parse hc
  conv_lhs => rw [hwritten, hsource]
  rw [List.append_cancel_left_eq, List.append_cancel_right_eq, Bytes.big16_inj]

lemma toBytes_eq_of_parse (hc : parse source = .ok c) (hn : c.pool.slots.size ≤ (declaredCount source).toNat) :
    c.toBytes = source := by
  obtain ⟨-, -, cs, -, hholds, hf, -, -⟩ := exists_parts_of_parse hc
  have hle := ConstantPool.le_of_fills hf
  rw [← hholds.size_slots] at hle
  apply (toBytes_eq_iff_count hc).2
  apply (count_eq_iff hc).2
  exact Nat.le_antisymm hn hle

/-- A class file is written as it was read up to the number of its slots, and all of it just if it declares a slot and no
constant of two slots begins in the last one declared. -/
theorem toBytes_eq_source_iff (hc : parse source = .ok c) :
    c.toBytes = source.take 8 ++ (Bytes.big16 c.pool.count ++ source.drop 10) ∧
    (c.toBytes = source ↔ 1 ≤ (declaredCount source).toNat ∧
      ∀ d, c.pool.slots[(declaredCount source).toNat - 1]? = some (some d) → d.takesTwoSlots = false) := by
  obtain ⟨before, after, cs, hl, hholds, hf, hsource, hwritten⟩ := exists_parts_of_parse hc
  constructor
  · have hfront : source.take 8 = before := by
      rw [hsource, ← hl, List.take_left]
    have hback : source.drop 10 = after := by
      have hten : 10 = (before ++ Bytes.big16 (declaredCount source)).length := by
        rw [List.length_append, hl, Bytes.length_big16]
      rw [hsource, ← List.append_assoc, hten, List.drop_left]
    rw [hfront, hback, hwritten]
  · rw [toBytes_eq_iff_count hc, count_eq_iff hc, hholds.size_slots_eq_iff hf]

def memberless (count : UInt16) (cs : List Constant) : Bytes :=
  Bytes.big32 magic ++ [0, 0, 0, 52] ++ Bytes.big16 count ++ cs.flatMap Constant.write ++ [0, 33, 0, 0, 0, 0, 0, 0, 0, 0, 0, 0, 0, 0]

theorem toBytes_eq_source_of_long :
    ∃ c, parse (memberless 4 [.utf8 [65], .long 7]) = .ok c ∧ c.toBytes = memberless 4 [.utf8 [65], .long 7] := by
  let pool : ConstantPool := ⟨#[none, some (.utf8 [65]), some (.long 7), none]⟩
  let c : ClassFile := ⟨0, 52, pool, ⟨33, 0, 0, [], [], [], []⟩, [0, 33, 0, 0, 0, 0, 0, 0, 0, 0, 0, 0, 0, 0]⟩
  have hc : parse (memberless 4 [.utf8 [65], .long 7]) = .ok c := by decide +kernel
  have hdeclared : declaredCount (memberless 4 [.utf8 [65], .long 7]) = 4 := by decide +kernel
  refine ⟨c, hc, (toBytes_eq_source_iff hc).2.2 ⟨?_, ?_⟩⟩
  · rw [hdeclared]
    decide
  · rw [hdeclared]
    intro d hd
    cases hd

/-- A constant of two slots in the last slot declared: one slot more is written than was read. -/
theorem toBytes_ne_source_of_overrun :
    ∃ c, parse (memberless 2 [.long 7]) = .ok c ∧ c.toBytes = memberless 3 [.long 7] ∧ c.toBytes ≠ memberless 2 [.long 7] := by
  let c : ClassFile := ⟨0, 52, ⟨#[none, some (.long 7), none]⟩, ⟨33, 0, 0, [], [], [], []⟩, [0, 33, 0, 0, 0, 0, 0, 0, 0, 0, 0, 0, 0, 0]⟩
  have hc : parse (memberless 2 [.long 7]) = .ok c := by decide +kernel
  exact ⟨c, hc, by decide +kernel, by decide +kernel⟩

end ClassFile

end NamespaceMigration
