import Mathlib.Data.Int.Notation
import NamespaceMigration.Proofs.ClassFile.Codec
import NamespaceMigration.Proofs.Except

namespace NamespaceMigration

namespace Bytes

variable {s a b c : Bytes} {n w : ℕ}

lemma slice_append (b c : Bytes) : slice (a ++ (b ++ c)) a.length b.length = b := by
  rw [slice, List.drop_left, List.take_left]

lemma exists_append_of_le (h : n ≤ s.length) : ∃ a b, s = a ++ b ∧ a.length = n :=
  ⟨s.take n, s.drop n, (List.take_append_drop n s).symm, List.length_take_of_le h⟩

lemma exists_eq_big32 (h : s.length = 4) : ∃ n, s = big32 n := by
  obtain ⟨a, b, c, d, rfl⟩ := List.length_eq_four.1 h
  exact ⟨joinBig32 a b c d, (big32_joinBig32 a b c d).symm⟩

lemma exists_big32_append (h : 4 ≤ s.length) : ∃ n t, s = big32 n ++ t := by
  obtain ⟨a, t, rfl, ha⟩ := exists_append_of_le h
  obtain ⟨n, rfl⟩ := exists_eq_big32 ha
  exact ⟨n, t, rfl⟩

lemma exists_eq_flatMap {α : Type} {f : α → Bytes} (hf : ∀ s : Bytes, s.length = w → ∃ a, s = f a) (h : s.length = n * w) :
    ∃ l : List α, l.length = n ∧ s = l.flatMap f := by
  induction n generalizing s with
  | zero =>
    rw [Nat.zero_mul] at h
    exact ⟨[], rfl, List.length_eq_zero_iff.1 h⟩
  | succ n ih =>
    rw [Nat.succ_mul] at h
    obtain ⟨a, t, rfl, ha⟩ := exists_append_of_le (s := s) (n := w) (by omega)
    obtain ⟨x, rfl⟩ := hf a ha
    obtain ⟨l, rfl, rfl⟩ := ih (s := t) (by rw [List.length_append] at h; omega)
    exact ⟨x :: l, rfl, rfl⟩

end Bytes

namespace Instruction

open Bytes (big32)

def bytes (i : Instruction) : Bytes := i.opcode :: i.operands

def Pads (i : Instruction) (pad : Bytes) : Prop := pad.length < 4 ∧ 4 ∣ i.offset + 1 + pad.length

def IsTable (i : Instruction) : Prop :=
  ∃ (pad : Bytes) (other low high : UInt32) (jumps : List UInt32), i.Pads pad ∧
    i.operands = pad ++ (big32 other ++ (big32 low ++ (big32 high ++ jumps.flatMap big32))) ∧
    low.toInt32.toInt ≤ high.toInt32.toInt ∧ (jumps.length : ℤ) = high.toInt32.toInt - low.toInt32.toInt + 1

def IsLookup (i : Instruction) : Prop :=
  ∃ (pad : Bytes) (other count : UInt32) (jumps : List (UInt32 × UInt32)), i.Pads pad ∧
    i.operands = pad ++ (big32 other ++ (big32 count ++ jumps.flatMap fun j => big32 j.1 ++ big32 j.2)) ∧
    (jumps.length : ℤ) = count.toInt32.toInt

def Shaped (i : Instruction) : Prop :=
  if i.opcode = tableswitch then i.IsTable
  else if i.opcode = lookupswitch then i.IsLookup
  else if i.opcode = wide then ∃ next ∈ i.operands.head?, i.operands.length = if next = iinc then 5 else 3
  else fixedLength? i.opcode = some (i.operands.length + 1)

section Shape

variable {i : Instruction} {pad rest t : Bytes} {offset n : ℕ} {opcode : UInt8} {other first second : UInt32}

lemma int32At_append (a : Bytes) (n : UInt32) (rest : Bytes) :
    int32At (a ++ (big32 n ++ rest)) a.length = .ok n.toInt32.toInt := by
  have hslice : Bytes.slice (a ++ (big32 n ++ rest)) a.length 4 = big32 n := Bytes.slice_append (big32 n) rest
  rw [int32At, hslice, big32]
  dsimp only
  rw [Bytes.joinBig32_big32]

lemma pads_iff : i.Pads pad ↔ pad.length = padding i.offset := by
  rw [Pads, padding]
  omega

lemma int32At_first (hp : i.Pads pad) (h : i.operands = pad ++ (big32 other ++ (big32 first ++ t))) (rest : Bytes) :
    int32At (i.operands ++ rest) (padding i.offset + 4) = .ok first.toInt32.toInt := by
  have hread := int32At_append (pad ++ big32 other) first (t ++ rest)
  rw [List.length_append, pads_iff.1 hp, Bytes.length_big32] at hread
  rw [h, ← hread]
  simp only [List.append_assoc]

lemma int32At_second (hp : i.Pads pad) (h : i.operands = pad ++ (big32 other ++ (big32 first ++ (big32 second ++ t))))
    (rest : Bytes) : int32At (i.operands ++ rest) (padding i.offset + 8) = .ok second.toInt32.toInt := by
  have hread := int32At_append (pad ++ big32 other ++ big32 first) second (t ++ rest)
  rw [List.length_append, List.length_append, pads_iff.1 hp, Bytes.length_big32, Bytes.length_big32, Nat.add_assoc] at hread
  rw [h, ← hread]
  simp only [List.append_assoc]

lemma exists_switch (h : padding i.offset + 8 ≤ i.operands.length) :
    ∃ pad other first t, i.Pads pad ∧ i.operands = pad ++ (big32 other ++ (big32 first ++ t)) ∧
      i.operands.length = padding i.offset + 8 + t.length := by
  obtain ⟨pad, s, hs, hpad⟩ := Bytes.exists_append_of_le (s := i.operands) (n := padding i.offset) (by omega)
  rw [hs, List.length_append] at h
  obtain ⟨other, s, rfl⟩ := Bytes.exists_big32_append (s := s) (by omega)
  rw [List.length_append, Bytes.length_big32] at h
  obtain ⟨first, t, rfl⟩ := Bytes.exists_big32_append (s := s) (by omega)
  refine ⟨pad, other, first, t, pads_iff.2 hpad, hs, ?_⟩
  rw [hs]
  simp only [List.length_append, Bytes.length_big32, hpad]
  omega

lemma length_flatMap_big32 (jumps : List UInt32) : (jumps.flatMap big32).length = jumps.length * 4 := by
  simp [List.length_flatMap]

lemma operandCount_table (h : i.opcode = tableswitch) (rest : Bytes) :
    operandCount i.offset i.opcode (i.operands ++ rest) = .ok i.operands.length ↔ i.IsTable := by
  rw [operandCount.eq_def, if_pos h]
  constructor
  · intro hn
    obtain ⟨low, hlow, hn⟩ := bind_eq_ok_iff.1 hn
    obtain ⟨high, hhigh, hn⟩ := bind_eq_ok_iff.1 hn
    split at hn
    next => cases hn
    next hle =>
      have hlength := Except.ok.inj hn
      obtain ⟨pad, other, first, t, hpad, hs, hl⟩ := exists_switch (i := i) (by omega)
      obtain ⟨second, t, rfl⟩ := Bytes.exists_big32_append (s := t) (by omega)
      obtain rfl := Except.ok.inj ((int32At_first hpad hs rest).symm.trans hlow)
      obtain rfl := Except.ok.inj ((int32At_second hpad hs rest).symm.trans hhigh)
      rw [List.length_append, Bytes.length_big32] at hl
      obtain ⟨jumps, hjumps, rfl⟩ := Bytes.exists_eq_flatMap (s := t) (w := 4) (fun _ => Bytes.exists_eq_big32)
        (n := (second.toInt32.toInt - first.toInt32.toInt + 1).toNat) (by omega)
      exact ⟨pad, other, first, second, jumps, hpad, hs, by omega, by omega⟩
  · rintro ⟨pad, other, low, high, jumps, hpad, hs, hle, hcount⟩
    refine bind_eq_ok_iff.2 ⟨_, int32At_first hpad hs rest, bind_eq_ok_iff.2 ⟨_, int32At_second hpad hs rest, ?_⟩⟩
    have hl := congrArg List.length hs
    simp only [List.length_append, Bytes.length_big32, length_flatMap_big32, pads_iff.1 hpad] at hl
    rw [if_neg (by omega)]
    refine congrArg Except.ok ?_
    omega

lemma length_flatMap_pairs (jumps : List (UInt32 × UInt32)) :
    (jumps.flatMap fun j => big32 j.1 ++ big32 j.2).length = jumps.length * 8 := by
  simp [List.length_flatMap]

lemma operandCount_lookup (h : i.opcode = lookupswitch) (rest : Bytes) :
    operandCount i.offset i.opcode (i.operands ++ rest) = .ok i.operands.length ↔ i.IsLookup := by
  have hne : i.opcode ≠ tableswitch := by
    rw [h]
    decide
  rw [operandCount.eq_def, if_neg hne, if_pos h]
  constructor
  · intro hn
    obtain ⟨count, hcount, hn⟩ := bind_eq_ok_iff.1 hn
    split at hn
    next => cases hn
    next hnonneg =>
      have hlength := Except.ok.inj hn
      obtain ⟨pad, other, first, t, hpad, hs, hl⟩ := exists_switch (i := i) (by omega)
      obtain rfl := Except.ok.inj ((int32At_first hpad hs rest).symm.trans hcount)
      have hpair : ∀ s : Bytes, s.length = 8 → ∃ j : UInt32 × UInt32, s = big32 j.1 ++ big32 j.2 := by
        intro s hs
        obtain ⟨number, s, rfl⟩ := Bytes.exists_big32_append (s := s) (by omega)
        rw [List.length_append, Bytes.length_big32] at hs
        obtain ⟨jump, rfl⟩ := Bytes.exists_eq_big32 (s := s) (by omega)
        exact ⟨(number, jump), rfl⟩
      obtain ⟨jumps, hjumps, rfl⟩ := Bytes.exists_eq_flatMap (s := t) hpair (n := first.toInt32.toInt.toNat) (by omega)
      exact ⟨pad, other, first, jumps, hpad, hs, by omega⟩
  · rintro ⟨pad, other, count, jumps, hpad, hs, hcount⟩
    refine bind_eq_ok_iff.2 ⟨_, int32At_first hpad hs rest, ?_⟩
    have hl := congrArg List.length hs
    simp only [List.length_append, Bytes.length_big32, length_flatMap_pairs, pads_iff.1 hpad] at hl
    rw [if_neg (by omega)]
    refine congrArg Except.ok ?_
    omega

lemma fixedLength?_bounds (h : fixedLength? opcode = some n) : 0 < n ∧ n ≤ 5 := by
  obtain ⟨r, hr, rfl⟩ := Option.map_eq_some_iff.1 h
  have hall : ∀ r ∈ lengths, 0 < r.2.2 ∧ r.2.2 ≤ 5 := by decide
  exact hall r (List.mem_of_find?_eq_some hr)

lemma operandCount_eq_length_iff (i : Instruction) (rest : Bytes) :
    operandCount i.offset i.opcode (i.operands ++ rest) = .ok i.operands.length ↔ i.Shaped := by
  rw [Shaped]
  split
  next h => exact operandCount_table h rest
  next htable =>
    split
    next h => exact operandCount_lookup h rest
    next hlookup =>
      rw [operandCount.eq_def, if_neg htable, if_neg hlookup]
      split
      next =>
        cases i.operands with
        | nil =>
          cases rest with
          | nil => simp
          | cons next s =>
            have hpos : (if next = iinc then 5 else 3) ≠ 0 := by split <;> decide
            simpa using hpos
        | cons next s => simp [eq_comm]
      next =>
        cases hn : fixedLength? i.opcode with
        | none => simp
        | some n =>
          have hpos := (fixedLength?_bounds hn).1
          simp only [Except.ok.injEq, Option.some.injEq]
          omega

lemma operandCount_lt (h : operandCount offset opcode rest = .ok n) : n < 0x400000010 := by
  have hpad : padding offset < 4 := Nat.mod_lt _ (by decide)
  have hbound : ∀ {start v}, int32At rest start = .ok v → -0x80000000 ≤ v ∧ v < 0x80000000 := by
    intro start v hv
    rw [int32At] at hv
    split at hv
    next a b c d _ =>
      obtain rfl := Except.ok.inj hv
      have hle := Int32.le_toInt (Bytes.joinBig32 a b c d).toInt32
      have hlt := Int32.toInt_lt (Bytes.joinBig32 a b c d).toInt32
      omega
    next => cases hv
  rw [operandCount.eq_def] at h
  split at h
  next =>
    obtain ⟨low, hlow, h⟩ := bind_eq_ok_iff.1 h
    obtain ⟨high, hhigh, h⟩ := bind_eq_ok_iff.1 h
    have hl := hbound hlow
    have hh := hbound hhigh
    split at h
    next => cases h
    next =>
      have hn := Except.ok.inj h
      omega
  next =>
    split at h
    next =>
      obtain ⟨count, hcount, h⟩ := bind_eq_ok_iff.1 h
      have hc := hbound hcount
      split at h
      next => cases h
      next =>
        have hn := Except.ok.inj h
        omega
    next =>
      split at h
      next =>
        split at h
        next =>
          have hn := Except.ok.inj h
          split at hn <;> omega
        next => cases h
      next =>
        split at h
        next m hm =>
          have hm := (fixedLength?_bounds hm).2
          have hn := Except.ok.inj h
          omega
        next => cases h

end Shape

end Instruction

end NamespaceMigration
