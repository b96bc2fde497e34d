import Mathlib.Data.List.Chain
import NamespaceMigration.Proofs.ClassFile.InstructionShape

/-! Instructions as tiles of a code. -/

namespace NamespaceMigration

namespace Instruction

def decode (offset : ℕ) (opcode : UInt8) (rest : Bytes) : Except ClassFault Instruction := do
  let n ← operandCount offset opcode rest
  if rest.length < n then throw .unexpectedEnd else return ⟨offset, opcode, rest.take n⟩

/-- Instructions that have their shape and lie one after the other, from an offset on, at the start of a code, with what is
left of the code. -/
inductive Tiles : ℕ → Bytes → List Instruction → Bytes → Prop
  | nil (offset : ℕ) (rest : Bytes) : Tiles offset rest [] rest
  | cons (i : Instruction) {s rest : Bytes} {l : List Instruction} (shaped : i.Shaped)
      (tiles : Tiles (i.offset + 1 + i.operands.length) s l rest) : Tiles i.offset (i.bytes ++ s) (i :: l) rest

def Halts (offset : ℕ) (rest : Bytes) (fault : Option ClassFault) : Prop :=
  fault = none ∧ rest = [] ∨ ∃ opcode s e, fault = some e ∧ rest = opcode :: s ∧ decode offset opcode s = .error e

section Walk

variable {i : Instruction} {l acc : List Instruction} {fault : Option ClassFault} {offset : ℕ} {opcode : UInt8} {s rest : Bytes}
  {e : ClassFault}

lemma decode_eq_ok_iff :
    decode offset opcode rest = .ok i ↔ i.offset = offset ∧ i.Shaped ∧ ∃ s, opcode :: rest = i.bytes ++ s := by
  rw [decode, bind_eq_ok_iff]
  constructor
  · rintro ⟨n, hn, h⟩
    split at h
    next => cases h
    next hlength =>
      obtain rfl := Except.ok.inj h
      refine ⟨rfl, (operandCount_eq_length_iff _ (rest.drop n)).1 ?_, rest.drop n, ?_⟩
      · simpa [List.length_take_of_le (Nat.not_lt.1 hlength)] using hn
      · rw [bytes, List.cons_append, List.take_append_drop]
  · rintro ⟨rfl, hshape, s, hs⟩
    obtain rfl : opcode = i.opcode := (List.cons.inj hs).1
    obtain rfl : rest = i.operands ++ s := (List.cons.inj hs).2
    refine ⟨_, (operandCount_eq_length_iff i s).2 hshape, ?_⟩
    rw [if_neg (by simp), List.take_left]
    rfl

lemma walkFrom_of_ok (h : decode offset opcode rest = .ok i) :
    walkFrom acc offset (opcode :: rest) =
      walkFrom (i :: acc) (offset + 1 + i.operands.length) (rest.drop i.operands.length) := by
  obtain ⟨n, hn, h⟩ := bind_eq_ok_iff.1 h
  split at h
  next => cases h
  next hlength =>
    obtain rfl := Except.ok.inj h
    have htake := List.length_take_of_le (Nat.not_lt.1 hlength)
    rw [walkFrom, hn]
    simp only [htake, lt_irrefl, if_false]

lemma walkFrom_of_error (h : decode offset opcode rest = .error e) :
    walkFrom acc offset (opcode :: rest) = ⟨acc.reverse, some e⟩ := by
  rw [walkFrom]
  cases hn : operandCount offset opcode rest with
  | error e' =>
    rw [decode, hn] at h
    obtain rfl := Except.error.inj h
    rfl
  | ok n =>
    rw [decode, hn] at h
    by_cases hlength : rest.length < n
    · obtain rfl := Except.error.inj (h.symm.trans (if_pos hlength)).symm
      simp only [List.length_take]
      rw [if_pos (by omega)]
    · cases h.symm.trans (if_neg hlength)

lemma exists_tiles (acc : List Instruction) (offset : ℕ) (s : Bytes) : ∃ l rest fault, Tiles offset s l rest ∧
    walkFrom acc offset s = ⟨acc.reverse ++ l, fault⟩ ∧ Halts (offset + (l.flatMap bytes).length) rest fault := by
  -- Each instruction takes its opcode at least, so what is left gets shorter.
  induction hn : s.length using Nat.strong_induction_on generalizing acc offset s with
  | _ n ih =>
    cases s with
    | nil =>
      refine ⟨[], [], none, .nil offset [], ?_, .inl ⟨rfl, rfl⟩⟩
      rw [walkFrom, List.append_nil]
    | cons opcode s =>
      cases h : decode offset opcode s with
      | error e =>
        refine ⟨[], opcode :: s, some e, .nil offset _, ?_, .inr ⟨opcode, s, e, rfl, rfl, h⟩⟩
        rw [walkFrom_of_error h, List.append_nil]
      | ok i =>
        obtain ⟨rfl, hshape, t, ht⟩ := decode_eq_ok_iff.1 h
        obtain rfl : s = i.operands ++ t := (List.cons.inj ht).2
        have hlt : t.length < n := by
          rw [← hn, List.length_cons, List.length_append]
          omega
        obtain ⟨l, rest, fault, htiles, hwalk, hhalts⟩ := ih t.length hlt (i :: acc) (i.offset + 1 + i.operands.length) t rfl
        refine ⟨i :: l, rest, fault, ht ▸ .cons i hshape htiles, ?_, ?_⟩
        · rw [walkFrom_of_ok h, List.drop_left, hwalk, List.reverse_cons, List.append_assoc, List.singleton_append]
        · convert hhalts using 1
          simp only [List.flatMap_cons, List.length_append, bytes, List.length_cons]
          omega

lemma Tiles.eq_append (h : Tiles offset s l rest) : s = l.flatMap bytes ++ rest := by
  induction h with
  | nil => rfl
  | cons i _ _ ih => rw [List.flatMap_cons, List.append_assoc, ← ih]

lemma Tiles.length_le (h : Tiles offset s l rest) : l.length + rest.length ≤ s.length := by
  induction h with
  | nil => simp
  | cons i _ _ ih =>
    simp only [bytes, List.length_append, List.length_cons]
    omega

lemma Tiles.head_offset (h : Tiles offset s l rest) (hi : i ∈ l.head?) : i.offset = offset := by
  cases h with
  | nil => cases hi
  | cons j => exact congrArg Instruction.offset (Option.some.inj hi).symm

lemma Tiles.adjacent (h : Tiles offset s l rest) : l.IsChain fun i j => j.offset = i.offset + 1 + i.operands.length := by
  induction h with
  | nil => exact .nil
  | cons i _ htiles ih => exact ih.cons fun j hj => htiles.head_offset hj

lemma Tiles.placed (h : Tiles offset s l rest) (hi : i ∈ l) :
    i.Shaped ∧ ∃ before after, s = before ++ (i.bytes ++ after) ∧ i.offset = offset + before.length := by
  induction h with
  | nil => cases hi
  | @cons j s rest l hshape _ ih =>
    rcases List.mem_cons.1 hi with rfl | hi
    · exact ⟨hshape, [], s, rfl, rfl⟩
    · obtain ⟨hshape, before, after, rfl, hoffset⟩ := ih hi
      refine ⟨hshape, j.bytes ++ before, after, (List.append_assoc _ _ _).symm, ?_⟩
      rw [hoffset, List.length_append, bytes, List.length_cons]
      omega

lemma Tiles.slice_eq (h : Tiles 0 s l rest) (hi : i ∈ l) :
    i.offset + 1 + i.operands.length ≤ s.length ∧ i.opcode :: i.operands = Bytes.slice s i.offset (1 + i.operands.length) := by
  obtain ⟨-, before, after, rfl, hoffset⟩ := h.placed hi
  rw [Nat.zero_add] at hoffset
  constructor
  · simp only [hoffset, List.length_append, bytes, List.length_cons]
    omega
  · have hslice := Bytes.slice_append (a := before) i.bytes after
    rw [bytes, List.length_cons, Nat.add_comm] at hslice
    rw [hoffset, ← hslice, bytes]

lemma Halts.length_le (h : Halts offset rest fault) : fault.toList.length ≤ rest.length := by
  rcases h with ⟨rfl, rfl⟩ | ⟨opcode, s, e, rfl, rfl, -⟩
  · rfl
  · simp

lemma Halts.eq_none_iff (h : Halts offset rest fault) : fault = none ↔ rest = [] := by
  rcases h with ⟨rfl, rfl⟩ | ⟨opcode, s, e, rfl, rfl, -⟩
  · simp
  · simp

lemma Halts.not_shaped (h : Halts i.offset rest fault) (hs : i.bytes ++ s = rest) : ¬ i.Shaped := by
  intro hshape
  rcases h with ⟨-, rfl⟩ | ⟨opcode, t, e, -, rfl, he⟩
  · cases hs
  · rw [decode_eq_ok_iff.2 ⟨rfl, hshape, s, hs.symm⟩] at he
    cases he

end Walk

end Instruction

def Bytes.between? (s : Bytes) (start stop : ℕ) : Option Bytes :=
  if start ≤ stop ∧ stop ≤ s.length then some (s.slice start (stop - start)) else none

structure Cursor where
  offset : ℕ
  failed : Bool

namespace Cursor

open Instruction (Tiles Halts bytes)

def decode? (code : Bytes) (offset : ℕ) : Option (Except ClassFault Instruction) := do
  let opcode ← code[offset]?
  match Instruction.operandCount offset opcode (code.drop (offset + 1)) with
  | .error e => return .error e
  | .ok n =>
    if code.length < offset + 1 + n then return .error .unexpectedEnd
    else return .ok ⟨offset, opcode, ← Bytes.between? code (offset + 1) (offset + 1 + n)⟩

def next? (code : Bytes) (c : Cursor) : Option (Option (Except ClassFault Instruction) × Cursor) :=
  if c.failed || code.length ≤ c.offset then some (none, c)
  else do
    match ← decode? code c.offset with
    | .ok i => return (some (.ok i), { c with offset := c.offset + 1 + i.operands.length })
    | .error e => return (some (.error e), { c with failed := true })

inductive Gives (code : Bytes) : Cursor → List (Except ClassFault Instruction) → Prop
  | done {c c' : Cursor} (next : next? code c = some (none, c')) : Gives code c []
  | item {c c' : Cursor} {x : Except ClassFault Instruction} {items : List (Except ClassFault Instruction)}
      (next : next? code c = some (some x, c')) (gives : Gives code c' items) : Gives code c (x :: items)

variable {code before s rest : Bytes} {c c' : Cursor} {items items' : List (Except ClassFault Instruction)}
  {l : List Instruction} {fault : Option ClassFault} {offset : ℕ} {opcode : UInt8}

lemma Gives.unique (h : Gives code c items) (h' : Gives code c items') : items = items' := by
  induction h generalizing items' with
  | done next =>
    cases h' with
    | done => rfl
    | item next' => cases next.symm.trans next'
  | item next _ ih =>
    cases h' with
    | done next' => cases next.symm.trans next'
    | item next' gives' =>
      cases next.symm.trans next'
      rw [ih gives']

lemma decode?_append (before : Bytes) (opcode : UInt8) (s : Bytes) :
    decode? (before ++ opcode :: s) before.length = some (Instruction.decode before.length opcode s) := by
  have hget : (before ++ opcode :: s)[before.length]? = some opcode := by simp
  have hdrop : (before ++ opcode :: s).drop (before.length + 1) = s := by simp [List.drop_append]
  have hlength : (before ++ opcode :: s).length = before.length + 1 + s.length := by
    rw [List.length_append, List.length_cons]
    omega
  rw [decode?, hget, Option.bind_eq_bind, Option.bind_some, hdrop, hlength, Instruction.decode]
  cases Instruction.operandCount before.length opcode s with
  | error e => rfl
  | ok n =>
    change (if _ then _ else _) = some (if _ then _ else _)
    by_cases hn : s.length < n
    · rw [if_pos hn, if_pos (by omega)]
      rfl
    · have hbetween : Bytes.between? (before ++ opcode :: s) (before.length + 1) (before.length + 1 + n) = some (s.take n) := by
        rw [Bytes.between?, hlength, if_pos (by omega), Bytes.slice, hdrop, Nat.add_sub_cancel_left]
      rw [if_neg hn, if_neg (by omega), hbetween]
      rfl

lemma next?_length (code : Bytes) : next? code ⟨code.length, false⟩ = some (none, ⟨code.length, false⟩) := by
  rw [next?, if_pos (by simp)]

lemma next?_failed (code : Bytes) (offset : ℕ) : next? code ⟨offset, true⟩ = some (none, ⟨offset, true⟩) := rfl

lemma next?_append (before : Bytes) (opcode : UInt8) (s : Bytes) :
    next? (before ++ opcode :: s) ⟨before.length, false⟩ =
      match Instruction.decode before.length opcode s with
      | .ok i => some (some (.ok i), ⟨before.length + 1 + i.operands.length, false⟩)
      | .error e => some (some (.error e), ⟨before.length, true⟩) := by
  rw [next?, if_neg (by simp), decode?_append]
  cases Instruction.decode before.length opcode s <;> rfl

lemma gives_of_tiles (before : Bytes) (h : Tiles offset s l rest) (hhalts : Halts (offset + (l.flatMap bytes).length) rest fault)
    (hoffset : offset = before.length) :
    Gives (before ++ s) ⟨offset, false⟩ (l.map .ok ++ fault.toList.map .error) := by
  induction h generalizing before with
  | nil offset rest =>
    subst hoffset
    rcases hhalts with ⟨rfl, rfl⟩ | ⟨opcode, s, e, rfl, rfl, he⟩
    · rw [List.append_nil]
      exact .done (next?_length before)
    · have hnext := next?_append before opcode s
      have he : Instruction.decode before.length opcode s = .error e := he
      rw [he] at hnext
      exact .item hnext (.done (next?_failed _ _))
  | @cons i s rest l hshape _ ih =>
    have hdecode : Instruction.decode i.offset i.opcode (i.operands ++ s) = .ok i :=
      Instruction.decode_eq_ok_iff.2 ⟨rfl, hshape, s, rfl⟩
    have hnext := next?_append before i.opcode (i.operands ++ s)
    rw [← hoffset, hdecode] at hnext
    refine .item hnext ?_
    have hgives := ih (before ++ i.bytes) ?_ ?_
    · rwa [List.append_assoc] at hgives
    · convert hhalts using 1
      simp only [List.flatMap_cons, List.length_append, bytes, List.length_cons]
      omega
    · rw [List.length_append, bytes, List.length_cons, ← hoffset]
      omega

end Cursor

open Instruction (tableswitch lookupswitch operandCount)

/-- Whether a walk is an iteration over the instructions of a code, and lays them side by side on it as far as it goes. -/
structure Walk.Tiling (code : Bytes) (w : Walk) : Prop where
  iterates : ∀ items, Cursor.Gives code ⟨0, false⟩ items ↔ items = w.instructions.map .ok ++ w.fault.toList.map .error
  few : w.instructions.length + w.fault.toList.length ≤ code.length
  first : ∀ i ∈ w.instructions.head?, i.offset = 0
  adjacent : w.instructions.IsChain fun i j => j.offset = i.offset + 1 + i.operands.length
  inside : ∀ i ∈ w.instructions, i.offset + 1 + i.operands.length ≤ code.length
  octets : ∀ i ∈ w.instructions, i.opcode :: i.operands = Bytes.slice code i.offset (1 + i.operands.length)
  whole : w.fault = none → w.instructions.flatMap Instruction.bytes = code
  cut : w.fault ≠ none → ∃ rest, rest ≠ [] ∧ w.instructions.flatMap Instruction.bytes ++ rest = code ∧
    ∀ (i : Instruction) (s : Bytes), i.bytes ++ s = rest → i.offset = code.length - rest.length → ¬ i.Shaped
  shaped : ∀ i ∈ w.instructions, i.Shaped
  table : ∀ i ∈ w.instructions, i.opcode = tableswitch → i.IsTable
  lookup : ∀ i ∈ w.instructions, i.opcode = lookupswitch → i.IsLookup
  small : ∀ offset opcode n, operandCount offset opcode (code.drop (offset + 1)) = .ok n → n < 0x400000010

/-- The instructions of every code tile it up to its end or its first fault. -/
theorem Instruction.walk_tiling (code : Bytes) : (walk code).Tiling code := by
  obtain ⟨l, rest, fault, htiles, hwalk, hhalts⟩ := exists_tiles [] 0 code
  rw [List.reverse_nil, List.nil_append] at hwalk
  have hgives : Cursor.Gives code ⟨0, false⟩ (l.map .ok ++ fault.toList.map .error) :=
    Cursor.gives_of_tiles [] htiles hhalts rfl
  have hcode := htiles.eq_append
  rw [walk, hwalk]
  constructor
  case iterates => exact fun items => ⟨fun h => h.unique hgives, fun h => h ▸ hgives⟩
  case few => exact (Nat.add_le_add_left hhalts.length_le _).trans htiles.length_le
  case first => exact fun i hi => htiles.head_offset hi
  case adjacent => exact htiles.adjacent
  case inside => exact fun i hi => (htiles.slice_eq hi).1
  case octets => exact fun i hi => (htiles.slice_eq hi).2
  case whole =>
    intro hfault
    rw [hcode, hhalts.eq_none_iff.1 hfault, List.append_nil]
  case cut =>
    intro hfault
    refine ⟨rest, fun hrest => hfault (hhalts.eq_none_iff.2 hrest), hcode.symm, fun i s hs hoffset => ?_⟩
    rw [hcode, List.length_append, Nat.add_sub_cancel] at hoffset
    rw [Nat.zero_add, ← hoffset] at hhalts
    exact hhalts.not_shaped hs
  case shaped => exact fun i hi => (htiles.placed hi).1
  case table =>
    intro i hi h
    have hshape := (htiles.placed hi).1
    rwa [Shaped, if_pos h] at hshape
  case lookup =>
    intro i hi h
    have hshape := (htiles.placed hi).1
    rwa [Shaped, if_neg (h ▸ by decide), if_pos h] at hshape
  case small => exact fun offset opcode n hn => operandCount_lt hn

end NamespaceMigration
