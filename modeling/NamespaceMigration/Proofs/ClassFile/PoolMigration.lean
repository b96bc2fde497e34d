import NamespaceMigration.Conversion.ClassFile
import NamespaceMigration.Proofs.ClassFile.Codec
import NamespaceMigration.Proofs.Except

/-! Migration of a constant pool slot by slot. -/

namespace NamespaceMigration

namespace ConstantPool

variable {pool : ConstantPool}

lemma textSlots_nodup (hn : pool.slots.size ≤ 65536) : (pool.textSlots.map UInt16.toNat).Nodup := by
  have hz : (pool.slots.toList.zipIdx).Pairwise (fun a b => a.2 < b.2 ∧ b.2 < pool.slots.size) := by
    rw [List.pairwise_iff_getElem]
    intro i j hi hj hij
    simp only [List.length_zipIdx, Array.length_toList] at hj
    simpa using ⟨hij, hj⟩
  have hc : pool.constants.Pairwise (fun a b => a.1.toNat ≠ b.1.toNat) := by
    refine List.Pairwise.filterMap _ ?_ hz
    rintro ⟨a, i⟩ ⟨b, j⟩ ⟨hij, hj⟩ x hx y hy
    obtain ⟨c, -, rfl⟩ := Option.map_eq_some_iff.1 hx
    obtain ⟨d, -, rfl⟩ := Option.map_eq_some_iff.1 hy
    simp only [UInt16.toNat_ofNat', Nat.reducePow]
    omega
  rw [List.Nodup, List.pairwise_map]
  refine List.Pairwise.filterMap _ ?_ hc
  rintro ⟨i, c⟩ ⟨j, d⟩ hij x hx y hy
  cases c <;> cases d <;> simp_all

lemma mem_textSlots (hn : pool.slots.size ≤ 65536) {i : UInt16} :
    i ∈ pool.textSlots ↔ ∃ raw, pool.slots[i.toNat]? = some (some (.utf8 raw)) := by
  simp only [textSlots, constants, List.mem_filterMap]
  constructor
  · rintro ⟨⟨j, c⟩, ⟨⟨slot, n⟩, hm, hs⟩, hj⟩
    obtain ⟨d, rfl, he⟩ := Option.map_eq_some_iff.1 hs
    obtain ⟨hlt, hg⟩ := List.mem_zipIdx' hm
    simp only [Array.length_toList] at hlt
    obtain ⟨rfl, rfl⟩ := Prod.mk.injEq .. ▸ he
    have hi : (UInt16.ofNat n).toNat = n := by simpa using Nat.mod_eq_of_lt (by omega : n < 65536)
    cases d with
    | utf8 raw =>
      obtain rfl : UInt16.ofNat n = i := by simpa using hj
      refine ⟨raw, ?_⟩
      rw [hi, Array.getElem?_eq_getElem hlt]
      simpa using hg.symm
    | _ => simp at hj
  · rintro ⟨raw, h⟩
    refine ⟨(i, .utf8 raw), ⟨(some (.utf8 raw), i.toNat), ?_, by simp⟩, rfl⟩
    simpa [List.mem_zipIdx_iff_getElem?] using h

lemma mem_slots_iff (hn : pool.slots.size ≤ 65536) {raw : Bytes} :
    some (.utf8 raw) ∈ pool.slots ↔ ∃ i ∈ pool.textSlots, pool.slots[i.toNat]? = some (some (.utf8 raw)) := by
  rw [Array.mem_iff_getElem?]
  constructor
  · rintro ⟨j, hj⟩
    obtain ⟨hlt, -⟩ := Array.getElem?_eq_some_iff.1 hj
    have hi : (UInt16.ofNat j).toNat = j := by simpa using Nat.mod_eq_of_lt (by omega : j < 65536)
    exact ⟨UInt16.ofNat j, (mem_textSlots hn).2 ⟨raw, by rw [hi, hj]⟩, by rw [hi, hj]⟩
  · rintro ⟨i, -, hi⟩
    exact ⟨_, hi⟩

end ConstantPool

namespace ClassFile

variable (p : Profile) (resolver : Option Resolver) (protection : ProtectedClasses)

def migratedConstant : Constant → Constant
  | .utf8 raw => .utf8 ((migrateConstant p resolver protection raw).1.getD raw)
  | c => c

def Outgrows (raw : Bytes) : Prop :=
  ∃ bytes, (migrateConstant p resolver protection raw).1 = some bytes ∧ 65535 < bytes.length

def slotMigration (pool : ConstantPool) (i : UInt16) : Option Bytes × List String :=
  match pool.utf8Bytes i with
  | .ok raw => migrateConstant p resolver protection raw
  | .error _ => (none, [])

def migrateAt (slots : Array (Option Constant)) (i : UInt16) : Array (Option Constant) :=
  slots.modify i.toNat (Option.map (migratedConstant p resolver protection))

variable {p resolver protection} {state : PoolMigration} {i : UInt16} {raw : Bytes}

lemma utf8Bytes_eq {pool : ConstantPool} (h : pool.slots[i.toNat]? = some (some (.utf8 raw))) :
    pool.utf8Bytes i = .ok raw := by
  simp [ConstantPool.utf8Bytes, ConstantPool.get, h, bind, Except.bind]

lemma slotMigration_congr {a b : ConstantPool} (h : a.slots[i.toNat]? = b.slots[i.toNat]?) :
    slotMigration p resolver protection a i = slotMigration p resolver protection b i := by
  simp only [slotMigration, ConstantPool.utf8Bytes, ConstantPool.get, h]

lemma getElem?_migrateAt (slots : Array (Option Constant)) (j : ℕ) :
    (migrateAt p resolver protection slots i)[j]? =
      if i.toNat = j then slots[j]?.map (Option.map (migratedConstant p resolver protection)) else slots[j]? := by
  rw [migrateAt, Array.getElem?_modify]

lemma migrateAt_eq_setIfInBounds {slots : Array (Option Constant)} {c : Constant}
    (h : slots[i.toNat]? = some (some c)) :
    migrateAt p resolver protection slots i =
      slots.setIfInBounds i.toNat (some (migratedConstant p resolver protection c)) := by
  obtain ⟨hlt, hg⟩ := Array.getElem?_eq_some_iff.1 h
  apply Array.ext_getElem?
  intro j
  rw [getElem?_migrateAt, Array.getElem?_setIfInBounds]
  split
  next hij =>
    subst hij
    simp [hlt, hg]
  next => rfl

lemma migrateSlot_of_not_outgrows (h : state.pool.slots[i.toNat]? = some (some (.utf8 raw)))
    (ho : ¬ Outgrows p resolver protection raw) :
    migrateSlot p resolver protection state i =
      .ok ⟨⟨migrateAt p resolver protection state.pool.slots i⟩,
        state.changed || (slotMigration p resolver protection state.pool i).1.isSome,
        state.asked ++ (slotMigration p resolver protection state.pool i).2⟩ := by
  obtain ⟨hlt, hg⟩ := Array.getElem?_eq_some_iff.1 h
  simp only [migrateSlot, slotMigration, utf8Bytes_eq h, bind, Except.bind]
  cases hm : (migrateConstant p resolver protection raw).1 with
  | none =>
    have hs : migrateAt p resolver protection state.pool.slots i = state.pool.slots := by
      rw [migrateAt_eq_setIfInBounds h, migratedConstant, hm, Option.getD_none, ← hg,
        Array.setIfInBounds_def, dif_pos hlt, Array.set_getElem_self]
    simp [hs, pure, Except.pure]
  | some bytes =>
    have hl : ¬ 65535 < bytes.length := fun hl => ho ⟨bytes, hm, hl⟩
    have hs : migrateAt p resolver protection state.pool.slots i =
        state.pool.slots.setIfInBounds i.toNat (some (.utf8 bytes)) := by
      rw [migrateAt_eq_setIfInBounds h, migratedConstant, hm, Option.getD_some]
    simp [ConstantPool.replaceBytes, hl, h, hs, pure, Except.pure]

lemma migrateSlot_of_outgrows (h : state.pool.slots[i.toNat]? = some (some (.utf8 raw)))
    (ho : Outgrows p resolver protection raw) :
    ∃ n, migrateSlot p resolver protection state i = .error (.utf8TooLong n) := by
  obtain ⟨bytes, hm, hl⟩ := ho
  refine ⟨bytes.length, ?_⟩
  simp [migrateSlot, utf8Bytes_eq h, hm, ConstantPool.replaceBytes, hl, bind, Except.bind]

lemma foldlM_migrateSlot {is : List UInt16} (hd : (is.map UInt16.toNat).Nodup)
    (ht : ∀ i ∈ is, ∃ raw, state.pool.slots[i.toNat]? = some (some (.utf8 raw)) ∧
      ¬ Outgrows p resolver protection raw) :
    is.foldlM (migrateSlot p resolver protection) state =
      .ok ⟨⟨is.foldl (migrateAt p resolver protection) state.pool.slots⟩,
        state.changed || (is.map (slotMigration p resolver protection state.pool)).any (·.1.isSome),
        state.asked ++ (is.map (slotMigration p resolver protection state.pool)).flatMap (·.2)⟩ := by
  induction is generalizing state with
  | nil => simp [pure, Except.pure]
  | cons i is ih =>
    obtain ⟨raw, h, ho⟩ := ht i (by simp)
    obtain ⟨hi, hd⟩ := List.nodup_cons.1 (List.map_cons .. ▸ hd)
    have hne : ∀ j ∈ is, i.toNat ≠ j.toNat := fun j hj he => hi (List.mem_map.2 ⟨j, hj, he.symm⟩)
    have hkept : ∀ j ∈ is, (migrateAt p resolver protection state.pool.slots i)[j.toNat]? =
        state.pool.slots[j.toNat]? := fun j hj => by rw [getElem?_migrateAt, if_neg (hne j hj)]
    have hmap : is.map (slotMigration p resolver protection ⟨migrateAt p resolver protection state.pool.slots i⟩) =
        is.map (slotMigration p resolver protection state.pool) :=
      List.map_congr_left fun j hj => slotMigration_congr (hkept j hj)
    rw [List.foldlM_cons, migrateSlot_of_not_outgrows h ho]
    refine (ih hd fun j hj => ?_).trans ?_
    · rw [hkept j hj]
      exact ht j (by simp [hj])
    · simp only [hmap, List.foldl_cons, List.map_cons, List.any_cons, List.flatMap_cons, Bool.or_assoc,
        List.append_assoc]

lemma foldlM_migrateSlot_of_outgrows {is : List UInt16} (hd : (is.map UInt16.toNat).Nodup)
    (ht : ∀ i ∈ is, ∃ raw, state.pool.slots[i.toNat]? = some (some (.utf8 raw)))
    (ho : ∃ i ∈ is, ∃ raw, state.pool.slots[i.toNat]? = some (some (.utf8 raw)) ∧
      Outgrows p resolver protection raw) :
    ∃ n, is.foldlM (migrateSlot p resolver protection) state = .error (.utf8TooLong n) := by
  induction is generalizing state with
  | nil => simp at ho
  | cons i is ih =>
    obtain ⟨raw, h⟩ := ht i (by simp)
    obtain ⟨hi, hd⟩ := List.nodup_cons.1 (List.map_cons .. ▸ hd)
    have hne : ∀ j ∈ is, i.toNat ≠ j.toNat := fun j hj he => hi (List.mem_map.2 ⟨j, hj, he.symm⟩)
    have hkept : ∀ j ∈ is, (migrateAt p resolver protection state.pool.slots i)[j.toNat]? =
        state.pool.slots[j.toNat]? := fun j hj => by rw [getElem?_migrateAt, if_neg (hne j hj)]
    rw [List.foldlM_cons]
    by_cases hr : Outgrows p resolver protection raw
    · obtain ⟨n, hn⟩ := migrateSlot_of_outgrows h hr
      exact ⟨n, by rw [hn]; rfl⟩
    · rw [migrateSlot_of_not_outgrows h hr]
      refine ih hd (fun j hj => ?_) ?_
      · rw [hkept j hj]
        exact ht j (by simp [hj])
      · obtain ⟨j, hj, other, hg, hout⟩ := ho
        rcases List.mem_cons.1 hj with rfl | hj
        · obtain rfl : raw = other := by simpa [h] using hg
          exact absurd hout hr
        · exact ⟨j, hj, other, by rw [hkept j hj, hg], hout⟩

lemma getElem?_foldl_migrateAt {is : List UInt16} (hd : (is.map UInt16.toNat).Nodup)
    (slots : Array (Option Constant)) (j : ℕ) :
    (is.foldl (migrateAt p resolver protection) slots)[j]? =
      if j ∈ is.map UInt16.toNat then slots[j]?.map (Option.map (migratedConstant p resolver protection))
      else slots[j]? := by
  induction is generalizing slots with
  | nil => simp
  | cons i is ih =>
    obtain ⟨hi, hd⟩ := List.nodup_cons.1 (List.map_cons .. ▸ hd)
    rw [List.foldl_cons, ih hd, getElem?_migrateAt, List.map_cons]
    by_cases hij : i.toNat = j
    · simp [← hij, hi]
    · simp [hij, Ne.symm hij]

variable (p resolver protection) in
def migratedPool (pool : ConstantPool) : ConstantPool :=
  ⟨pool.slots.map (Option.map (migratedConstant p resolver protection))⟩

lemma foldl_migrateAt_textSlots {pool : ConstantPool} (hn : pool.slots.size ≤ 65536) :
    pool.textSlots.foldl (migrateAt p resolver protection) pool.slots =
      (migratedPool p resolver protection pool).slots := by
  apply Array.ext_getElem?
  intro j
  rw [getElem?_foldl_migrateAt (ConstantPool.textSlots_nodup hn), migratedPool, Array.getElem?_map]
  split
  next => rfl
  next hj =>
    -- a slot that is no text slot holds nothing that migrates
    match h : pool.slots[j]? with
    | none => rfl
    | some none => rfl
    | some (some c) =>
      cases c with
      | utf8 raw =>
        obtain ⟨hlt, -⟩ := Array.getElem?_eq_some_iff.1 h
        have hi : (UInt16.ofNat j).toNat = j := by simpa using Nat.mod_eq_of_lt (by omega : j < 65536)
        refine absurd (List.mem_map.2 ⟨UInt16.ofNat j, ?_, hi⟩) hj
        exact (ConstantPool.mem_textSlots hn).2 ⟨raw, by rw [hi, h]⟩
      | _ => rfl

section Pool

variable {c : ClassFile}

lemma migratePool_eq_ok (hn : c.pool.slots.size ≤ 65536)
    (ho : ∀ raw, some (.utf8 raw) ∈ c.pool.slots → ¬ Outgrows p resolver (.ofClass c) raw) :
    ∃ result, migratePool p resolver c = .ok result ∧
      result.pool = migratedPool p resolver (.ofClass c) c.pool ∧
      (result.changed = true ↔ ∃ raw, some (.utf8 raw) ∈ c.pool.slots ∧
        (migrateConstant p resolver (.ofClass c) raw).1.isSome) ∧
      (resolver = none → result.asked = []) := by
  have ht : ∀ i ∈ c.pool.textSlots, ∃ raw, c.pool.slots[i.toNat]? = some (some (.utf8 raw)) ∧
      ¬ Outgrows p resolver (.ofClass c) raw := by
    intro i hi
    obtain ⟨raw, h⟩ := (ConstantPool.mem_textSlots hn).1 hi
    exact ⟨raw, h, ho raw ((ConstantPool.mem_slots_iff hn).2 ⟨i, hi, h⟩)⟩
  refine ⟨_, foldlM_migrateSlot (ConstantPool.textSlots_nodup hn) ht, ?_, ?_, ?_⟩
  · exact congrArg ConstantPool.mk (foldl_migrateAt_textSlots hn)
  · simp only [Bool.false_or, List.any_eq_true, List.mem_map, ConstantPool.mem_slots_iff hn]
    constructor
    · rintro ⟨_, ⟨i, hi, rfl⟩, hs⟩
      obtain ⟨raw, h⟩ := (ConstantPool.mem_textSlots hn).1 hi
      exact ⟨raw, ⟨i, hi, h⟩, by simpa only [slotMigration, utf8Bytes_eq h] using hs⟩
    · rintro ⟨raw, ⟨i, hi, h⟩, hs⟩
      exact ⟨_, ⟨i, hi, rfl⟩, by simpa only [slotMigration, utf8Bytes_eq h] using hs⟩
  · rintro rfl
    simp only [List.nil_append, List.flatMap_eq_nil_iff, List.mem_map]
    rintro _ ⟨i, -, rfl⟩
    unfold slotMigration migrateConstant
    split
    · dsimp only
      split <;> rfl
    · rfl

lemma migratePool_eq_error (hn : c.pool.slots.size ≤ 65536)
    (ho : ∃ raw, some (.utf8 raw) ∈ c.pool.slots ∧ Outgrows p resolver (.ofClass c) raw) :
    ∃ n, migratePool p resolver c = .error (.utf8TooLong n) := by
  obtain ⟨raw, hm, hr⟩ := ho
  obtain ⟨i, hi, h⟩ := (ConstantPool.mem_slots_iff hn).1 hm
  exact foldlM_migrateSlot_of_outgrows (ConstantPool.textSlots_nodup hn)
    (fun j hj => (ConstantPool.mem_textSlots hn).1 hj) ⟨i, hi, raw, h, hr⟩

lemma convertBytes_eq {source : Bytes} (hc : parse source = .ok c) (hp : p.isTrivial = false) :
    convertBytes p resolver source = (migratePool p resolver c).map fun result =>
      if result.changed then ⟨some { c with pool := result.pool }.toBytes, true, result.asked⟩
      else { Conversion.kept with asked := result.asked } := by
  simp only [convertBytes, hc, hp, bind, Except.bind, pure, Except.pure, Bool.false_eq_true, if_false]
  cases migratePool p resolver c with
  | error e => rfl
  | ok result =>
    simp only [Except.map]
    split <;> rfl

lemma convert_eq_ok_iff_of_isTrivial (hp : p.isTrivial = true) {path : String} {source : Bytes} {conversion : Conversion} :
    convert p resolver path source = .ok conversion ↔ (∃ c, parse source = .ok c) ∧ conversion = .kept := by
  rw [convert, mapError_eq_ok_iff, convertBytes, bind_eq_ok_iff, ← exists_and_right]
  refine exists_congr fun classFile => and_congr_right fun _ => ?_
  rw [if_pos hp]
  exact ⟨fun h => (Except.ok.inj h).symm, fun h => h ▸ rfl⟩

end Pool

section Holds

variable {pool : ConstantPool} {cs : List Constant}

lemma migratedConstant_slots (c : Constant) :
    (migratedConstant p resolver protection c).slots = c.slots.map (Option.map (migratedConstant p resolver protection)) := by
  cases c <;> rfl

lemma migratedPool_holds (h : pool.Holds cs)
    (ho : ∀ raw, .utf8 raw ∈ cs → ¬ Outgrows p resolver protection raw) :
    (migratedPool p resolver protection pool).Holds (cs.map (migratedConstant p resolver protection)) := by
  obtain ⟨hc, hs⟩ := h
  constructor
  · intro d hd
    obtain ⟨c, hm, rfl⟩ := List.mem_map.1 hd
    cases c with
    | utf8 raw =>
      have hr := ho raw hm
      cases hb : (migrateConstant p resolver protection raw).1 with
      | none => simpa [migratedConstant, hb] using hc _ hm
      | some bytes =>
        have hl : ¬ 65535 < bytes.length := fun hl => hr ⟨bytes, hb, hl⟩
        simpa [migratedConstant, hb, Constant.Fits] using (by omega : bytes.length < 65536)
    | _ => trivial
  · rw [migratedPool, hs, Array.map_append, List.flatMap_map]
    simp [migratedConstant_slots, List.map_flatMap]

end Holds

end ClassFile

end NamespaceMigration
