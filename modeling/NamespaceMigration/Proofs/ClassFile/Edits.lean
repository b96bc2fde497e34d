import NamespaceMigration.Proofs.ClassFile.Writing
import NamespaceMigration.Proofs.Steps

/-! Edits of the texts of a pool, one after the other. -/

namespace NamespaceMigration

open Steps (answer after)

inductive PoolEdit where
  | text (index : UInt16) (value : String)
  | bytes (index : UInt16) (value : Bytes)
  deriving DecidableEq, Repr

namespace PoolEdit

def index : PoolEdit → UInt16
  | text index _ => index
  | bytes index _ => index

def raw : PoolEdit → Bytes
  | text _ value => ModifiedUtf8.encode value
  | bytes _ value => value

def replaced (pool : ConstantPool) : PoolEdit → Except ClassFault ConstantPool
  | text index value => pool.replaceText index value
  | bytes index value => pool.replaceBytes index value

def perform (e : PoolEdit) : EStateM ClassFault ConstantPool Unit := do
  match e.replaced (← get) with
  | .ok pool => set pool
  | .error fault => throw fault

variable {pool : ConstantPool} {e : PoolEdit}

def Applies (e : PoolEdit) (pool : ConstantPool) : Prop :=
  e.raw.length ≤ 65535 ∧ ∃ raw, pool.slots[e.index.toNat]? = some (some (.utf8 raw))

lemma replaced_eq (e : PoolEdit) (pool : ConstantPool) : e.replaced pool = pool.replaceBytes e.index e.raw := by
  cases e <;> rfl

lemma replaced_of_applies (h : e.Applies pool) :
    e.replaced pool = .ok ⟨pool.slots.setIfInBounds e.index.toNat (some (.utf8 e.raw))⟩ := by
  obtain ⟨hl, raw, hraw⟩ := h
  rw [replaced_eq, ConstantPool.replaceBytes, if_neg (Nat.not_lt.2 hl), hraw]

lemma replaced_of_not_applies (h : ¬ e.Applies pool) : ∃ fault, e.replaced pool = .error fault := by
  rw [replaced_eq, ConstantPool.replaceBytes]
  by_cases hl : 65535 < e.raw.length
  · exact ⟨_, if_pos hl⟩
  · rw [if_neg hl]
    split
    next raw hraw => exact absurd ⟨Nat.not_lt.1 hl, raw, hraw⟩ h
    next => exact ⟨_, rfl⟩
    next => exact ⟨_, rfl⟩

lemma perform_cases (e : PoolEdit) (pool : ConstantPool) :
    e.Applies pool ∧ e.perform.run pool = .ok () ⟨pool.slots.setIfInBounds e.index.toNat (some (.utf8 e.raw))⟩ ∨
      ¬ e.Applies pool ∧ ∃ fault, e.perform.run pool = .error fault pool := by
  by_cases h : e.Applies pool
  · left
    have hr := replaced_of_applies h
    exact ⟨h, by simp [perform, EStateM.run_bind, hr]⟩
  · right
    obtain ⟨fault, hr⟩ := replaced_of_not_applies h
    exact ⟨h, fault, by simp [perform, EStateM.run_bind, hr]⟩

end PoolEdit

namespace ConstantPool

variable {pool : ConstantPool} {cs : List Constant}

def edited (pool : ConstantPool) (edits : List PoolEdit) : ConstantPool :=
  edits.foldl (fun pool e => after (e.perform.run pool)) pool

lemma edited_append (pool : ConstantPool) (edits : List PoolEdit) (e : PoolEdit) :
    pool.edited (edits ++ [e]) = after (e.perform.run (pool.edited edits)) := by
  rw [edited, List.foldl_append]
  rfl

lemma Holds.setText (h : pool.Holds cs) {i : ℕ} {old raw : Bytes} (hi : pool.slots[i]? = some (some (.utf8 old)))
    (hl : raw.length ≤ 65535) : ∃ cs', Holds ⟨pool.slots.setIfInBounds i (some (.utf8 raw))⟩ cs' := by
  obtain ⟨as, bs, rfl, rfl⟩ := h.getElem?_eq_some_iff.1 hi
  refine ⟨as ++ .utf8 raw :: bs, ?_, ?_⟩
  · intro d hd
    rcases List.mem_append.1 hd with hd | hd
    · exact h.1 d (List.mem_append_left _ hd)
    · rcases List.mem_cons.1 hd with rfl | hd
      · exact Nat.lt_succ_of_le hl
      · exact h.1 d (List.mem_append_right _ (List.mem_cons_of_mem _ hd))
  · have hslots : ∀ text : Bytes, (as ++ .utf8 text :: bs).flatMap Constant.slots =
        as.flatMap Constant.slots ++ some (.utf8 text) :: bs.flatMap Constant.slots := fun text => by
      rw [List.flatMap_append, List.flatMap_cons]
      rfl
    apply Array.toList_inj.1
    rw [Array.toList_setIfInBounds, h.toList_slots, hslots, hslots, Nat.add_comm, List.set_cons_succ,
      List.set_append_right _ _ (Nat.le_refl _), Nat.sub_self]
    simp

lemma Holds.perform (h : pool.Holds cs) (e : PoolEdit) :
    ∃ cs', (after (e.perform.run pool)).Holds cs' ∧ (after (e.perform.run pool)).slots.size = pool.slots.size := by
  rcases e.perform_cases pool with ⟨⟨hl, raw, hraw⟩, hrun⟩ | ⟨-, fault, hrun⟩
  · rw [hrun]
    obtain ⟨cs', h'⟩ := h.setText hraw hl
    exact ⟨cs', h', Array.size_setIfInBounds⟩
  · rw [hrun]
    exact ⟨cs, h, rfl⟩

lemma Holds.edited (h : pool.Holds cs) (edits : List PoolEdit) :
    ∃ cs', (pool.edited edits).Holds cs' ∧ (pool.edited edits).slots.size = pool.slots.size := by
  induction edits generalizing pool cs with
  | nil => exact ⟨cs, h, rfl⟩
  | cons e edits ih =>
    obtain ⟨cs', h', hsize⟩ := h.perform e
    obtain ⟨cs'', h'', hsize'⟩ := ih h'
    exact ⟨cs'', h'', hsize'.trans hsize⟩

end ConstantPool

namespace ClassFile

variable {c : ClassFile} {source : Bytes}

/-- After any calls, the next one succeeds just if its text fits and its slot has one; if it fails the pool stays as it
is, if it succeeds its slot alone is another; and the class as it then is, is what is read from the octets it is written as. -/
theorem parse_toBytes_edited (hc : parse source = .ok c) (hn : c.pool.slots.size ≤ 65535) (edits : List PoolEdit) :
    (∀ e : PoolEdit,
      (answer (e.perform.run (c.pool.edited edits)) = .ok () ↔ e.raw.length ≤ 65535 ∧
        ∃ raw, (c.pool.edited edits).slots[e.index.toNat]? = some (some (.utf8 raw))) ∧
      (∀ fault, answer (e.perform.run (c.pool.edited edits)) = .error fault →
        c.pool.edited (edits ++ [e]) = c.pool.edited edits) ∧
      (answer (e.perform.run (c.pool.edited edits)) = .ok () →
        (c.pool.edited (edits ++ [e])).slots[e.index.toNat]? = some (some (.utf8 e.raw)) ∧
        ∀ i, i ≠ e.index.toNat → (c.pool.edited (edits ++ [e])).slots[i]? = (c.pool.edited edits).slots[i]?)) ∧
    parse { c with pool := c.pool.edited edits }.toBytes = .ok { c with pool := c.pool.edited edits } := by
  constructor
  · intro e
    rw [ConstantPool.edited_append]
    generalize c.pool.edited edits = pool
    rcases e.perform_cases pool with ⟨h, hrun⟩ | ⟨h, fault, hrun⟩
    · obtain ⟨raw, hraw⟩ := h.2
      obtain ⟨hlt, -⟩ := Array.getElem?_eq_some_iff.1 hraw
      rw [hrun]
      refine ⟨⟨fun _ => h, fun _ => rfl⟩, nofun, fun _ => ⟨?_, fun i hi => ?_⟩⟩
      · exact Array.getElem?_setIfInBounds_self_of_lt hlt
      · exact Array.getElem?_setIfInBounds_ne (Ne.symm hi)
    · rw [hrun]
      exact ⟨⟨nofun, fun ha => absurd ha h⟩, fun _ _ => rfl, nofun⟩
  · obtain ⟨cs, hholds⟩ := exists_holds_of_parse hc
    obtain ⟨cs', hholds', hsize⟩ := hholds.edited edits
    rw [← hsize] at hn
    exact parse_toBytes hc hholds' hn

theorem parse_toBytes_edited_of_long :
    ∃ c d, parse (memberless 4 [.utf8 [65], .long 7]) = .ok c ∧ c.pool.slots.size ≤ 65535 ∧
      c.pool.edited [.bytes 2 [66], .text 1 "B", .bytes 9 [67]] = d.pool ∧ d.toBytes = memberless 4 [.utf8 [66], .long 7] ∧
      parse d.toBytes = .ok d := by
  let classOf (raw : Bytes) : ClassFile :=
    ⟨0, 52, ⟨#[none, some (.utf8 raw), some (.long 7), none]⟩, ⟨33, 0, 0, [], [], [], []⟩, [0, 33, 0, 0, 0, 0, 0, 0, 0, 0, 0, 0, 0, 0]⟩
  have hc : parse (memberless 4 [.utf8 [65], .long 7]) = .ok (classOf [65]) := by decide +kernel
  have hn : (classOf [65]).pool.slots.size ≤ 65535 := by decide
  have hedited : (classOf [65]).pool.edited [.bytes 2 [66], .text 1 "B", .bytes 9 [67]] = (classOf [66]).pool := by
    decide +kernel
  have hread := (parse_toBytes_edited hc hn [.bytes 2 [66], .text 1 "B", .bytes 9 [67]]).2
  rw [hedited] at hread
  exact ⟨classOf [65], classOf [66], hc, hn, hedited, by decide +kernel, hread⟩

end ClassFile

end NamespaceMigration
