import NamespaceMigration.Proofs.ClassFile.PoolMigration
import NamespaceMigration.Proofs.Profile.Migration

namespace NamespaceMigration.ClassFile

variable {p : Profile} {c : ClassFile} {source raw : Bytes} {protection : ProtectedClasses}

def IsOpen (c : ClassFile) (raw : Bytes) : Prop :=
  some (.utf8 raw) ∈ c.pool.slots ∧ isProtected (.ofClass c) raw = false

def patchedConstant (p : Profile) (protection : ProtectedClasses) : Constant → Constant
  | .utf8 raw => .utf8 (if isProtected protection raw then raw else (p.migrateBytes raw).value)
  | c => c

def patched (p : Profile) (c : ClassFile) : ClassFile :=
  { c with pool := ⟨c.pool.slots.map (Option.map (patchedConstant p (.ofClass c)))⟩ }

lemma value_eq_of_not_changed (h : (p.migrateBytes raw).changed = false) : (p.migrateBytes raw).value = raw :=
  Profile.migrateSymbols_of_not_changed h

lemma migrateConstant_none_eq_some_iff {bytes : Bytes} :
    (migrateConstant p none protection raw).1 = some bytes ↔
      isProtected protection raw = false ∧ (p.migrateBytes raw).changed = true ∧ (p.migrateBytes raw).value = bytes := by
  unfold migrateConstant
  cases hc : (p.migrateBytes raw).changed <;> cases hp : isProtected protection raw <;> simp [hc]

lemma migrateConstant_none_isSome_iff :
    (migrateConstant p none protection raw).1.isSome ↔
      isProtected protection raw = false ∧ (p.migrateBytes raw).changed = true := by
  simp [Option.isSome_iff_exists, migrateConstant_none_eq_some_iff]

lemma migratedConstant_none : migratedConstant p none protection = patchedConstant p protection := by
  funext c
  cases c with
  | utf8 raw =>
    simp only [migratedConstant, patchedConstant]
    cases hm : (migrateConstant p none protection raw).1 with
    | some bytes =>
      obtain ⟨hp, -, rfl⟩ := migrateConstant_none_eq_some_iff.1 hm
      simp [hp]
    | none =>
      split
      next => rfl
      next hp =>
        have hc : (p.migrateBytes raw).changed = false := by
          have hn : ¬ (migrateConstant p none protection raw).1.isSome := by simp [hm]
          rw [migrateConstant_none_isSome_iff] at hn
          simpa [hp] using hn
        simp [value_eq_of_not_changed hc]
  | _ => rfl

lemma migratedPool_none : migratedPool p none (.ofClass c) c.pool = (patched p c).pool := by
  rw [migratedPool, migratedConstant_none, patched]

lemma outgrows_none_iff (hr : raw.length ≤ 65535) :
    Outgrows p none protection raw ↔ isProtected protection raw = false ∧ 65535 < (p.migrateBytes raw).value.length := by
  simp only [Outgrows, migrateConstant_none_eq_some_iff]
  constructor
  · rintro ⟨bytes, ⟨hp, -, rfl⟩, hl⟩
    exact ⟨hp, hl⟩
  · rintro ⟨hp, hl⟩
    refine ⟨_, ⟨hp, ?_, rfl⟩, hl⟩
    by_contra hc
    rw [value_eq_of_not_changed (by simpa using hc)] at hl
    omega

section Holds

variable {pool : ConstantPool} {cs : List Constant}

lemma mem_slots_iff_of_holds (h : pool.Holds cs) {d : Constant} : some d ∈ pool.slots ↔ d ∈ cs := by
  have hs : ∀ e : Constant, some d ∈ e.slots ↔ d = e := by
    intro e
    unfold Constant.slots
    split <;> simp
  rw [h.2]
  simp [hs]

lemma length_le_of_mem_slots (h : pool.Holds cs) (hm : some (.utf8 raw) ∈ pool.slots) : raw.length ≤ 65535 := by
  have hf : raw.length < 65536 := h.1 (.utf8 raw) ((mem_slots_iff_of_holds h).1 hm)
  omega

end Holds

lemma exists_outgrows_iff (hc : parse source = .ok c) :
    (∃ raw, some (.utf8 raw) ∈ c.pool.slots ∧ Outgrows p none (.ofClass c) raw) ↔
      ∃ raw, IsOpen c raw ∧ 65535 < (p.migrateBytes raw).value.length := by
  obtain ⟨cs, hh⟩ := exists_holds_of_parse hc
  refine exists_congr fun raw => ?_
  rw [IsOpen, and_assoc]
  exact and_congr_right fun hm => outgrows_none_iff (length_le_of_mem_slots hh hm)

lemma exists_isSome_iff :
    (∃ raw, some (.utf8 raw) ∈ c.pool.slots ∧ (migrateConstant p none (.ofClass c) raw).1.isSome) ↔
      ∃ raw, IsOpen c raw ∧ (p.migrateBytes raw).changed = true := by
  simp only [migrateConstant_none_isSome_iff, IsOpen, and_assoc]

lemma convert_eq_error (hc : parse source = .ok c) (hp : p.isTrivial = false) (path : String)
    (ho : ∃ raw, IsOpen c raw ∧ 65535 < (p.migrateBytes raw).value.length) :
    ∃ n, convert p none path source = .error (.classFile path (.utf8TooLong n)) := by
  obtain ⟨n, hn⟩ := migratePool_eq_error (size_slots_le_of_parse hc) ((exists_outgrows_iff hc).2 ho)
  exact ⟨n, by rw [convert, convertBytes_eq hc hp, hn]; rfl⟩

lemma parse_patched (hc : parse source = .ok c) (hn : c.pool.slots.size ≤ 65535)
    (ho : ∀ raw, some (.utf8 raw) ∈ c.pool.slots → ¬ Outgrows p none (.ofClass c) raw) :
    parse (patched p c).toBytes = .ok (patched p c) := by
  obtain ⟨cs, hh⟩ := exists_holds_of_parse hc
  have hpool := migratedPool_holds hh fun raw hm => ho raw ((mem_slots_iff_of_holds hh).2 hm)
  rw [migratedPool_none] at hpool
  exact parse_toBytes hc hpool (by simpa [patched] using hn)

lemma convert_eq_ok (hc : parse source = .ok c) (hp : p.isTrivial = false) (path : String)
    (ho : ¬ ∃ raw, IsOpen c raw ∧ 65535 < (p.migrateBytes raw).value.length) :
    ((¬ ∃ raw, IsOpen c raw ∧ (p.migrateBytes raw).changed = true) → convert p none path source = .ok .kept) ∧
    ((∃ raw, IsOpen c raw ∧ (p.migrateBytes raw).changed = true) →
      convert p none path source = .ok (.replaced (patched p c).toBytes true)) := by
  have hout : ∀ raw, some (.utf8 raw) ∈ c.pool.slots → ¬ Outgrows p none (.ofClass c) raw :=
    fun raw hm hr => ho ((exists_outgrows_iff hc).1 ⟨raw, hm, hr⟩)
  obtain ⟨result, hr, hpool, hchanged, hasked⟩ := migratePool_eq_ok (size_slots_le_of_parse hc) hout
  rw [exists_isSome_iff] at hchanged
  rw [convert, convertBytes_eq hc hp, hr]
  constructor
  · intro hno
    have hf : result.changed = false := by simpa using mt hchanged.1 hno
    simp [Except.map, Except.mapError, hf, hasked rfl, Conversion.kept]
  · intro hsome
    simp [Except.map, Except.mapError, hchanged.2 hsome, hasked rfl, hpool, migratedPool_none, Conversion.replaced,
      patched]

/-- Conversion fails just if an open text becomes too long; else it patches the constants of the pool,
if any open text changes. -/
theorem convert_patches_pool (hc : parse source = .ok c) (hn : c.pool.slots.size ≤ 65535)
    (hp : p.isTrivial = false) (path : String) :
    (∀ fault, convert p none path source = .error fault → ∃ n, fault = .classFile path (.utf8TooLong n)) ∧
    ((∃ fault, convert p none path source = .error fault) ↔
      ∃ raw, IsOpen c raw ∧ 65535 < (p.migrateBytes raw).value.length) ∧
    ((∀ raw, IsOpen c raw → (p.migrateBytes raw).changed = false) → convert p none path source = .ok .kept) ∧
    (∀ conversion, convert p none path source = .ok conversion →
      (∃ raw, IsOpen c raw ∧ (p.migrateBytes raw).changed = true) →
      conversion.changed = true ∧ ∃ out, conversion.replacement = some out ∧ parse out = .ok (patched p c)) := by
  by_cases ho : ∃ raw, IsOpen c raw ∧ 65535 < (p.migrateBytes raw).value.length
  · obtain ⟨n, hf⟩ := convert_eq_error hc hp path ho
    refine ⟨?_, ?_, ?_, ?_⟩
    · intro fault h
      exact ⟨n, by simpa [hf, eq_comm] using h⟩
    · simp only [hf, ho, iff_true]
      exact ⟨_, rfl⟩
    · intro hno
      obtain ⟨raw, hm, hl⟩ := ho
      obtain ⟨cs, hh⟩ := exists_holds_of_parse hc
      have hr := length_le_of_mem_slots hh hm.1
      rw [value_eq_of_not_changed (hno raw hm)] at hl
      omega
    · intro conversion h
      simp [hf] at h
  · obtain ⟨hkept, hreplaced⟩ := convert_eq_ok hc hp path ho
    have hok : ∃ conversion, convert p none path source = .ok conversion := by
      by_cases hch : ∃ raw, IsOpen c raw ∧ (p.migrateBytes raw).changed = true
      · exact ⟨_, hreplaced hch⟩
      · exact ⟨_, hkept hch⟩
    obtain ⟨found, hfound⟩ := hok
    refine ⟨?_, ?_, ?_, ?_⟩
    · intro fault h
      simp [hfound] at h
    · simp [hfound, ho]
    · intro hno
      exact hkept fun ⟨raw, hm, h⟩ => by simp [hno raw hm] at h
    · intro conversion h hch
      obtain rfl : Conversion.replaced (patched p c).toBytes true = conversion := by
        simpa [hreplaced hch] using h
      exact ⟨rfl, _, rfl, parse_patched hc hn fun raw hm hr => ho ((exists_outgrows_iff hc).1 ⟨raw, hm, hr⟩)⟩

def bareClass (text : String) : Bytes :=
  Bytes.big32 magic ++ [0, 0, 0, 52, 0, 3, 1] ++ Bytes.big16 (UInt16.ofNat (Bytes.utf8 text).length) ++
    Bytes.utf8 text ++ [7, 0, 1, 0, 1, 0, 2, 0, 0, 0, 0, 0, 0, 0, 0, 0, 0]

theorem convert_patches_pool_of_filter :
    ∃ c conversion, parse (bareClass "javax/servlet/Filter") = .ok c ∧ c.pool.slots.size ≤ 65535 ∧
      BuiltIn.tomcatProfile.isTrivial = false ∧
      convert BuiltIn.tomcatProfile none "Filter.class" (bareClass "javax/servlet/Filter") = .ok conversion ∧
      IsOpen c (Bytes.utf8 "javax/servlet/Filter") ∧ conversion.changed = true ∧
      ∃ out, conversion.replacement = some out ∧ parse out = .ok (patched BuiltIn.tomcatProfile c) := by
  let body : ClassBody := ⟨1, 2, 0, [], [], [], []⟩
  let pool : ConstantPool := ⟨#[none, some (.utf8 (Bytes.utf8 "javax/servlet/Filter")), some (.classInfo 1)]⟩
  let c : ClassFile := ⟨0, 52, pool, body, [0, 1, 0, 2, 0, 0, 0, 0, 0, 0, 0, 0, 0, 0]⟩
  have hc : parse (bareClass "javax/servlet/Filter") = .ok c := by decide +kernel
  have hn : c.pool.slots.size ≤ 65535 := by decide
  have hp : BuiltIn.tomcatProfile.isTrivial = false := by decide
  have ho : IsOpen c (Bytes.utf8 "javax/servlet/Filter") := ⟨by decide +kernel, by decide +kernel⟩
  have hm : (BuiltIn.tomcatProfile.migrateBytes (Bytes.utf8 "javax/servlet/Filter")).changed = true := by
    decide +kernel
  have hok : convert BuiltIn.tomcatProfile none "Filter.class" (bareClass "javax/servlet/Filter") =
      .ok (.replaced (bareClass "jakarta/servlet/Filter") true) := by decide +kernel
  exact ⟨c, _, hc, hn, hp, hok, ho, (convert_patches_pool hc hn hp "Filter.class").2.2.2 _ hok ⟨_, ho, hm⟩⟩

end NamespaceMigration.ClassFile
