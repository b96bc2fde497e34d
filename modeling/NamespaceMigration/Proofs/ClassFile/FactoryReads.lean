import NamespaceMigration.ClassFile.Draft
import NamespaceMigration.Proofs.ClassFile.Protection

/-! What the classes that a class file protects have to do with what its methods read. -/

namespace NamespaceMigration.ProtectedClasses

variable {pool : ConstantPool} {i : Instruction} {m : Member} {c : ClassFile} {name : String}

def ReadsType (pool : ConstantPool) (i : Instruction) (name : String) : Prop :=
  ∃ index field owner, i.opcode = Instruction.getstatic ∧ i.poolIndex? = some index ∧ pool.field index = .ok field ∧
    ModifiedUtf8.decode? field.owner = some owner ∧ IsFactory owner ∧ NamesClass field.descriptor name ∧
    startsWith "javax.xml." name = true

def IsUnderstood (pool : ConstantPool) (i : Instruction) : Prop :=
  i.opcode = Instruction.getstatic → ∀ index, i.poolIndex? = some index → ∃ field owner, pool.field index = .ok field ∧
    ModifiedUtf8.decode? field.owner = some owner ∧ (IsFactory owner → ∃ text type,
      ModifiedUtf8.decode? field.descriptor = some text ∧ FieldType.parse? text.toList = some type)

def MethodReads (pool : ConstantPool) (m : Member) (name : String) : Prop :=
  ∃ code, m.code pool = .ok (some code) ∧ (Instruction.walk code.code).fault = none ∧
    (∀ i ∈ (Instruction.walk code.code).instructions, IsUnderstood pool i) ∧
    ∃ i ∈ (Instruction.walk code.code).instructions, ReadsType pool i name

def HasOwner (pool : ConstantPool) (path : Bytes) : Prop :=
  ∃ owner member raw, some (Constant.fieldRef owner member) ∈ pool.slots ∧ pool.classNameBytes owner = .ok raw ∧
    path <+: raw

def SpellsFactories (pool : ConstantPool) : Prop :=
  ∀ owner member raw text, some (Constant.fieldRef owner member) ∈ pool.slots → pool.classNameBytes owner = .ok raw →
    ModifiedUtf8.decode? raw = some text → IsFactory text → factoryPath <+: raw

lemma isUnderstood_iff : IsUnderstood pool i ↔ ∃ found, ofInstruction pool i = .ok found := by
  constructor
  · intro h
    by_cases ho : i.opcode = Instruction.getstatic
    · cases hi : i.poolIndex? with
      | none => exact ⟨none, ofInstruction_eq_ok_iff.2 (.inl ⟨.inr hi, rfl⟩)⟩
      | some index =>
        obtain ⟨field, owner, hf, howner, htype⟩ := h ho index hi
        by_cases hy : IsFactory owner
        · obtain ⟨text, type, ht, hp⟩ := htype hy
          exact ⟨_, ofInstruction_eq_ok_iff.2 (.inr ⟨index, field, owner, ho, hi, hf, howner, .inr ⟨hy, text, type, ht, hp, rfl⟩⟩)⟩
        · exact ⟨none, ofInstruction_eq_ok_iff.2 (.inr ⟨index, field, owner, ho, hi, hf, howner, .inl ⟨hy, rfl⟩⟩)⟩
    · exact ⟨none, ofInstruction_eq_ok_iff.2 (.inl ⟨.inl ho, rfl⟩)⟩
  · rintro ⟨found, h⟩ ho index hi
    rcases ofInstruction_eq_ok_iff.1 h with ⟨ho' | hi', -⟩ | ⟨index', field, owner, -, hi', hf, howner, hcase⟩
    · exact absurd ho ho'
    · cases hi.symm.trans hi'
    · obtain rfl := Option.some.inj (hi'.symm.trans hi)
      refine ⟨field, owner, hf, howner, fun hy => ?_⟩
      rcases hcase with ⟨hn, -⟩ | ⟨-, text, type, ht, hp, -⟩
      · exact absurd hy hn
      · exact ⟨text, type, ht, hp⟩

lemma protects_iff_methodReads : Protects pool m name ↔ MethodReads pool m name := by
  simp only [protects_iff, MethodReads, isUnderstood_iff, ReadsType, ofInstruction_eq_some_iff]

lemma mem_ofClass_iff_reads :
    name ∈ (ofClass c).names ↔ HasOwner c.pool factoryPath ∧ ∃ m ∈ c.body.methods, MethodReads c.pool m name := by
  simp only [mem_ofClass, readsFactory_iff, HasOwner, protects_iff_methodReads]

lemma exists_fieldRef {index : UInt16} {field : ResolvedField} (h : pool.field index = .ok field) :
    ∃ owner member, some (Constant.fieldRef owner member) ∈ pool.slots ∧ pool.classNameBytes owner = .ok field.owner := by
  obtain ⟨d, hd, h⟩ := bind_eq_ok_iff.1 h
  cases d with
  | fieldRef owner member =>
    obtain ⟨d', -, h⟩ := bind_eq_ok_iff.1 h
    cases d' with
    | nameAndType =>
      obtain ⟨raw, hraw, h⟩ := bind_eq_ok_iff.1 h
      obtain ⟨_, -, h⟩ := bind_eq_ok_iff.1 h
      obtain ⟨_, -, h⟩ := bind_eq_ok_iff.1 h
      obtain rfl := Except.ok.inj h
      exact ⟨owner, member, Array.mem_iff_getElem?.2 ⟨_, ConstantPool.get_eq_ok_iff.1 hd⟩, hraw⟩
    | _ => cases h
  | _ => cases h

lemma SpellsFactories.hasOwner (hs : SpellsFactories pool) (h : MethodReads pool m name) : HasOwner pool factoryPath := by
  obtain ⟨_, -, -, -, i, -, index, field, text, -, -, hf, ht, hy, -⟩ := h
  obtain ⟨owner, member, hm, hraw⟩ := exists_fieldRef hf
  exact ⟨owner, member, field.owner, hm, hraw, hs _ _ _ _ hm hraw ht hy⟩

/-- Every name found is read by a method without a fault. All that is so read is found just if there is nothing to find
or the pool has an owner with the path of the factories, as it has when it spells all of them so. -/
theorem mem_ofClass_iff_of_owner (c : ClassFile) :
    (∀ name ∈ (ofClass c).names, ∃ m ∈ c.body.methods, MethodReads c.pool m name) ∧
    ((∀ name, name ∈ (ofClass c).names ↔ ∃ m ∈ c.body.methods, MethodReads c.pool m name) ↔
      ((∃ name, ∃ m ∈ c.body.methods, MethodReads c.pool m name) → HasOwner c.pool factoryPath)) ∧
    (SpellsFactories c.pool → ∀ name, name ∈ (ofClass c).names ↔ ∃ m ∈ c.body.methods, MethodReads c.pool m name) := by
  have hexact : (∀ name, name ∈ (ofClass c).names ↔ ∃ m ∈ c.body.methods, MethodReads c.pool m name) ↔
      ((∃ name, ∃ m ∈ c.body.methods, MethodReads c.pool m name) → HasOwner c.pool factoryPath) := by
    constructor
    · rintro h ⟨name, hr⟩
      exact (mem_ofClass_iff_reads.1 ((h name).2 hr)).1
    · intro h name
      rw [mem_ofClass_iff_reads]
      exact and_iff_right_of_imp fun hr => h ⟨name, hr⟩
  refine ⟨fun name hn => (mem_ofClass_iff_reads.1 hn).2, hexact, fun hs => hexact.2 ?_⟩
  rintro ⟨name, m, -, hr⟩
  exact hs.hasOwner hr

/-- A class that reads a constant of a factory named with dots: the type that its method reads is not protected. -/
theorem names_lost_of_dotted_owner :
    ∃ source c, ClassFile.parse source = .ok c ∧ (ofClass c).names = [] ∧
      ∃ m ∈ c.body.methods, MethodReads c.pool m "javax.xml.namespace.QName" := by
  let d := ((ClassDraft.ofName "A").addMethod 1 "m" "()V").addInstruction
    (.getstatic "javax.xml.xpath.XPathConstants" "NODE" "Ljavax/xml/namespace/QName;")
  have hread : (ClassFile.parse d.toBytes).toOption.any (fun c => (ofClass c).names = [] ∧
      ∃ m ∈ c.body.methods, ofMethod c.pool m = .ok ["javax.xml.namespace.QName"]) = true := by
    decide +kernel
  cases hc : ClassFile.parse d.toBytes with
  | error => simp only [hc, Except.toOption, Option.any_none, reduceCtorEq] at hread
  | ok c =>
    simp only [hc, Except.toOption, Option.any_some, decide_eq_true_eq] at hread
    obtain ⟨hn, m, hm, hr⟩ := hread
    exact ⟨d.toBytes, c, hc, hn, m, hm, protects_iff_methodReads.1 ⟨_, hr, List.mem_singleton_self _⟩⟩

end NamespaceMigration.ProtectedClasses
