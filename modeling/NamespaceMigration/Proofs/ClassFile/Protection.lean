import NamespaceMigration.Proofs.ClassFile.Descriptors
import NamespaceMigration.Proofs.ClassFile.Spelling

/-! What the protected classes of a class file depend on. -/

namespace NamespaceMigration

inductive Constant.Carried (R : Bytes → Bytes → Prop) : Constant → Constant → Prop
  | text {a b : Bytes} (h : R a b) : Carried R (.utf8 a) (.utf8 b)
  | other {c : Constant} (h : ∀ raw, c ≠ .utf8 raw) : Carried R c c

namespace ConstantPool

def Carries (R : Bytes → Bytes → Prop) (pool pool' : ConstantPool) : Prop :=
  ∀ (i : ℕ) (c : Constant), pool.slots[i]? = some (some c) → ∃ d, pool'.slots[i]? = some (some d) ∧ c.Carried R d

variable {R : Bytes → Bytes → Prop} {pool pool' : ConstantPool} {index : UInt16} {raw : Bytes}

lemma get_eq_ok_iff {c : Constant} : pool.get index = .ok c ↔ pool.slots[index.toNat]? = some (some c) := by
  rw [get]
  split
  next d h => simp [h]
  next h => simpa using h c

namespace Carries

variable (h : pool.Carries R pool')

include h

lemma get {c : Constant} (hc : pool.get index = .ok c) : ∃ d, pool'.get index = .ok d ∧ c.Carried R d := by
  obtain ⟨d, hd, hcd⟩ := h _ c (get_eq_ok_iff.1 hc)
  exact ⟨d, get_eq_ok_iff.2 hd, hcd⟩

lemma get_other {c : Constant} (hc : pool.get index = .ok c) (hn : ∀ raw, c ≠ .utf8 raw) : pool'.get index = .ok c := by
  obtain ⟨d, hd, hcd⟩ := h.get hc
  cases hcd with
  | text => exact absurd rfl (hn _)
  | other => exact hd

lemma utf8Bytes (hr : pool.utf8Bytes index = .ok raw) : ∃ raw', pool'.utf8Bytes index = .ok raw' ∧ R raw raw' := by
  obtain ⟨c, hc, hr⟩ := bind_eq_ok_iff.1 hr
  obtain ⟨d, hd, hcd⟩ := h.get hc
  cases hcd with
  | @text a b hab =>
    obtain rfl := Except.ok.inj hr
    exact ⟨b, by rw [ConstantPool.utf8Bytes, hd]; rfl, hab⟩
  | other hn => cases c <;> first | exact absurd rfl (hn _) | cases hr

lemma classNameBytes (hr : pool.classNameBytes index = .ok raw) :
    ∃ raw', pool'.classNameBytes index = .ok raw' ∧ R raw raw' := by
  obtain ⟨c, hc, hr⟩ := bind_eq_ok_iff.1 hr
  cases c with
  | classInfo name =>
    obtain ⟨raw', hr', hrr⟩ := h.utf8Bytes hr
    exact ⟨raw', bind_eq_ok_iff.2 ⟨_, h.get_other hc (fun _ => nofun), hr'⟩, hrr⟩
  | _ => cases hr

lemma field {f : ResolvedField} (hf : pool.field index = .ok f) :
    ∃ f', pool'.field index = .ok f' ∧ R f.owner f'.owner ∧ R f.descriptor f'.descriptor := by
  obtain ⟨c, hc, hf⟩ := bind_eq_ok_iff.1 hf
  cases c with
  | fieldRef owner member =>
    obtain ⟨m, hm, hf⟩ := bind_eq_ok_iff.1 hf
    cases m with
    | nameAndType name descriptor =>
      obtain ⟨o, ho, hf⟩ := bind_eq_ok_iff.1 hf
      obtain ⟨n, hn, hf⟩ := bind_eq_ok_iff.1 hf
      obtain ⟨d, hd, hf⟩ := bind_eq_ok_iff.1 hf
      obtain rfl := Except.ok.inj hf
      obtain ⟨o', ho', hoo⟩ := h.classNameBytes ho
      obtain ⟨n', hn', -⟩ := h.utf8Bytes hn
      obtain ⟨d', hd', hdd⟩ := h.utf8Bytes hd
      refine ⟨⟨o', n', d'⟩, bind_eq_ok_iff.2 ⟨_, h.get_other hc (fun _ => nofun), bind_eq_ok_iff.2
        ⟨_, h.get_other hm (fun _ => nofun), ?_⟩⟩, hoo, hdd⟩
      dsimp only
      rw [ho', hn', hd']
      rfl
    | _ => cases hf
  | _ => cases hf

end Carries

end ConstantPool

namespace Profile

/-- Whether a profile leaves the names alone by which code and factories are found. -/
structure Spares (p : Profile) : Prop where
  code : p.keeps (Bytes.utf8 "Code") = true
  path : p.keeps ProtectedClasses.factoryPath = true
  package : p.keeps "javax.xml.xpath.".toList = true

structure Careful (p : Profile) : Prop where
  regular : p.Regular
  forth : p.Spares
  back : ∀ name, (p.reversedAs name).Spares

lemma careful_builtIn (b : BuiltIn) : b.profile.Careful := by
  have hkeeps : ∀ {α : Type} [BEq α] [Alphabet α] (q : Profile) (name name' : String) (w : List α),
      (q.reversedAs name).keeps w = (q.reversedAs name').keeps w := fun _ _ _ _ => rfl
  refine ⟨regular_builtIn b, ?_, fun name => ?_⟩
  · cases b <;> constructor <;> decide +kernel
  · constructor <;> rw [hkeeps _ name ""] <;> cases b <;> decide +kernel

lemma Careful.reversedAs {p : Profile} (h : p.Careful) (name : String) : (p.reversedAs name).Careful :=
  ⟨h.regular.reversedAs name, h.back name, fun _ => ⟨h.forth.code, h.forth.path, h.forth.package⟩⟩

def MovedText (p : Profile) (raw raw' : Bytes) : Prop := p.Moved (Leads p.rules) raw raw'

variable {p : Profile}

lemma MovedText.refl (raw : Bytes) : p.MovedText raw raw := Moved.refl raw

lemma MovedText.symm {raw raw' : Bytes} (hp : p.Regular) (h : p.MovedText raw raw') (name : String) :
    (p.reversedAs name).MovedText raw' raw :=
  Moved.symm h (fun _ _ hm hs => (hp.octets.leads_iff hm).1 hs) name

lemma MovedText.decode {raw raw' : Bytes} {text : String} (hp : p.Regular) (h : p.MovedText raw raw')
    (ht : ModifiedUtf8.decode? raw = some text) : ∃ text', ModifiedUtf8.decode? raw' = some text' ∧
      p.Moved (Leads p.rules) text.toList text'.toList := by
  have hascii : p.Ascii := fun word hw c hc =>
    toNat_lt_of_isAlphanum (hp.alphanumeric word hw c hc)
  obtain ⟨t, ht, hm⟩ := Moved.of_spelt hascii hp.octets (fun _ _ => hascii.leads_of_spelt)
    (ModifiedUtf8.decode?_eq_some_iff.1 ht) h
  exact ⟨String.ofList t, ModifiedUtf8.decode?_eq_some_iff.2 (by simpa using ht), by simpa using hm⟩

end Profile

namespace ProtectedClasses

open Profile (dotted Leads)

variable {p : Profile} {pool pool' : ConstantPool} {R : Bytes → Bytes → Prop}

def IsFactory (owner : String) : Prop := startsWith "javax.xml.xpath." (owner.map dotted) = true

lemma startsWith_map_dotted_iff {word s : String} :
    startsWith word (s.map dotted) = true ↔ ∃ rest, s.toList.map dotted = word.toList ++ rest := by
  rw [startsWith, String.toList_map, Option.isSome_iff_exists]
  exact exists_congr fun rest => Text.strip?_eq_some_iff

lemma isFactory_of_moved (hp : p.Careful) {owner owner' : String}
    (hm : p.Moved (Leads p.rules) owner.toList owner'.toList) (h : IsFactory owner) : IsFactory owner' := by
  have hd := hp.regular.alphanumeric.moved_map_dotted (fun _ h => hp.regular.alphanumeric.leads_map_dotted.2 h) hm
  obtain ⟨s, hs⟩ := startsWith_map_dotted_iff.1 h
  rw [hs] at hd
  obtain ⟨t, ht, -⟩ := hd.of_keeps hp.forth.package
  exact startsWith_map_dotted_iff.2 ⟨t, ht⟩

lemma isFactory_congr (hp : p.Careful) {owner owner' : String}
    (hm : p.Moved (Leads p.rules) owner.toList owner'.toList) : IsFactory owner ↔ IsFactory owner' :=
  ⟨isFactory_of_moved hp hm, isFactory_of_moved (hp.reversedAs "")
    (hm.symm (fun _ _ hm hs => (hp.regular.chars.leads_iff hm).1 hs) "")⟩

def NamesClass (raw : Bytes) (name : String) : Prop :=
  ∃ text type, ModifiedUtf8.decode? raw = some text ∧ FieldType.parse? text.toList = some type ∧ type.className = some name

lemma NamesClass.unique {raw : Bytes} {name name' : String} (h : NamesClass raw name) (h' : NamesClass raw name') :
    name = name' := by
  obtain ⟨text, type, ht, hp, hn⟩ := h
  obtain ⟨text', type', ht', hp', hn'⟩ := h'
  obtain rfl := Option.some.inj (ht.symm.trans ht')
  obtain rfl := Option.some.inj (hp.symm.trans hp')
  exact Option.some.inj (hn.symm.trans hn')

section Instructions

variable {i : Instruction} {name : String}

lemma decoded_eq_ok_iff {raw : Bytes} {text : String} :
    ConstantPool.decoded raw = .ok text ↔ ModifiedUtf8.decode? raw = some text := by
  rw [ConstantPool.decoded]
  split <;> simp_all

lemma parse_eq_ok_iff {text : String} {type : FieldType} :
    FieldType.parse text = .ok type ↔ FieldType.parse? text.toList = some type := by
  rw [FieldType.parse]
  split <;> simp_all

lemma ofInstruction_eq_ok_iff {found : Option String} : ofInstruction pool i = .ok found ↔
    (i.opcode ≠ Instruction.getstatic ∨ i.poolIndex? = none) ∧ found = none ∨
    ∃ index field owner, i.opcode = Instruction.getstatic ∧ i.poolIndex? = some index ∧ pool.field index = .ok field ∧
      ModifiedUtf8.decode? field.owner = some owner ∧ (¬ IsFactory owner ∧ found = none ∨ IsFactory owner ∧
        ∃ text type, ModifiedUtf8.decode? field.descriptor = some text ∧ FieldType.parse? text.toList = some type ∧
          found = type.className.filter (startsWith "javax.xml." ·)) := by
  unfold ofInstruction
  split
  next ho => simp [ho, eq_comm]
  next ho =>
    cases hi : i.poolIndex? with
    | none => simp [eq_comm]
    | some index =>
      simp only [bind_eq_ok_iff, decoded_eq_ok_iff]
      constructor
      · rintro ⟨field, hf, owner, howner, h⟩
        refine .inr ⟨index, field, owner, not_not.1 ho, rfl, hf, howner, ?_⟩
        split at h
        next hs =>
          simp only [bind_eq_ok_iff, decoded_eq_ok_iff, parse_eq_ok_iff] at h
          obtain ⟨text, ht, type, hp, h⟩ := h
          exact .inr ⟨hs, text, type, ht, hp, (Except.ok.inj h).symm⟩
        next hs => exact .inl ⟨hs, (Except.ok.inj h).symm⟩
      · rintro (⟨h | h, -⟩ | ⟨index', field, owner, -, hi', hf, howner, h⟩)
        · exact absurd h ho
        · cases h
        · obtain rfl := Option.some.inj hi'
          refine ⟨field, hf, owner, howner, ?_⟩
          rcases h with ⟨hs, rfl⟩ | ⟨hs, text, type, ht, hp, rfl⟩
          · exact if_neg hs
          · refine (if_pos hs).trans ?_
            simp only [bind_eq_ok_iff, decoded_eq_ok_iff, parse_eq_ok_iff]
            exact ⟨text, ht, type, hp, rfl⟩

lemma ofInstruction_eq_some_iff : ofInstruction pool i = .ok (some name) ↔
    ∃ index field owner, i.opcode = Instruction.getstatic ∧ i.poolIndex? = some index ∧ pool.field index = .ok field ∧
      ModifiedUtf8.decode? field.owner = some owner ∧ IsFactory owner ∧ NamesClass field.descriptor name ∧
      startsWith "javax.xml." name = true := by
  rw [ofInstruction_eq_ok_iff]
  constructor
  · rintro (⟨-, hno⟩ | ⟨index, field, owner, ho, hindex, hfield, howner, ⟨-, hno⟩ | ⟨hy, text, type, htext, htype, hfound⟩⟩)
    · cases hno
    · cases hno
    · obtain ⟨hname, hstart⟩ := Option.filter_eq_some_iff.1 hfound.symm
      exact ⟨index, field, owner, ho, hindex, hfield, howner, hy, ⟨text, type, htext, htype, hname⟩, hstart⟩
  · rintro ⟨index, field, owner, ho, hindex, hfield, howner, hy, ⟨text, type, htext, htype, hname⟩, hstart⟩
    refine .inr ⟨index, field, owner, ho, hindex, hfield, howner, .inr ⟨hy, text, type, htext, htype, ?_⟩⟩
    exact (Option.filter_eq_some_iff.2 ⟨hname, hstart⟩).symm

variable (hp : p.Careful) (hR : ∀ raw raw', R raw raw' → p.MovedText raw raw') (h : pool.Carries R pool')

include hp hR h

lemma exists_ofInstruction {found : Option String} (hi : ofInstruction pool i = .ok found) :
    ∃ found', ofInstruction pool' i = .ok found' := by
  rcases ofInstruction_eq_ok_iff.1 hi with ⟨ho, -⟩ | ⟨index, field, owner, ho, hindex, hfield, howner, hcase⟩
  · exact ⟨none, ofInstruction_eq_ok_iff.2 (.inl ⟨ho, rfl⟩)⟩
  · obtain ⟨field', hfield', hro, hrd⟩ := h.field hfield
    obtain ⟨owner', howner', hmoved⟩ := (hR _ _ hro).decode hp.regular howner
    rcases hcase with ⟨hn, -⟩ | ⟨hy, text, type, htext, htype, -⟩
    · refine ⟨none, ofInstruction_eq_ok_iff.2 (.inr ⟨index, field', owner', ho, hindex, hfield', howner', .inl ⟨?_, rfl⟩⟩)⟩
      rwa [← isFactory_congr hp hmoved]
    · obtain ⟨text', htext', hmoved'⟩ := (hR _ _ hrd).decode hp.regular htext
      obtain ⟨type', htype', -⟩ := FieldType.parse?_of_moved hp.regular p.local_leads htype hmoved'
      exact ⟨_, ofInstruction_eq_ok_iff.2 (.inr ⟨index, field', owner', ho, hindex, hfield', howner',
        .inr ⟨(isFactory_congr hp hmoved).1 hy, text', type', htext', htype', rfl⟩⟩)⟩

lemma ofInstruction_of_carries (hi : ofInstruction pool i = .ok (some name)) :
    startsWith "javax.xml." name = true ∧ ∃ raw raw', R raw raw' ∧ NamesClass raw name ∧
      ∀ name', NamesClass raw' name' → startsWith "javax.xml." name' = true → ofInstruction pool' i = .ok (some name') := by
  obtain ⟨index, field, owner, ho, hindex, hfield, howner, hy, hnames, hstart⟩ := ofInstruction_eq_some_iff.1 hi
  obtain ⟨field', hfield', hro, hrd⟩ := h.field hfield
  obtain ⟨owner', howner', hmoved⟩ := (hR _ _ hro).decode hp.regular howner
  refine ⟨hstart, _, _, hrd, hnames, fun name' hnames' hstart' => ofInstruction_eq_some_iff.2 ?_⟩
  exact ⟨index, field', owner', ho, hindex, hfield', howner', (isFactory_congr hp hmoved).1 hy, hnames', hstart'⟩

end Instructions

section Methods

variable {m : Member} {name : String}

def Protects (pool : ConstantPool) (m : Member) (name : String) : Prop :=
  ∃ names, ofMethod pool m = .ok names ∧ name ∈ names

lemma protects_iff : Protects pool m name ↔ ∃ code, m.code pool = .ok (some code) ∧
    (Instruction.walk code.code).fault = none ∧
    (∀ i ∈ (Instruction.walk code.code).instructions, ∃ found, ofInstruction pool i = .ok found) ∧
    ∃ i ∈ (Instruction.walk code.code).instructions, ofInstruction pool i = .ok (some name) := by
  have hcomplete : ∀ w : Walk, (∃ l, w.complete = .ok l) ↔ w.fault = none := by
    intro w
    rw [Walk.complete]
    split
    next h => simp [h]
    next h => simp [h]
  constructor
  · rintro ⟨names, h, hm⟩
    obtain ⟨code?, hcode, h⟩ := bind_eq_ok_iff.1 h
    cases code? with
    | none =>
      obtain rfl := Except.ok.inj h
      cases hm
    | some code =>
      obtain ⟨found, hfound, h⟩ := bind_eq_ok_iff.1 h
      obtain ⟨l, hl, h⟩ := bind_eq_ok_iff.1 h
      obtain rfl := Except.ok.inj h
      have hrel := mapM_eq_ok_iff.1 hfound
      refine ⟨code, hcode, (hcomplete _).1 ⟨l, hl⟩, fun i hi => ?_, ?_⟩
      · obtain ⟨o, -, ho⟩ := exists_of_forall₂ hrel hi
        exact ⟨o, ho⟩
      · obtain ⟨o, ho, hname⟩ := List.mem_filterMap.1 hm
        obtain ⟨i, hi, hio⟩ := exists_of_forall₂ hrel.flip ho
        exact ⟨i, hi, hio.trans (congrArg Except.ok hname)⟩
  · rintro ⟨code, hcode, hfault, hall, i, hi, hname⟩
    obtain ⟨l, hl⟩ := (hcomplete _).2 hfault
    obtain ⟨found, hrel⟩ := exists_forall₂ hall
    refine ⟨found.filterMap id, bind_eq_ok_iff.2 ⟨_, hcode, bind_eq_ok_iff.2 ⟨found, mapM_eq_ok_iff.2 hrel,
      bind_eq_ok_iff.2 ⟨l, hl, rfl⟩⟩⟩, List.mem_filterMap.2 ⟨some name, ?_, rfl⟩⟩
    obtain ⟨o, ho, hio⟩ := exists_of_forall₂ hrel hi
    rwa [Except.ok.inj (hname.symm.trans hio)]

lemma mem_insertSorted {names : List String} {x : String} : name ∈ insertSorted x names ↔ name = x ∨ name ∈ names := by
  induction names with
  | nil => simp [insertSorted]
  | cons y names ih =>
    rw [insertSorted]
    split
    · simp
    · split
      next h => simp [h]
      next => grind

def withMethod (pool : ConstantPool) (set : ProtectedClasses) (m : Member) : ProtectedClasses :=
  match ofMethod pool m with
  | .ok names => names.foldl insert set
  | .error _ => set

lemma mem_withMethod {set : ProtectedClasses} : name ∈ (withMethod pool set m).names ↔ Protects pool m name ∨ name ∈ set.names := by
  have hinsert : ∀ (names : List String) (set : ProtectedClasses),
      name ∈ (names.foldl insert set).names ↔ name ∈ names ∨ name ∈ set.names := by
    intro names
    induction names with
    | nil => simp
    | cons x names ih =>
      intro set
      rw [List.foldl_cons, ih, insert, mem_insertSorted, List.mem_cons]
      tauto
  rw [withMethod, Protects]
  cases hm : ofMethod pool m with
  | ok names => simp [hinsert]
  | error e => simp

lemma mem_ofMethods {methods : List Member} : name ∈ (ofMethods pool methods).names ↔ ∃ m ∈ methods, Protects pool m name := by
  have hfold : ∀ set : ProtectedClasses, name ∈ (methods.foldl (withMethod pool) set).names ↔
      (∃ m ∈ methods, Protects pool m name) ∨ name ∈ set.names := by
    induction methods with
    | nil => simp
    | cons m methods ih =>
      intro set
      rw [List.foldl_cons, ih, mem_withMethod]
      simp only [List.mem_cons, exists_eq_or_imp, or_assoc, or_left_comm]
  have hof : ofMethods pool methods = methods.foldl (withMethod pool) empty := rfl
  rw [hof, hfold]
  simp [empty]

lemma readsFactory_iff : readsFactory pool = true ↔ ∃ owner member raw,
    some (Constant.fieldRef owner member) ∈ pool.slots ∧ pool.classNameBytes owner = .ok raw ∧ factoryPath <+: raw := by
  have hmem : ∀ c : Constant, (∃ index, (index, c) ∈ pool.constants) ↔ some c ∈ pool.slots := by
    intro c
    simp only [ConstantPool.constants, List.mem_filterMap]
    constructor
    · rintro ⟨index, ⟨slot, i⟩, hm, hs⟩
      obtain ⟨d, rfl, he⟩ := Option.map_eq_some_iff.1 hs
      obtain ⟨-, rfl⟩ := Prod.mk.inj he
      obtain ⟨hi, hg⟩ := List.mem_zipIdx' hm
      exact Array.mem_toList_iff.1 (hg ▸ List.getElem_mem hi)
    · intro h
      obtain ⟨i, hi, hg⟩ := List.mem_iff_getElem.1 (Array.mem_toList_iff.2 h)
      exact ⟨UInt16.ofNat i, (some c, i), List.mem_zipIdx_iff_getElem?.2 (by simp [List.getElem?_eq_getElem hi, hg]), rfl⟩
  rw [readsFactory, List.any_eq_true]
  constructor
  · rintro ⟨⟨index, c⟩, hm, hc⟩
    cases c with
    | fieldRef owner member =>
      cases hn : pool.classNameBytes owner with
      | ok raw => exact ⟨owner, member, raw, (hmem _).1 ⟨index, hm⟩, hn, Text.strip?_isSome_iff.1 (by simpa [hn] using hc)⟩
      | error e => simp [hn] at hc
    | _ => cases hc
  · rintro ⟨owner, member, raw, hm, hn, hp⟩
    obtain ⟨index, hm⟩ := (hmem _).2 hm
    exact ⟨(index, .fieldRef owner member), hm, by simp [hn, Text.strip?_isSome_iff.2 hp]⟩

lemma mem_ofClass {c : ClassFile} : name ∈ (ofClass c).names ↔
    readsFactory c.pool = true ∧ ∃ m ∈ c.body.methods, Protects c.pool m name := by
  rw [ofClass]
  split
  next h => simp [h, mem_ofMethods]
  next h => simp [h, empty]

section Carried

variable (hp : p.Careful) (hR : ∀ raw raw', R raw raw' → p.MovedText raw raw') (h : pool.Carries R pool')

include hp hR h

lemma code_of_carries {code : Option Code} (hc : m.code pool = .ok code) : m.code pool' = .ok code := by
  have hname : ∀ raw raw', R raw raw' → (raw = Bytes.utf8 "Code" ↔ raw' = Bytes.utf8 "Code") := by
    have hforth : ∀ (q : Profile), q.Careful → ∀ {raw raw' : Bytes}, q.MovedText raw raw' → raw = Bytes.utf8 "Code" →
        raw' = Bytes.utf8 "Code" := by
      rintro q hq raw raw' hm rfl
      obtain ⟨t, rfl, ht⟩ := ((List.append_nil (Bytes.utf8 "Code")).symm ▸ hm : q.Moved _ (_ ++ []) _).of_keeps hq.forth.code
      rw [ht.eq_nil hq.regular.octets, List.append_nil]
    exact fun raw raw' hr => ⟨hforth p hp (hR _ _ hr), hforth _ (hp.reversedAs "") ((hR _ _ hr).symm hp.regular "")⟩
  have hfind : ∀ {attributes : List Attribute} {found : Option Attribute},
      Member.findAttribute pool (Bytes.utf8 "Code") attributes = .ok found →
      Member.findAttribute pool' (Bytes.utf8 "Code") attributes = .ok found := by
    intro attributes
    induction attributes with
    | nil => exact id
    | cons a attributes ih =>
      intro found hf
      obtain ⟨raw, hraw, hf⟩ := bind_eq_ok_iff.1 hf
      obtain ⟨raw', hraw', hr⟩ := h.utf8Bytes hraw
      refine bind_eq_ok_iff.2 ⟨raw', hraw', ?_⟩
      split at hf
      next hc => exact (if_pos ((hname _ _ hr).1 hc)).trans hf
      next hc => exact (if_neg (mt (hname _ _ hr).2 hc)).trans (ih hf)
  obtain ⟨found, hf, hc⟩ := bind_eq_ok_iff.1 hc
  exact bind_eq_ok_iff.2 ⟨found, hfind hf, hc⟩

lemma protects_of_carries {Q : String → Prop} (hm : Protects pool m name)
    (hn : ∀ i, ofInstruction pool i = .ok (some name) → ∃ name', Q name' ∧ ofInstruction pool' i = .ok (some name')) :
    ∃ name', Q name' ∧ Protects pool' m name' := by
  obtain ⟨code, hcode, hfault, hall, i, hi, hname⟩ := protects_iff.1 hm
  obtain ⟨name', hq, hname'⟩ := hn i hname
  refine ⟨name', hq, protects_iff.2 ⟨code, code_of_carries hp hR h hcode, hfault, fun i hi => ?_, i, hi, hname'⟩⟩
  obtain ⟨found, hf⟩ := hall i hi
  exact exists_ofInstruction hp hR h hf

lemma readsFactory_of_carries (hf : readsFactory pool = true) : readsFactory pool' = true := by
  obtain ⟨owner, member, raw, hm, hn, t, rfl⟩ := readsFactory_iff.1 hf
  obtain ⟨i, hi⟩ := Array.mem_iff_getElem?.1 hm
  obtain ⟨d, hd, hcd⟩ := h i _ hi
  obtain ⟨raw', hn', hr⟩ := h.classNameBytes hn
  obtain ⟨t', rfl, -⟩ := (hR _ _ hr).of_keeps hp.forth.path
  cases hcd with
  | other => exact readsFactory_iff.2 ⟨owner, member, _, Array.mem_iff_getElem?.2 ⟨i, hd⟩, hn', List.prefix_append _ _⟩

end Carried

end Methods

end ProtectedClasses

end NamespaceMigration
