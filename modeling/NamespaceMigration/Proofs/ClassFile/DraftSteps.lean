import NamespaceMigration.Proofs.ClassFile.Drafts

/-! Drafts made step by step. -/

namespace NamespaceMigration

inductive DraftStep where
  | withSuper (name : String)
  | addInterface (name : String)
  | addField (access : UInt16) (name descriptor : String)
  | addMethod (access : UInt16) (name descriptor : String)
  | addInstruction (i : DraftInstruction)
  | withSourceFile (name : String)
  | addLong (value : Int64)
  deriving DecidableEq, Repr

namespace DraftStep

def texts : DraftStep → List String
  | withSuper name => [name]
  | addInterface name => [name]
  | addField _ name descriptor => [name, descriptor]
  | addMethod _ name descriptor => [name, descriptor]
  | addInstruction i => i.texts
  | withSourceFile name => [name]
  | addLong _ => []

def superName? : DraftStep → Option String
  | withSuper name => some name
  | _ => none

def interface? : DraftStep → Option String
  | addInterface name => some name
  | _ => none

def field? : DraftStep → Option DraftMember
  | addField access name descriptor => some ⟨access, name, descriptor, none⟩
  | _ => none

def source? : DraftStep → Option String
  | withSourceFile name => some name
  | _ => none

def superName (steps : List DraftStep) : String := (steps.filterMap superName?).getLastD "java/lang/Object"

def interfaces (steps : List DraftStep) : List String := steps.filterMap interface?

def fields (steps : List DraftStep) : List DraftMember := steps.filterMap field?

def source (steps : List DraftStep) : Option String := (steps.filterMap source?).getLast?

def parts : List DraftStep → List DraftInstruction × List DraftMember
  | [] => ([], [])
  | addInstruction i :: steps => (i :: (parts steps).1, (parts steps).2)
  | addMethod access name descriptor :: steps => ([], ⟨access, name, descriptor, some (parts steps).1⟩ :: (parts steps).2)
  | _ :: steps => parts steps

def methods (steps : List DraftStep) : List DraftMember :=
  if (parts steps).1 = [] then (parts steps).2 else ⟨0x0009, "run", "()V", some (parts steps).1⟩ :: (parts steps).2

end DraftStep

namespace ClassDraft

def step (d : ClassDraft) : DraftStep → ClassDraft
  | .withSuper name => d.withSuper name
  | .addInterface name => d.addInterface name
  | .addField access name descriptor => d.addField access name descriptor
  | .addMethod access name descriptor => d.addMethod access name descriptor
  | .addInstruction i => d.addInstruction i
  | .withSourceFile name => d.withSourceFile name
  | .addLong value => d.addLong value

def ofSteps (name : String) (steps : List DraftStep) : ClassDraft := steps.foldl step (ofName name)

variable {d : ClassDraft} {i : DraftInstruction} {s : DraftStep} {steps : List DraftStep} {name : String}

lemma addInstruction_of_nil (h : d.methods = []) (i : DraftInstruction) :
    d.addInstruction i = { d with methods := [⟨0x0009, "run", "()V", some [i]⟩] } := by
  simp [addInstruction, h, addMethod]

lemma addInstruction_of_concat {before : List DraftMember} {m : DraftMember} (h : d.methods = before ++ [m])
    (i : DraftInstruction) :
    d.addInstruction i = { d with methods := before ++ [{ m with code := m.code.map (· ++ [i]) }] } := by
  simp [addInstruction, h]

lemma exists_addInstruction (d : ClassDraft) (i : DraftInstruction) :
    ∃ methods, d.addInstruction i = { d with methods := methods } := by
  rcases List.eq_nil_or_concat' d.methods with h | ⟨before, m, h⟩
  · exact ⟨_, addInstruction_of_nil h i⟩
  · exact ⟨_, addInstruction_of_concat h i⟩

lemma foldl_step (d : ClassDraft) (steps : List DraftStep) :
    (steps.foldl step d).thisClass = d.thisClass ∧
    (steps.foldl step d).superClass = (steps.filterMap DraftStep.superName?).getLastD d.superClass ∧
    (steps.foldl step d).interfaces = d.interfaces ++ DraftStep.interfaces steps ∧
    (steps.foldl step d).fields = d.fields ++ DraftStep.fields steps ∧
    (steps.foldl step d).sourceFile = (DraftStep.source steps).or d.sourceFile := by
  induction steps generalizing d with
  | nil => simp [DraftStep.interfaces, DraftStep.fields, DraftStep.source]
  | cons s steps ih =>
    obtain ⟨hthis, hsuper, hinterfaces, hfields, hsource⟩ := ih (d.step s)
    rw [List.foldl_cons, hthis, hsuper, hinterfaces, hfields, hsource]
    cases s with
    | withSuper name => exact ⟨rfl, List.getLastD_cons.symm, rfl, rfl, rfl⟩
    | addInterface name => exact ⟨rfl, rfl, List.append_assoc _ _ _, rfl, rfl⟩
    | addField access name descriptor => exact ⟨rfl, rfl, rfl, List.append_assoc _ _ _, rfl⟩
    | addInstruction i =>
      obtain ⟨methods, h⟩ := exists_addInstruction d i
      rw [step, h]
      exact ⟨rfl, rfl, rfl, rfl, rfl⟩
    | withSourceFile name =>
      refine ⟨rfl, rfl, rfl, rfl, ?_⟩
      simp only [DraftStep.source, List.filterMap_cons, DraftStep.source?, step, withSourceFile, List.getLast?_cons]
      cases (steps.filterMap DraftStep.source?).getLast? <;> rfl
    | _ => exact ⟨rfl, rfl, rfl, rfl, rfl⟩

lemma methods_of_concat {before : List DraftMember} {m : DraftMember} {is : List DraftInstruction}
    (h : d.methods = before ++ [m]) (hm : m.code = some is) : (steps.foldl step d).methods =
      before ++ { m with code := some (is ++ (DraftStep.parts steps).1) } :: (DraftStep.parts steps).2 := by
  induction steps generalizing d before m is with
  | nil => simp [DraftStep.parts, h, ← hm]
  | cons s steps ih =>
    rw [List.foldl_cons]
    cases s with
    | addMethod access name descriptor =>
      have hadded : (d.addMethod access name descriptor).methods = (before ++ [m]) ++ [⟨access, name, descriptor, some []⟩] := by
        rw [addMethod, h]
      rw [step, ih hadded rfl, DraftStep.parts]
      simp [← hm]
    | addInstruction i =>
      have hadded : (d.addInstruction i).methods = before ++ [{ m with code := m.code.map (· ++ [i]) }] := by
        rw [addInstruction_of_concat h]
      have hcode : m.code.map (· ++ [i]) = some (is ++ [i]) := by rw [hm, Option.map_some]
      rw [step, ih hadded hcode, DraftStep.parts]
      simp
    | _ => exact ih h hm

lemma methods_of_nil (h : d.methods = []) : (steps.foldl step d).methods = DraftStep.methods steps := by
  induction steps generalizing d with
  | nil => exact h
  | cons s steps ih =>
    rw [List.foldl_cons]
    cases s with
    | addMethod access name descriptor =>
      have hadded : (d.addMethod access name descriptor).methods = [] ++ [⟨access, name, descriptor, some []⟩] := by
        rw [addMethod, h]
      rw [step, methods_of_concat hadded rfl]
      rfl
    | addInstruction i =>
      have hadded : (d.addInstruction i).methods = [] ++ [⟨0x0009, "run", "()V", some [i]⟩] := by
        rw [addInstruction_of_nil h, List.nil_append]
      rw [step, methods_of_concat hadded rfl]
      rfl
    | _ => exact ih h

lemma sound_foldl_step (hd : d.pool.Sound) : (steps.foldl step d).pool.Sound := by
  induction steps generalizing d with
  | nil => exact hd
  | cons s steps ih =>
    rw [List.foldl_cons]
    refine ih ?_
    cases s with
    | addInstruction i =>
      obtain ⟨methods, h⟩ := exists_addInstruction d i
      rw [step, h]
      exact hd
    | addLong value => exact (Lays.intern (c := .long value) trivial).sound d.pool hd
    | _ => exact hd

lemma prefix_step (d : ClassDraft) (s : DraftStep) : d.pool.constants.toList <+: (d.step s).pool.constants.toList := by
  cases s with
  | addInstruction i =>
    obtain ⟨methods, h⟩ := exists_addInstruction d i
    rw [step, h]
  | addLong value => exact (Lays.intern (c := .long value) trivial).adds d.pool
  | _ => exact List.prefix_rfl

lemma prefix_foldl_step (d : ClassDraft) (steps : List DraftStep) :
    d.pool.constants.toList <+: (steps.foldl step d).pool.constants.toList := by
  induction steps generalizing d with
  | nil => exact List.prefix_rfl
  | cons s steps ih => exact (prefix_step d s).trans (ih (d.step s))

lemma long_mem_foldl_step {value : Int64} (h : .addLong value ∈ steps) :
    .long value ∈ (steps.foldl step d).pool.constants.toList := by
  obtain ⟨before, after, rfl⟩ := List.append_of_mem h
  rw [List.foldl_append, List.foldl_cons]
  exact (prefix_foldl_step _ after).subset (PoolDraft.mem_intern _ _)

lemma forall_mem_texts {p : String → Prop} : (∀ t ∈ d.texts, p t) ↔ p d.thisClass ∧ p d.superClass ∧
    (∀ t ∈ d.interfaces, p t) ∧ (∀ m ∈ d.fields, ∀ t ∈ m.texts, p t) ∧ (∀ m ∈ d.methods, ∀ t ∈ m.texts, p t) ∧
    ∀ t ∈ d.sourceFile, p t := by
  simp only [texts, List.cons_append, List.forall_mem_cons, List.forall_mem_append, List.flatMap_append,
    List.forall_mem_flatMap, Option.mem_toList, Option.mem_def, and_assoc]

lemma short_step (hd : ∀ t ∈ d.texts, IsShort t) (hs : ∀ t ∈ s.texts, IsShort t) : ∀ t ∈ (d.step s).texts, IsShort t := by
  rw [forall_mem_texts] at hd ⊢
  obtain ⟨hthis, hsuper, hinterfaces, hfields, hmethods, hsource⟩ := hd
  cases s with
  | withSuper name => exact ⟨hthis, hs name (by simp [DraftStep.texts]), hinterfaces, hfields, hmethods, hsource⟩
  | addInterface name =>
    refine ⟨hthis, hsuper, List.forall_mem_append.2 ⟨hinterfaces, ?_⟩, hfields, hmethods, hsource⟩
    simpa using hs name (by simp [DraftStep.texts])
  | addField access name descriptor =>
    refine ⟨hthis, hsuper, hinterfaces, List.forall_mem_append.2 ⟨hfields, ?_⟩, hmethods, hsource⟩
    simpa [DraftMember.texts, DraftStep.texts] using hs
  | addMethod access name descriptor =>
    refine ⟨hthis, hsuper, hinterfaces, hfields, List.forall_mem_append.2 ⟨hmethods, ?_⟩, hsource⟩
    simpa [DraftMember.texts, DraftStep.texts] using hs
  | addInstruction i =>
    have hi : ∀ t ∈ i.texts, IsShort t := hs
    rcases List.eq_nil_or_concat' d.methods with h | ⟨before, m, h⟩
    · have hrun : IsShort "run" := by decide +kernel
      have hvoid : IsShort "()V" := by decide +kernel
      rw [step, addInstruction_of_nil h]
      refine ⟨hthis, hsuper, hinterfaces, hfields, ?_, hsource⟩
      simpa [DraftMember.texts, hrun, hvoid] using hi
    · rw [h, List.forall_mem_append] at hmethods
      rw [step, addInstruction_of_concat h]
      refine ⟨hthis, hsuper, hinterfaces, hfields, List.forall_mem_append.2 ⟨hmethods.1, ?_⟩, hsource⟩
      have hm := hmethods.2 m (by simp)
      obtain ⟨access, name, descriptor, code⟩ := m
      cases code with
      | none => simpa [DraftMember.texts] using hm
      | some is =>
        simp only [DraftMember.texts, Option.getD_some, List.forall_mem_cons, List.forall_mem_flatMap] at hm
        simpa [DraftMember.texts, or_imp, forall_and, hm.1, hm.2.1] using
          ⟨fun t i hi ht => hm.2.2 i hi t ht, hi⟩
  | withSourceFile name =>
    refine ⟨hthis, hsuper, hinterfaces, hfields, hmethods, ?_⟩
    simpa [step, ClassDraft.withSourceFile, DraftStep.texts] using hs
  | addLong value => exact ⟨hthis, hsuper, hinterfaces, hfields, hmethods, hsource⟩

lemma short_foldl_step (hd : ∀ t ∈ d.texts, IsShort t) (hs : ∀ t ∈ steps.flatMap DraftStep.texts, IsShort t) :
    ∀ t ∈ (steps.foldl step d).texts, IsShort t := by
  induction steps generalizing d with
  | nil => exact hd
  | cons s steps ih =>
    rw [List.flatMap_cons] at hs
    exact ih (short_step hd fun t ht => hs t (List.mem_append_left _ ht)) fun t ht => hs t (List.mem_append_right _ ht)

end ClassDraft

/-- Whether the texts of some steps can be constants and whether no number of what is laid out for them exceeds its field. -/
structure DraftStep.Fit (name : String) (steps : List DraftStep) : Prop where
  texts : ∀ t ∈ name :: steps.flatMap DraftStep.texts, IsShort t
  codes : ∀ m ∈ methods steps, m.CodeFits
  interfaces : (interfaces steps).length < 65536
  fields : (fields steps).length < 65536
  methods : (methods steps).length < 65536
  slots : ((ClassDraft.ofSteps name steps).layOutBody (ClassDraft.ofSteps name steps).pool).2.slots + 1 < 65536

namespace ClassDraft

variable {name : String} {steps : List DraftStep}

variable (name steps) in
lemma ofSteps_eq : (ofSteps name steps).thisClass = name ∧ (ofSteps name steps).superClass = DraftStep.superName steps ∧
    (ofSteps name steps).interfaces = DraftStep.interfaces steps ∧ (ofSteps name steps).fields = DraftStep.fields steps ∧
    (ofSteps name steps).methods = DraftStep.methods steps ∧ (ofSteps name steps).sourceFile = DraftStep.source steps := by
  obtain ⟨hthis, hsuper, hinterfaces, hfields, hsource⟩ := foldl_step (ofName name) steps
  exact ⟨hthis, hsuper, hinterfaces, hfields, methods_of_nil rfl, hsource.trans (Option.or_none)⟩

lemma fits_ofSteps (h : DraftStep.Fit name steps) : (ofSteps name steps).Fits := by
  obtain ⟨hthis, hsuper, hinterfaces, hfields, hmethods, hsource⟩ := ofSteps_eq name steps
  have hobject : IsShort "java/lang/Object" := by decide +kernel
  refine ⟨short_foldl_step ?_ ?_, List.forall_mem_append.2 ⟨fun m hm => ?_, ?_⟩, ?_, ?_, ?_, h.slots⟩
  · simpa [texts, ofName, hobject] using h.texts name (by simp)
  · exact fun t ht => h.texts t (List.mem_cons_of_mem _ ht)
  · -- fields have no code
    rw [hfields] at hm
    obtain ⟨s, -, hs⟩ := List.mem_filterMap.1 hm
    cases s with
    | addField =>
      obtain rfl := Option.some.inj hs
      rintro is ⟨⟩
    | _ => cases hs
  · exact hmethods ▸ h.codes
  · exact hinterfaces ▸ h.interfaces
  · exact hfields ▸ h.fields
  · exact hmethods ▸ h.methods

/-- A draft of steps that fit is laid out as a class file that is read as the class they speak of: it has the names given
and the members in order, each method with its instructions and a return behind them, and each number in these leads to the
field or text given. No constant is there twice, and the class file is written as it was. -/
theorem parse_toBytes_ofSteps (h : DraftStep.Fit name steps) :
    ∃ c, ClassFile.parse (ofSteps name steps).toBytes = .ok c ∧ c.thisName = .ok name ∧
      c.pool.className c.body.superClass = .ok (DraftStep.superName steps) ∧
      List.Forall₂ (fun name i => c.pool.className i = .ok name) (DraftStep.interfaces steps) c.body.interfaces ∧
      List.Forall₂ (DraftMember.Describes c.pool) (DraftStep.fields steps) c.body.fields ∧
      List.Forall₂ (DraftMember.Describes c.pool) (DraftStep.methods steps) c.body.methods ∧
      HasSource c.pool c.body.attributes (DraftStep.source steps) ∧
      (∀ value, .addLong value ∈ steps → some (.long value) ∈ c.pool.slots) ∧
      (c.pool.slots.toList.filterMap id).Nodup ∧ c.toBytes = (ofSteps name steps).toBytes := by
  obtain ⟨hthis, hsuper, hinterfaces, hfields, hmethods, hsource⟩ := ofSteps_eq name steps
  have hsound : (ofSteps name steps).pool.Sound := sound_foldl_step ⟨by simp [ofName], by simp [ofName]⟩
  obtain ⟨c, hparse, hbytes, hnodup, hconstants, hdescribes⟩ := exists_parse_toBytes (fits_ofSteps h) hsound
  obtain ⟨-, hthis', hsuper', hinterfaces', hfields', hmethods', hsource'⟩ := hdescribes
  rw [hthis] at hthis'
  rw [hsuper] at hsuper'
  rw [hinterfaces] at hinterfaces'
  rw [hfields] at hfields'
  rw [hmethods] at hmethods'
  rw [hsource] at hsource'
  exact ⟨c, hparse, hthis', hsuper', hinterfaces', hfields', hmethods', hsource',
    fun value hv => hconstants _ (long_mem_foldl_step hv), hnodup, hbytes⟩

theorem parse_toBytes_of_implied_run :
    let steps : List DraftStep := [.addInstruction (.ldc "text"), .addLong 7, .withSuper "B", .addField 1 "f" "LB;",
      .addMethod 1 "m" "()V", .addLong 7, .addInstruction (.getstatic "A" "f" "LB;"), .addInstruction (.raw [0]),
      .withSuper "C", .addInterface "I", .withSourceFile "Größe"]
    DraftStep.methods steps = [⟨9, "run", "()V", some [.ldc "text"]⟩, ⟨1, "m", "()V", some [.getstatic "A" "f" "LB;", .raw [0]]⟩] ∧
    DraftStep.Fit "A" steps ∧ ∃ c, ClassFile.parse (ofSteps "A" steps).toBytes = .ok c ∧ c.thisName = .ok "A" ∧
      c.pool.className c.body.superClass = .ok "C" ∧ c.toBytes = (ofSteps "A" steps).toBytes := by
  intro steps
  have hmethods : DraftStep.methods steps =
      [⟨9, "run", "()V", some [.ldc "text"]⟩, ⟨1, "m", "()V", some [.getstatic "A" "f" "LB;", .raw [0]]⟩] := by rfl
  have hfit : DraftStep.Fit "A" steps := by
    refine ⟨by decide +kernel, ?_, by decide, by decide, by decide, by decide +kernel⟩
    rw [hmethods]
    simp [DraftMember.CodeFits, DraftInstruction.size]
  obtain ⟨c, hparse, hthis, hsuper, -, -, -, -, -, -, hbytes⟩ := parse_toBytes_ofSteps hfit
  exact ⟨hmethods, hfit, c, hparse, hthis, hsuper, hbytes⟩

end ClassDraft

end NamespaceMigration
