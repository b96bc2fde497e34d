import NamespaceMigration.ClassFile.Descriptor
import NamespaceMigration.Proofs.Text.Octets

/-! The grammar of descriptors. -/

namespace NamespaceMigration

namespace FieldType

def Proper : FieldType → Prop
  | base _ => True
  | object name => name ≠ "" ∧ ';' ∉ name.toList
  | array element => element.Proper

variable {s rest : List Char} {type : FieldType} {name : String}

lemma ofLetter?_eq_some_iff {c : Char} {b : BaseType} : BaseType.ofLetter? c = some b ↔ c = b.letter := by
  constructor
  · intro h
    have hc : b.letter = c := by simpa using List.find?_some h
    exact hc.symm
  · rintro rfl
    cases b <;> decide

lemma letter_ne (b : BaseType) : b.letter ≠ '[' ∧ b.letter ≠ 'L' ∧ b.letter ≠ ')' ∧ b.letter ≠ 'V' := by cases b <;> decide

lemma splitFirst?_semicolon_iff {name : List Char} :
    Text.splitFirst? (· == ';') s = some (name, rest) ↔ ';' ∉ name ∧ s = name ++ ';' :: rest := by
  rw [Text.splitFirst?_eq_some_iff]
  constructor
  · rintro ⟨hname, c, hc, rfl⟩
    obtain rfl : c = ';' := by simpa using hc
    exact ⟨fun h => by simpa using hname _ h, rfl⟩
  · rintro ⟨hname, rfl⟩
    exact ⟨fun c hc => beq_false_of_ne (ne_of_mem_of_not_mem hc hname), ';', rfl, rfl⟩

lemma take?_array (s : List Char) : take? ('[' :: s) = (take? s).map fun (element, rest) => (array element, rest) := by
  rw [take?]
  rfl

lemma take?_array_iff :
    take? ('[' :: s) = some (type, rest) ↔ ∃ element, take? s = some (element, rest) ∧ type = array element := by
  rw [take?_array, Option.map_eq_some_iff]
  constructor
  · rintro ⟨⟨element, after⟩, h, he⟩
    obtain ⟨rfl, rfl⟩ := Prod.mk.inj he
    exact ⟨element, h, rfl⟩
  · rintro ⟨element, h, rfl⟩
    exact ⟨_, h, rfl⟩

lemma take?_object (s : List Char) : take? ('L' :: s) = match Text.splitFirst? (· == ';') s with
    | some (name, rest) => if name.isEmpty then none else some (object (String.ofList name), rest)
    | none => none := by
  rw [take?]
  rfl

lemma take?_object_iff : take? ('L' :: s) = some (type, rest) ↔
    ∃ name, (object name).Proper ∧ s = name.toList ++ ';' :: rest ∧ type = object name := by
  rw [take?_object]
  constructor
  · intro h
    split at h
    next name after hs =>
      split at h
      · cases h
      next hne =>
        obtain ⟨rfl, rfl⟩ := Prod.mk.inj (Option.some.inj h)
        obtain ⟨hname, rfl⟩ := splitFirst?_semicolon_iff.1 hs
        have hne : String.ofList name ≠ "" := fun he => hne (by simpa using congrArg String.toList he)
        refine ⟨String.ofList name, ⟨hne, ?_⟩, ?_, rfl⟩
        · rwa [String.toList_ofList]
        · rw [String.toList_ofList]
    next => cases h
  · rintro ⟨name, ⟨hne, hname⟩, rfl, rfl⟩
    have hne : ¬ name.toList.isEmpty := by simpa using hne
    rw [splitFirst?_semicolon_iff.2 ⟨hname, rfl⟩]
    dsimp only
    rw [if_neg hne, String.ofList_toList]

lemma take?_base {c : Char} (ha : c ≠ '[') (ho : c ≠ 'L') (s : List Char) :
    take? (c :: s) = (BaseType.ofLetter? c).map fun type => (base type, s) := by
  rw [take?, if_neg (by simpa using ha), if_neg (by simpa using ho)]

lemma take?_base_iff {c : Char} (ha : c ≠ '[') (ho : c ≠ 'L') :
    take? (c :: s) = some (type, rest) ↔ ∃ b : BaseType, c = b.letter ∧ s = rest ∧ type = base b := by
  rw [take?_base ha ho, Option.map_eq_some_iff]
  constructor
  · rintro ⟨b, hb, he⟩
    obtain ⟨rfl, rfl⟩ := Prod.mk.inj he
    exact ⟨b, ofLetter?_eq_some_iff.1 hb, rfl, rfl⟩
  · rintro ⟨b, hc, rfl, rfl⟩
    exact ⟨b, ofLetter?_eq_some_iff.2 hc, rfl⟩

lemma take?_writeChars (h : type.Proper) (rest : List Char) : take? (type.writeChars ++ rest) = some (type, rest) := by
  induction type with
  | base b => exact (take?_base_iff (letter_ne b).1 (letter_ne b).2.1).2 ⟨b, rfl, rfl, rfl⟩
  | object name => exact take?_object_iff.2 ⟨name, h, by simp, rfl⟩
  | array element ih => exact take?_array_iff.2 ⟨element, ih h, rfl⟩

lemma take?_eq_some_iff : take? s = some (type, rest) ↔ type.Proper ∧ s = type.writeChars ++ rest := by
  constructor
  · intro h
    induction s generalizing type with
    | nil => cases h
    | cons c s ih =>
      by_cases ha : c = '['
      · subst ha
        obtain ⟨element, helement, rfl⟩ := take?_array_iff.1 h
        obtain ⟨hproper, rfl⟩ := ih helement
        exact ⟨hproper, rfl⟩
      by_cases ho : c = 'L'
      · subst ho
        obtain ⟨name, hproper, rfl, rfl⟩ := take?_object_iff.1 h
        exact ⟨hproper, by simp [writeChars]⟩
      · obtain ⟨b, rfl, rfl, rfl⟩ := (take?_base_iff ha ho).1 h
        exact ⟨trivial, rfl⟩
  · rintro ⟨hproper, rfl⟩
    exact take?_writeChars hproper rest

lemma parse?_eq_some_iff : parse? s = some type ↔ type.Proper ∧ s = type.writeChars := by
  have htake : parse? s = some type ↔ take? s = some (type, []) := by
    rw [parse?]
    split
    next h => simp [h]
    next h => simpa using h type
  rw [htake, take?_eq_some_iff, List.append_nil]

lemma parse_eq_ok_iff {text : String} : parse text = .ok type ↔ type.Proper ∧ text.toList = type.writeChars := by
  rw [← parse?_eq_some_iff, parse]
  split
  next h => simp [h]
  next h => simp [h]

lemma eq_of_parse_eq_error {text : String} {e : ClassFault} (h : parse text = .error e) : e = .invalidDescriptor text := by
  rw [parse] at h
  split at h
  next => cases h
  next => exact (Except.error.inj h).symm

end FieldType

namespace MethodDescriptor

def Proper (d : MethodDescriptor) : Prop := ∀ type ∈ d.types, type.Proper

variable {s rest : List Char} {acc params : List FieldType} {result : Option FieldType} {d : MethodDescriptor}

lemma takeParams_close (acc : List FieldType) (s : List Char) : takeParams acc (')' :: s) = some (acc.reverse, s) := by
  rw [takeParams]
  rfl

lemma takeParams_of_some {type : FieldType} (h : FieldType.take? s = some (type, rest)) :
    takeParams acc s = takeParams (type :: acc) rest := by
  cases s with
  | nil => cases h
  | cons c s =>
    have hc : c ≠ ')' := by
      rintro rfl
      obtain ⟨b, hb, -⟩ := (FieldType.take?_base_iff (by decide) (by decide)).1 h
      exact (FieldType.letter_ne b).2.2.1 hb.symm
    rw [takeParams.eq_def]
    dsimp only
    rw [if_neg (by simpa using hc)]
    split
    next h' =>
      obtain ⟨rfl, rfl⟩ := Prod.mk.inj (Option.some.inj (h.symm.trans h'))
      rfl
    next h' => cases h.symm.trans h'

lemma takeParams_of_none (hs : s.head? ≠ some ')') (h : FieldType.take? s = none) : takeParams acc s = none := by
  cases s with
  | nil => rw [takeParams]
  | cons c s =>
    rw [takeParams.eq_def]
    dsimp only
    rw [if_neg (by simpa using hs)]
    split
    next h' => cases h.symm.trans h'
    next => rfl

lemma takeParams_eq_some_iff : takeParams acc s = some (params, rest) ↔ ∃ l, params = acc.reverse ++ l ∧
    (∀ type ∈ l, type.Proper) ∧ s = l.flatMap FieldType.writeChars ++ ')' :: rest := by
  constructor
  · intro h
    induction hn : s.length using Nat.strongRecOn generalizing s acc with
    | ind n ih =>
      by_cases hs : s.head? = some ')'
      · obtain ⟨s, rfl⟩ := List.head?_eq_some_iff.1 hs
        rw [takeParams_close] at h
        obtain ⟨rfl, rfl⟩ := Prod.mk.inj (Option.some.inj h)
        exact ⟨[], by simp, by simp, rfl⟩
      cases ht : FieldType.take? s with
      | none => cases (takeParams_of_none hs ht).symm.trans h
      | some r =>
        obtain ⟨type, after⟩ := r
        rw [takeParams_of_some ht] at h
        obtain ⟨l, rfl, hl, rfl⟩ := ih after.length (hn ▸ FieldType.length_of_take? ht) h rfl
        obtain ⟨hproper, rfl⟩ := FieldType.take?_eq_some_iff.1 ht
        exact ⟨type :: l, by simp, List.forall_mem_cons.2 ⟨hproper, hl⟩, by simp⟩
  · rintro ⟨l, rfl, hl, rfl⟩
    induction l generalizing acc with
    | nil => rw [List.flatMap_nil, List.nil_append, takeParams_close, List.append_nil]
    | cons type l ih =>
      obtain ⟨hproper, hl⟩ := List.forall_mem_cons.1 hl
      rw [List.flatMap_cons, List.append_assoc, takeParams_of_some (FieldType.take?_writeChars hproper _), ih hl]
      simp

def writeResult : Option FieldType → List Char
  | some type => type.writeChars
  | none => ['V']

lemma parseResult?_eq_some_iff :
    parseResult? s = some result ↔ (∀ type ∈ result, type.Proper) ∧ s = writeResult result := by
  have hvoid : FieldType.parse? ['V'] = none := by decide
  rw [parseResult?.eq_def]
  split
  next =>
    cases result with
    | none => simp [writeResult]
    | some type =>
      have hne : ¬ (type.Proper ∧ ['V'] = type.writeChars) := fun h => by
        rw [FieldType.parse?_eq_some_iff.2 h] at hvoid
        cases hvoid
      simpa [writeResult] using hne
  next hs =>
    cases result with
    | none => simpa [writeResult] using hs
    | some type => simp [writeResult, FieldType.parse?_eq_some_iff]

lemma writeChars_eq (d : MethodDescriptor) :
    d.writeChars = '(' :: (d.params.flatMap FieldType.writeChars ++ ')' :: writeResult d.result) := by
  rw [writeChars]
  cases d.result <;> rfl

lemma parse?_eq_some_iff : parse? s = some d ↔ d.Proper ∧ s = d.writeChars := by
  have hproper : d.Proper ↔ (∀ type ∈ d.params, type.Proper) ∧ ∀ type ∈ d.result, type.Proper := by
    simp only [Proper, types, List.mem_append, Option.mem_toList, Option.mem_def, or_imp, forall_and]
  rw [hproper, writeChars_eq]
  cases s with
  | nil => simp [parse?]
  | cons c s =>
    rw [parse?]
    by_cases hc : c = '('
    · subst hc
      rw [if_pos (by decide)]
      simp only [Option.bind_eq_bind, Option.bind_eq_some_iff, Option.pure_def, Option.some.injEq, List.cons.injEq, true_and]
      constructor
      · rintro ⟨⟨params, rest⟩, hparams, result, hresult, rfl⟩
        obtain ⟨l, rfl, hl, rfl⟩ := takeParams_eq_some_iff.1 hparams
        obtain ⟨hr, rfl⟩ := parseResult?_eq_some_iff.1 hresult
        exact ⟨⟨hl, hr⟩, rfl⟩
      · rintro ⟨⟨hl, hr⟩, rfl⟩
        exact ⟨(d.params, writeResult d.result), takeParams_eq_some_iff.2 ⟨d.params, rfl, hl, rfl⟩, d.result,
          parseResult?_eq_some_iff.2 ⟨hr, rfl⟩, rfl⟩
    · rw [if_neg (by simpa using hc)]
      simp [hc]

lemma parse_eq_ok_iff {text : String} : parse text = .ok d ↔ d.Proper ∧ text.toList = d.writeChars := by
  rw [← parse?_eq_some_iff, parse]
  split
  next h => simp [h]
  next h => simp [h]

lemma eq_of_parse_eq_error {text : String} {e : ClassFault} (h : parse text = .error e) : e = .invalidDescriptor text := by
  rw [parse] at h
  split at h
  next => cases h
  next => exact (Except.error.inj h).symm

end MethodDescriptor

end NamespaceMigration
