import NamespaceMigration.Proofs.ClassFile.Repetition

/-! What protection keeps. -/

namespace NamespaceMigration

def FieldType.elementClass : FieldType → Option String
  | array element => element.elementClass
  | type => type.className

namespace ClassFile

open Profile (dotted)
open ProtectedClasses (startsWith)

variable {p : Profile} {c : ClassFile} {source : Bytes} {text name : String} {classOf : FieldType → Option String}

def IsInternalName (s : List Char) : Prop := (∀ mark ∈ ['.', ';', '['], mark ∉ s) ∧ [] ∉ s.splitOnP (· == '/')

/-- Whether a text names a class: by a descriptor with a type that has the class, or as an internal name without
the marks. -/
def Names (classOf : FieldType → Option String) (marks : List Char) (text name : String) : Prop :=
  (∃ type ∈ FieldType.parse? text.toList, name ∈ classOf type) ∨
  (∃ d ∈ MethodDescriptor.parse? text.toList, ∃ type ∈ d.types, name ∈ classOf type) ∨
  IsInternalName text.toList ∧ (∀ mark ∈ marks, mark ∉ text.toList) ∧ name = text.map dotted

instance (s : List Char) : Decidable (IsInternalName s) :=
  have := List.decidableBAll (· ∉ s) ['.', ';', '[']
  inferInstanceAs (Decidable (_ ∧ _))

instance (marks : List Char) : Decidable (Names classOf marks text name) :=
  have := List.decidableBAll (· ∉ text.toList) marks
  inferInstanceAs (Decidable (_ ∨ _ ∨ _))

section References

lemma referencedClasses_of_method {d : MethodDescriptor} (h : MethodDescriptor.parse? text.toList = some d) :
    referencedClasses text = d.types.filterMap FieldType.className := by
  have hhead : text.toList.head? = some '(' := by
    cases hs : text.toList with
    | nil =>
      rw [hs] at h
      cases h
    | cons c s =>
      rw [hs, MethodDescriptor.parse?] at h
      split at h
      next hc => simpa using hc
      next => cases h
  rw [referencedClasses]
  simp [hhead, h]

lemma slash_mem_of_map_dotted {s : List Char} (h : '.' ∈ s.map dotted) (hs : '.' ∉ s) : '/' ∈ s := by
  obtain ⟨x, hx, hxdot⟩ := List.mem_map.1 h
  rw [dotted] at hxdot
  split at hxdot
  next hslash => rwa [← beq_iff_eq.1 hslash]
  next => exact absurd (hxdot ▸ hx) hs

lemma referencedClasses_of_internalName (h : IsInternalName text.toList) (hmarks : ∀ mark ∈ ['(', '<', ' '], mark ∉ text.toList)
    (hs : startsWith "javax.xml." (text.map dotted) = true) : referencedClasses text = [text.map dotted] := by
  obtain ⟨rest, hrest⟩ := ProtectedClasses.startsWith_map_dotted_iff.1 hs
  have hslash : '/' ∈ text.toList := slash_mem_of_map_dotted (by simp [hrest]) (h.1 '.' (by simp))
  -- no type is written with the letter that the text starts with
  obtain ⟨s, hj⟩ : ∃ s, text.toList = 'j' :: s := by
    have hword : "javax.xml.".toList = 'j' :: "avax.xml.".toList := rfl
    cases hs : text.toList with
    | nil => simp [hs] at hrest
    | cons x s =>
      rw [hs, List.map_cons, hword] at hrest
      exact ⟨s, by rw [(Profile.dotted_eq_iff (by decide)).1 (List.cons.inj hrest).1.symm]⟩
  have hparse : FieldType.parse? text.toList = none := by
    rw [hj]
    rfl
  have hplain : text.toList.any (fun x => x == ';' || x == '(' || x == '<' || x == ' ') = false := by
    rw [List.any_eq_false]
    intro x hx
    have hne : ∀ {mark}, mark ∉ text.toList → (x == mark) = false := fun hm => beq_false_of_ne (ne_of_mem_of_not_mem hx hm)
    simp [hne (h.1 ';' (by simp)), hne (hmarks '(' (by simp)), hne (hmarks '<' (by simp)), hne (hmarks ' ' (by simp))]
  have hmap : String.ofList (text.toList.map dotted) = text.map dotted :=
    String.toList_inj.1 (String.toList_ofList.trans String.toList_map.symm)
  rw [referencedClasses, if_neg (by simp [hj]), if_neg (by simp [hj]), hparse]
  simp only [hplain, List.contains_iff_mem, hslash, Bool.not_false, and_self, if_true]
  exact congrArg ([·]) hmap

lemma mem_referencedClasses_of_names (h : Names FieldType.className ['(', '<', ' '] text name)
    (hs : startsWith "javax.xml." name = true) : name ∈ referencedClasses text := by
  rcases h with ⟨type, htype, hname⟩ | ⟨d, hd, type, htype, hname⟩ | ⟨hinternal, hmarks, rfl⟩
  · rw [referencedClasses_of_className htype hname]
    exact List.mem_singleton_self name
  · rw [referencedClasses_of_method hd]
    exact List.mem_filterMap.2 ⟨type, htype, hname⟩
  · rw [referencedClasses_of_internalName hinternal hmarks hs]
    exact List.mem_singleton_self _

lemma startsWith_of_mem_ofClass (h : name ∈ (ProtectedClasses.ofClass c).names) : startsWith "javax.xml." name = true := by
  obtain ⟨-, m, -, hprotects⟩ := ProtectedClasses.mem_ofClass.1 h
  obtain ⟨-, -, -, -, i, -, hi⟩ := ProtectedClasses.protects_iff.1 hprotects
  obtain ⟨-, -, -, -, -, -, -, -, -, hs⟩ := ProtectedClasses.ofInstruction_eq_some_iff.1 hi
  exact hs

end References

/-- Batch conversion leaves each text in its place that names a protected class in a way that protection knows. -/
theorem convert_keeps_names (hc : parse source = .ok c) (hname : name ∈ (ProtectedClasses.ofClass c).names) {path : String}
    {conversion : Conversion} (h : convert p none path source = .ok conversion) :
    ∃ d, (conversion = .kept ∧ d = c ∨ conversion.replacement = some d.toBytes) ∧
      (c.pool.slots.size ≤ 65535 → parse (conversion.bytes source) = .ok d) ∧
      ∀ (i : ℕ) (raw : Bytes) (text : String), c.pool.slots[i]? = some (some (.utf8 raw)) →
        ModifiedUtf8.decode? raw = some text → Names FieldType.className ['(', '<', ' '] text name →
        d.pool.slots[i]? = some (some (.utf8 raw)) := by
  rcases convert_cases hc h with ⟨rfl, -⟩ | ⟨rfl, hparse⟩
  · exact ⟨c, .inl ⟨rfl, rfl⟩, fun _ => hc, fun i raw text hi _ _ => hi⟩
  · refine ⟨patched p c, .inr rfl, hparse, fun i raw text hi ht hn => ?_⟩
    have hreferenced := mem_referencedClasses_of_names hn (startsWith_of_mem_ofClass hname)
    have hprotected : isProtected (.ofClass c) raw = true := isProtected_iff.2 ⟨text, ht, name, hreferenced, hname⟩
    rw [getElem?_patched, hi, Option.map_some, Option.map_some, patchedConstant, if_pos hprotected]

theorem convert_keeps_names_of_method :
    ∃ (p : Profile) (source : Bytes) (c d : ClassFile) (conversion : Conversion), parse source = .ok c ∧
      "javax.xml.namespace.Q" ∈ (ProtectedClasses.ofClass c).names ∧ convert p none "A.class" source = .ok conversion ∧
      conversion.changed = true ∧ parse (conversion.bytes source) = .ok d ∧
      d.pool.slots[12]? = some (some (.utf8 (Bytes.utf8 "([I)Ljavax/xml/namespace/Q;"))) := by
  let p : Profile := ⟨"N", "javax", "jakarta", [Rule.whole "xml"]⟩
  let text := "([I)Ljavax/xml/namespace/Q;"
  let c := factoryReader (Bytes.utf8 "Ljavax/xml/namespace/Q;") (Bytes.utf8 text)
  have hc : parse c.toBytes = .ok c := by decide +kernel
  have hname : "javax.xml.namespace.Q" ∈ (ProtectedClasses.ofClass c).names := by decide +kernel
  have h : convert p none "A.class" c.toBytes = .ok (.replaced (patched p c).toBytes true) := by decide +kernel
  obtain ⟨d, -, hparse, hkept⟩ := convert_keeps_names hc hname h
  refine ⟨p, c.toBytes, c, d, _, hc, hname, h, rfl, hparse (by decide), hkept 12 (Bytes.utf8 text) text ?_ ?_ ?_⟩
  · decide +kernel
  · decide +kernel
  · decide +kernel

section Lost

def namesReader (texts : List String) : ClassFile where
  minor := 0
  major := 52
  pool := ⟨#[none, some (.utf8 (Bytes.utf8 "A")), some (.classInfo 1), some (.utf8 (Bytes.utf8 "javax/xml/xpath/X")),
    some (.classInfo 3), some (.utf8 (Bytes.utf8 "m")), some (.utf8 (Bytes.utf8 "()V")), some (.utf8 (Bytes.utf8 "Code")),
    some (.utf8 (Bytes.utf8 "N")),
    some (.utf8 (Bytes.utf8 "Ljavax/xml/namespace/Q;")), some (.nameAndType 8 9), some (.fieldRef 4 10),
    some (.utf8 (Bytes.utf8 "Ljavax/xml/namespace/Q R;")), some (.nameAndType 8 12), some (.fieldRef 4 13),
    some (.utf8 (Bytes.utf8 "Ljavax/xml/namespace/Q(R;")), some (.nameAndType 8 15), some (.fieldRef 4 16),
    some (.utf8 (Bytes.utf8 "Ljavax/xml/namespace/Q<R;")), some (.nameAndType 8 18), some (.fieldRef 4 19)] ++
    (texts.map fun text => some (.utf8 (Bytes.utf8 text))).toArray⟩
  body := ⟨33, 2, 0, [], [], [⟨9, 5, 6, [⟨7, [0, 1, 0, 0, 0, 0, 0, 17, 0xB2, 0, 11, 0x57, 0xB2, 0, 14, 0x57, 0xB2, 0, 17, 0x57,
    0xB2, 0, 20, 0x57, 0xB1, 0, 0, 0, 0]⟩]⟩], []⟩
  bodyBytes := [0, 33, 0, 2, 0, 0, 0, 0, 0, 0, 0, 1, 0, 9, 0, 5, 0, 6, 0, 1, 0, 7, 0, 0, 0, 29, 0, 1, 0, 0, 0, 0, 0, 17,
    0xB2, 0, 11, 0x57, 0xB2, 0, 14, 0x57, 0xB2, 0, 17, 0x57, 0xB2, 0, 20, 0x57, 0xB1, 0, 0, 0, 0, 0, 0]

def LosesName (c c' : ClassFile) (i : ℕ) (name text text' : String) : Prop :=
  c.pool.slots[i]? = some (some (.utf8 (Bytes.utf8 text))) ∧ ModifiedUtf8.decode? (Bytes.utf8 text) = some text ∧
  c'.pool.slots[i]? = some (some (.utf8 (Bytes.utf8 text'))) ∧ ModifiedUtf8.decode? (Bytes.utf8 text') = some text' ∧
  Names FieldType.elementClass [] text name ∧ ¬ Names FieldType.elementClass [] text' name

instance {c c' : ClassFile} {i : ℕ} {text' : String} : Decidable (LosesName c c' i name text text') :=
  inferInstanceAs (Decidable (_ ∧ _))

/-- Neither the elements of arrays nor names with a mark are found, and conversion takes them away. -/
theorem convert_loses_names :
    ∃ (p : Profile) (source out : Bytes) (c c' : ClassFile), parse source = .ok c ∧ (ProtectedClasses.ofClass c).names =
        ["javax.xml.namespace.Q", "javax.xml.namespace.Q R", "javax.xml.namespace.Q(R", "javax.xml.namespace.Q<R"] ∧
      convert p none "A.class" source = .ok (.replaced out true) ∧ parse out = .ok c' ∧
      LosesName c c' 21 "javax.xml.namespace.Q" "[[Ljavax/xml/namespace/Q;" "[[Ljakarta/xml/namespace/Q;" ∧
      LosesName c c' 22 "javax.xml.namespace.Q" "([Ljavax/xml/namespace/Q;)V" "([Ljakarta/xml/namespace/Q;)V" ∧
      LosesName c c' 23 "javax.xml.namespace.Q R" "javax/xml/namespace/Q R" "jakarta/xml/namespace/Q R" ∧
      LosesName c c' 24 "javax.xml.namespace.Q(R" "javax/xml/namespace/Q(R" "jakarta/xml/namespace/Q(R" ∧
      LosesName c c' 25 "javax.xml.namespace.Q<R" "javax/xml/namespace/Q<R" "jakarta/xml/namespace/Q<R" := by
  let p : Profile := ⟨"N", "javax", "jakarta", [Rule.whole "xml.namespace"]⟩
  let c := namesReader ["[[Ljavax/xml/namespace/Q;", "([Ljavax/xml/namespace/Q;)V", "javax/xml/namespace/Q R",
    "javax/xml/namespace/Q(R", "javax/xml/namespace/Q<R"]
  let c' := namesReader ["[[Ljakarta/xml/namespace/Q;", "([Ljakarta/xml/namespace/Q;)V", "jakarta/xml/namespace/Q R",
    "jakarta/xml/namespace/Q(R", "jakarta/xml/namespace/Q<R"]
  refine ⟨p, c.toBytes, c'.toBytes, c, c', ?_, ?_, ?_, ?_, ?_, ?_, ?_, ?_, ?_⟩ <;> decide +kernel

end Lost

end ClassFile
end NamespaceMigration
