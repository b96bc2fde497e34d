import NamespaceMigration.ClassFile.Protection
import NamespaceMigration.Proofs.ClassFile.DescriptorGrammar
import NamespaceMigration.Proofs.Except
import NamespaceMigration.Proofs.Profile.Words

namespace NamespaceMigration

open Profile (Regular dotted Leads Matches)

def Profile.Local (p : Profile) (ok : List Char → Prop) : Prop := ∀ c, p.Avoids c → ∀ a b, ok (a ++ c :: b) → ok a

lemma Profile.local_leads (p : Profile) : p.Local (Leads p.rules) := fun _ hc _ _ h => hc.leads_append_cons.1 h

lemma Profile.local_matches (p : Profile) : p.Local (Matches p.rules) := fun _ hc _ _ h => hc.matches_append_cons.1 h

namespace FieldType

inductive Moved (p : Profile) (ok : List Char → Prop) : FieldType → FieldType → Prop
  | base (type : BaseType) : Moved p ok (base type) (base type)
  | object {name name' : String} (h : p.Moved ok name.toList name'.toList) : Moved p ok (object name) (object name')
  | array {type type' : FieldType} (h : Moved p ok type type') : Moved p ok (array type) (array type')

variable {p : Profile} {ok : List Char → Prop} {s t rest : List Char} {type : FieldType}

lemma head?_ne (hp : p.Regular) {c : Char} (hc : c.isUpper = true ∨ c.isAlphanum = false) :
    (Alphabet.spell p.source : List Char).head? ≠ some c := by
  intro h
  rcases hc with hc | hc
  · simp [hp.heads _ p.source_mem_tokens c h] at hc
  · simp [hp.alphanumeric p.source (by simp) c (List.mem_of_head? h)] at hc

lemma isUpper_letter (b : BaseType) : b.letter.isUpper = true := by cases b <;> decide

lemma take?_of_moved (hp : p.Regular) (hok : p.Local ok) (h : take? s = some (type, rest)) (hm : p.Moved ok s t) :
    ∃ type' rest', take? t = some (type', rest') ∧ Moved p ok type type' ∧ p.Moved ok rest rest' := by
  obtain ⟨hproper, rfl⟩ := take?_eq_some_iff.1 h
  clear h
  induction type generalizing t with
  | base b =>
    obtain ⟨t, rfl, hrest⟩ := hm.of_cons hp.chars (head?_ne hp (.inl (isUpper_letter b)))
    exact ⟨base b, t, take?_writeChars hproper t, .base b, hrest⟩
  | object name =>
    obtain ⟨hne, hname⟩ := hproper
    rw [writeChars, List.append_assoc, List.cons_append] at hm
    obtain ⟨t, rfl, htail⟩ := hm.of_cons hp.chars (head?_ne hp (.inl (by decide)))
    have hav : p.Avoids ';' := hp.alphanumeric.avoids (by decide) (by decide)
    obtain ⟨name', rest', rfl, hmoved, hrest⟩ := htail.of_append_cons hav.source (fun a => hok ';' hav a _)
    have hname' : ';' ∉ name' := by rwa [← hmoved.mem_iff hav.source hav.target]
    have hne' : name' ≠ [] := by
      rintro rfl
      exact hne (by simpa using (hmoved.symm (fun _ _ _ _ => trivial) "").eq_nil (hp.chars.reversedAs ""))
    have hproper' : (object (String.ofList name')).Proper := ⟨by simpa using hne', by simpa using hname'⟩
    exact ⟨object (String.ofList name'), rest', take?_object_iff.2 ⟨_, hproper', by simp, rfl⟩,
      .object (by simpa using hmoved), hrest⟩
  | array element ih =>
    obtain ⟨t, rfl, htail⟩ := hm.of_cons hp.chars (head?_ne hp (.inr (by decide)))
    obtain ⟨element', rest', ht, hmoved, hrest⟩ := ih hproper htail
    exact ⟨.array element', rest', take?_array_iff.2 ⟨element', ht, rfl⟩, .array hmoved, hrest⟩

lemma parse?_of_moved (hp : p.Regular) (hok : p.Local ok) (h : parse? s = some type) (hm : p.Moved ok s t) :
    ∃ type', parse? t = some type' ∧ Moved p ok type type' := by
  rw [parse?] at h
  split at h
  next ht =>
    obtain rfl := Option.some.inj h
    obtain ⟨type', rest', ht', htype, hrest⟩ := take?_of_moved hp hok ht hm
    obtain rfl := hrest.eq_nil hp.chars
    exact ⟨type', by rw [parse?, ht'], htype⟩
  next => cases h

lemma eq_of_parse?_object {name : String} (h : parse? s = some (object name)) : s = 'L' :: name.toList ++ [';'] :=
  (parse?_eq_some_iff.1 h).2

lemma Moved.className {type' : FieldType} {name : String} (hp : p.Regular) (hok : ∀ s, ok s → ok (s.map dotted))
    (h : Moved p ok type type') (hn : type.className = some name) :
    ∃ name', type'.className = some name' ∧ p.Moved ok name.toList name'.toList := by
  have hd : ∀ text : String, (text.map dotted).toList = text.toList.map dotted := fun _ => String.toList_map
  cases h with
  | base => cases hn
  | array => cases hn
  | @object _ name' h =>
    obtain rfl := Option.some.inj hn
    exact ⟨name'.map dotted, rfl, (hd _).symm ▸ (hd name').symm ▸ hp.alphanumeric.moved_map_dotted hok h⟩

end FieldType

namespace MethodDescriptor

variable {p : Profile} {ok : List Char → Prop} {s t rest : List Char} {d : MethodDescriptor}

lemma takeParams_of_moved (hp : p.Regular) (hok : p.Local ok) {acc acc' params : List FieldType}
    (hacc : List.Forall₂ (FieldType.Moved p ok) acc acc') (h : takeParams acc s = some (params, rest)) (hm : p.Moved ok s t) :
    ∃ params' rest', takeParams acc' t = some (params', rest') ∧ List.Forall₂ (FieldType.Moved p ok) params params' ∧
      p.Moved ok rest rest' := by
  obtain ⟨l, rfl, hl, rfl⟩ := takeParams_eq_some_iff.1 h
  clear h
  induction l generalizing t acc acc' with
  | nil =>
    obtain ⟨t, rfl, hrest⟩ := hm.of_cons hp.chars (FieldType.head?_ne hp (.inr (by decide)))
    refine ⟨acc'.reverse, t, takeParams_close acc' t, ?_, hrest⟩
    rw [List.append_nil]
    exact List.forall₂_reverse_iff.2 hacc
  | cons type l ih =>
    obtain ⟨hproper, hl⟩ := List.forall_mem_cons.1 hl
    rw [List.flatMap_cons, List.append_assoc] at hm
    obtain ⟨type', after', htake, htype, hafter⟩ :=
      FieldType.take?_of_moved hp hok (FieldType.take?_writeChars hproper _) hm
    obtain ⟨params', rest', ht, hparams, hrest⟩ := ih (.cons htype hacc) hl hafter
    rw [List.reverse_cons, List.append_assoc] at hparams
    exact ⟨params', rest', (takeParams_of_some htake).trans ht, hparams, hrest⟩

lemma parseResult?_of_moved (hp : p.Regular) (hok : p.Local ok) {result : Option FieldType} (h : parseResult? s = some result)
    (hm : p.Moved ok s t) : ∃ result', parseResult? t = some result' ∧ Option.Rel (FieldType.Moved p ok) result result' := by
  unfold parseResult? at h
  split at h
  next =>
    obtain rfl := Option.some.inj h
    obtain ⟨t, rfl, hrest⟩ := hm.of_cons hp.chars (FieldType.head?_ne hp (.inl (by decide)))
    obtain rfl := hrest.eq_nil hp.chars
    exact ⟨none, rfl, .none⟩
  next =>
    obtain ⟨type, hs, rfl⟩ := Option.map_eq_some_iff.1 h
    obtain ⟨type', ht, htype⟩ := FieldType.parse?_of_moved hp hok hs hm
    refine ⟨some type', ?_, .some htype⟩
    unfold parseResult?
    split
    next => cases ht
    next => rw [ht, Option.map_some]

lemma parse?_of_moved (hp : p.Regular) (hok : p.Local ok) (h : parse? s = some d) (hm : p.Moved ok s t) :
    ∃ d', parse? t = some d' ∧ List.Forall₂ (FieldType.Moved p ok) d.types d'.types := by
  cases s with
  | nil => cases h
  | cons c s =>
    simp only [parse?] at h
    split at h
    next hc =>
      obtain rfl : c = '(' := by simpa using hc
      obtain ⟨⟨params, rest⟩, hparams, h⟩ := Option.bind_eq_some_iff.1 h
      obtain ⟨result, hresult, h⟩ := Option.bind_eq_some_iff.1 h
      obtain rfl := Option.some.inj h
      obtain ⟨t, rfl, hrest⟩ := hm.of_cons hp.chars (FieldType.head?_ne hp (.inr (by decide)))
      obtain ⟨params', rest', hparams', hp', hr'⟩ := takeParams_of_moved hp hok .nil hparams hrest
      obtain ⟨result', hresult', hrel⟩ := parseResult?_of_moved hp hok hresult hr'
      refine ⟨⟨params', result'⟩, by simp [parse?, hparams', hresult'], ?_⟩
      refine List.rel_append hp' ?_
      cases hrel with
      | none => exact .nil
      | some htype => exact .cons htype .nil
    next => cases h

end MethodDescriptor

section References

variable {p : Profile} {symbol symbol' name : String} {type : FieldType}

lemma referencedClasses_of_className (h : FieldType.parse? symbol.toList = some type) (hn : type.className = some name) :
    referencedClasses symbol = [name] := by
  have hhead : symbol.toList.head? = some 'L' := by
    cases type with
    | base => cases hn
    | array => cases hn
    | object text =>
      rw [FieldType.eq_of_parse?_object h]
      rfl
  rw [referencedClasses]
  simp [hhead, h, hn]

lemma mem_referencedClasses_of_moved (hp : p.Regular) (hm : p.Moved (Matches p.rules) symbol.toList symbol'.toList)
    (hf : p.Free name.toList) (hn : name ∈ referencedClasses symbol) : name ∈ referencedClasses symbol' := by
  have hclass : ∀ {type type' : FieldType}, FieldType.Moved p (Matches p.rules) type type' →
      type.className = some name → type'.className = some name := by
    intro type type' htype hname
    obtain ⟨name', hname', hm⟩ := htype.className hp (fun _ h => hp.alphanumeric.matches_map_dotted.2 h) hname
    rw [hname', String.toList_inj.1 (hm.eq_of_free hf)]
  have hnamed := hn
  rw [referencedClasses] at hn
  split at hn
  next => simp at hn
  next hno =>
    split at hn
    next hpar =>
      obtain ⟨s, hs⟩ : ∃ s, symbol.toList = '(' :: s := List.head?_eq_some_iff.1 hpar
      obtain ⟨t, ht, -⟩ := (hs ▸ hm).of_cons hp.chars (FieldType.head?_ne hp (.inr (by decide)))
      split at hn
      next d hd =>
        obtain ⟨type, htype, hname⟩ := List.mem_filterMap.1 hn
        obtain ⟨d', hd', htypes⟩ := MethodDescriptor.parse?_of_moved hp p.local_matches hd hm
        obtain ⟨type', htype', hmoved⟩ := exists_of_forall₂ htypes htype
        rw [referencedClasses]
        have hmem : name ∈ d'.types.filterMap FieldType.className :=
          List.mem_filterMap.2 ⟨type', htype', hclass hmoved hname⟩
        simpa [ht, ht ▸ hd'] using hmem
      next => simp at hn
    next =>
      split at hn
      next type htype =>
        obtain ⟨type', htype', hmoved⟩ := FieldType.parse?_of_moved hp p.local_matches htype hm
        rw [referencedClasses_of_className htype' (hclass hmoved (by simpa using hn))]
        exact List.mem_singleton_self name
      next htype =>
        split at hn
        next =>
          obtain rfl := List.mem_singleton.1 hn
          rw [String.toList_ofList] at hf
          rwa [← String.toList_inj.1 (hm.eq_of_free (hp.alphanumeric.free_map_dotted.1 hf))]
        next => simp at hn

end References

end NamespaceMigration
