import NamespaceMigration.Proofs.ClassFile.BatchConversion
import NamespaceMigration.Proofs.ClassFile.Protection

namespace NamespaceMigration.ClassFile

open Profile (Careful)
open ProtectedClasses (NamesClass)

variable {p : Profile} {c : ClassFile} {raw raw' source : Bytes} {set set' : ProtectedClasses}

lemma isProtected_iff : isProtected set raw = true ↔
    ∃ text, ModifiedUtf8.decode? raw = some text ∧ ∃ name ∈ referencedClasses text, name ∈ set.names := by
  rw [isProtected]
  cases hd : ModifiedUtf8.decode? raw with
  | none => simp
  | some text =>
    simp only [Bool.and_eq_true, Bool.not_eq_true', List.isEmpty_eq_false_iff, ProtectedClasses.protects, List.any_eq_true,
      Option.some.injEq, exists_eq_left', ProtectedClasses.contains, List.contains_iff_mem]
    constructor
    · rintro ⟨-, -, h⟩
      exact h
    · rintro ⟨name, hn, hs⟩
      exact ⟨List.ne_nil_of_mem hs, List.ne_nil_of_mem hs, name, hn, hs⟩

lemma isProtected_mono (h : ∀ name ∈ set.names, name ∈ set'.names) (hr : isProtected set raw = true) :
    isProtected set' raw = true := by
  obtain ⟨text, ht, name, hn, hs⟩ := isProtected_iff.1 hr
  exact isProtected_iff.2 ⟨text, ht, name, hn, h name hs⟩

lemma isProtected_of_namesClass {name : String} (h : NamesClass raw name) (hs : name ∈ set.names) :
    isProtected set raw = true := by
  obtain ⟨text, type, ht, hp, hn⟩ := h
  exact isProtected_iff.2 ⟨text, ht, name, by rw [referencedClasses_of_className hp hn]; exact List.mem_singleton_self name, hs⟩

def patchedText (p : Profile) (set : ProtectedClasses) (raw : Bytes) : Bytes :=
  if isProtected set raw then raw else p.pass 0 0 raw

lemma patchedText_of_isProtected (h : isProtected set raw = true) : patchedText p set raw = raw := if_pos h

lemma patchedText_of_not_isProtected (h : isProtected set raw = false) : patchedText p set raw = p.pass 0 0 raw :=
  if_neg (by simp [h])

lemma patchedConstant_utf8 (hp : p.Careful) : patchedConstant p set (.utf8 raw) = .utf8 (patchedText p set raw) := by
  rw [patchedConstant, patchedText, hp.regular.octets.value_migrateBytes]

lemma movedText_patchedText (hp : p.Careful) (set : ProtectedClasses) (raw : Bytes) : p.MovedText raw (patchedText p set raw) := by
  rw [patchedText]
  split
  · exact .refl raw
  · exact (hp.regular.octets.moved_pass raw).mono fun _ h => h.leads

lemma getElem?_patched {i : ℕ} (p : Profile) (c : ClassFile) :
    (patched p c).pool.slots[i]? = c.pool.slots[i]?.map (Option.map (patchedConstant p (.ofClass c))) := by
  simp [patched]

section Texts

variable {f : Bytes → Bytes}

def Constant.mapText (f : Bytes → Bytes) : Constant → Constant
  | .utf8 raw => .utf8 (f raw)
  | d => d

def withTexts (f : Bytes → Bytes) (c : ClassFile) : ClassFile :=
  { c with pool := ⟨c.pool.slots.map (Option.map (Constant.mapText f))⟩ }

lemma withTexts_withTexts (f g : Bytes → Bytes) (c : ClassFile) : (c.withTexts g).withTexts f = c.withTexts (f ∘ g) := by
  have hconstant : Constant.mapText f ∘ Constant.mapText g = Constant.mapText (f ∘ g) := by
    funext d
    cases d <;> rfl
  simp only [withTexts, Array.map_map, Option.map_comp_map, hconstant]

lemma withTexts_eq_self (h : ∀ raw, some (.utf8 raw) ∈ c.pool.slots → f raw = raw) : c.withTexts f = c := by
  have hslot : ∀ slot ∈ c.pool.slots, slot.map (Constant.mapText f) = slot := by
    intro slot hm
    cases slot with
    | none => rfl
    | some d =>
      cases d with
      | utf8 raw => rw [Option.map_some, Constant.mapText, h raw hm]
      | _ => rfl
  have hslots : c.pool.slots.map (Option.map (Constant.mapText f)) = c.pool.slots :=
    (Array.map_congr_left hslot).trans (Array.map_id _)
  rw [withTexts, hslots]

lemma patched_eq_withTexts (hp : p.Careful) (c : ClassFile) : patched p c = c.withTexts (patchedText p (.ofClass c)) := by
  have hconstant : patchedConstant p (.ofClass c) = Constant.mapText (patchedText p (.ofClass c)) := by
    funext d
    cases d with
    | utf8 raw => exact patchedConstant_utf8 hp
    | _ => rfl
  rw [patched, withTexts, hconstant]

end Texts

lemma carries_patched (hp : p.Careful) (c : ClassFile) :
    c.pool.Carries (fun raw raw' => raw' = patchedText p (.ofClass c) raw) (patched p c).pool := by
  intro i d hd
  refine ⟨patchedConstant p (.ofClass c) d, by rw [getElem?_patched, hd]; rfl, ?_⟩
  cases d with
  | utf8 raw =>
    rw [patchedConstant_utf8 hp]
    exact .text rfl
  | _ => exact .other (fun _ => nofun)

theorem names_subset_patched (hp : p.Careful) {name : String} (h : name ∈ (ProtectedClasses.ofClass c).names) :
    name ∈ (ProtectedClasses.ofClass (patched p c)).names := by
  have hcarries := carries_patched hp c
  have hmoved : ∀ raw raw', raw' = patchedText p (.ofClass c) raw → p.MovedText raw raw' := by
    rintro raw _ rfl
    exact movedText_patchedText hp _ raw
  obtain ⟨hfactory, m, hm, hprotects⟩ := ProtectedClasses.mem_ofClass.1 h
  refine ProtectedClasses.mem_ofClass.2 ⟨ProtectedClasses.readsFactory_of_carries hp hmoved hcarries hfactory, m, hm, ?_⟩
  obtain ⟨name', rfl, hprotects'⟩ := ProtectedClasses.protects_of_carries (Q := (name = ·)) hp hmoved hcarries hprotects
    fun i hi => by
      obtain ⟨hstart, raw, raw', rfl, hnames, hfound⟩ := ProtectedClasses.ofInstruction_of_carries hp hmoved hcarries hi
      refine ⟨name, rfl, hfound name ?_ hstart⟩
      rwa [patchedText_of_isProtected (isProtected_of_namesClass hnames h)]
  exact hprotects'

lemma not_changed_patched (hp : p.Careful) (h : IsOpen (patched p c) raw) : (p.migrateBytes raw).changed = false := by
  obtain ⟨hm, hopen⟩ := h
  obtain ⟨i, hi⟩ := Array.mem_iff_getElem?.1 hm
  rw [getElem?_patched] at hi
  obtain ⟨slot, hs, hslot⟩ := Option.map_eq_some_iff.1 hi
  obtain ⟨d, rfl, hd⟩ := Option.map_eq_some_iff.1 hslot
  cases d with
  | utf8 text =>
    rw [patchedConstant_utf8 hp, Constant.utf8.injEq] at hd
    cases ht : isProtected (.ofClass c) text with
    | true =>
      rw [patchedText_of_isProtected ht] at hd
      rw [← hd, isProtected_mono (fun name => names_subset_patched hp) ht] at hopen
      cases hopen
    | false =>
      rw [patchedText_of_not_isProtected ht] at hd
      have hfree := hp.regular.octets.free_pass text
      rw [hd] at hfree
      simpa [Bool.eq_false_iff, hp.regular.octets.changed_migrateBytes_iff] using hfree
  | _ => cases hd

lemma convert_cases (hc : parse source = .ok c) {path : String} {conversion : Conversion}
    (h : convert p none path source = .ok conversion) :
    conversion = .kept ∧ (∀ raw, IsOpen c raw → (p.migrateBytes raw).changed = false) ∨
      conversion = .replaced (patched p c).toBytes true ∧
        (c.pool.slots.size ≤ 65535 → parse (patched p c).toBytes = .ok (patched p c)) := by
  cases hp : p.isTrivial with
  | true =>
    refine .inl ⟨((convert_eq_ok_iff_of_isTrivial hp).1 h).2, fun raw _ => ?_⟩
    rw [Profile.migrateBytes, Profile.migrateSymbols_of_isTrivial hp]
  | false =>
    have ho : ¬ ∃ raw, IsOpen c raw ∧ 65535 < (p.migrateBytes raw).value.length := by
      intro ho
      obtain ⟨n, hf⟩ := convert_eq_error hc hp path ho
      rw [hf] at h
      cases h
    obtain ⟨hkept, hreplaced⟩ := convert_eq_ok hc hp path ho
    by_cases hch : ∃ raw, IsOpen c raw ∧ (p.migrateBytes raw).changed = true
    · refine .inr ⟨Except.ok.inj (h.symm.trans (hreplaced hch)), fun hn => ?_⟩
      exact parse_patched hc hn fun raw hm hr => ho ((exists_outgrows_iff hc).1 ⟨raw, hm, hr⟩)
    · refine .inl ⟨Except.ok.inj (h.symm.trans (hkept hch)), fun raw hr => ?_⟩
      by_contra hne
      exact hch ⟨raw, hr, by simpa using hne⟩

lemma convert_eq_kept (hc : parse source = .ok c) (hp : p.isTrivial = false) (path : String)
    (h : ∀ raw, IsOpen c raw → (p.migrateBytes raw).changed = false) : convert p none path source = .ok .kept := by
  obtain ⟨cs, hh⟩ := exists_holds_of_parse hc
  refine (convert_eq_ok hc hp path ?_).1 ?_
  · rintro ⟨raw, hr, hlong⟩
    have hle := length_le_of_mem_slots hh hr.1
    rw [value_eq_of_not_changed (h raw hr)] at hlong
    omega
  · rintro ⟨raw, hr, hch⟩
    rw [h raw hr] at hch
    cases hch

lemma convert_eq_kept_of_convert (hp : p.Careful) (hc : parse source = .ok c) (hn : c.pool.slots.size ≤ 65535) {path : String}
    {conversion : Conversion} (h : convert p none path source = .ok conversion) (path' : String) :
    convert p none path' (conversion.bytes source) = .ok .kept := by
  have htrivial := hp.regular.octets.isTrivial_eq_false
  rcases convert_cases hc h with ⟨rfl, hfixed⟩ | ⟨rfl, hparse⟩
  · exact convert_eq_kept hc htrivial path' hfixed
  · exact convert_eq_kept (hparse hn) htrivial path' fun raw => not_changed_patched hp

/-- What batch conversion by a built-in profile gives is kept by the next conversion, and every text that was
protected stands where it stood and is protected again. -/
theorem convert_convert (b : BuiltIn) (path path' : String) (hc : parse source = .ok c) (hn : c.pool.slots.size ≤ 65535)
    {conversion : Conversion} (h : convert b.profile none path source = .ok conversion) :
    convert b.profile none path' (conversion.bytes source) = .ok .kept ∧
    ∃ c', parse (conversion.bytes source) = .ok c' ∧
      ∀ (i : ℕ) (raw : Bytes), c.pool.slots[i]? = some (some (.utf8 raw)) → isProtected (.ofClass c) raw = true →
        c'.pool.slots[i]? = some (some (.utf8 raw)) ∧ isProtected (.ofClass c') raw = true := by
  have hp := Profile.careful_builtIn b
  refine ⟨convert_eq_kept_of_convert hp hc hn h path', ?_⟩
  rcases convert_cases hc h with ⟨rfl, -⟩ | ⟨rfl, hparse⟩
  · exact ⟨c, hc, fun i raw hi hr => ⟨hi, hr⟩⟩
  · refine ⟨_, hparse hn, fun i raw hi hr => ⟨?_, isProtected_mono (fun name => names_subset_patched hp) hr⟩⟩
    rw [getElem?_patched, hi, Option.map_some, Option.map_some, patchedConstant_utf8 hp, patchedText_of_isProtected hr]

def factoryReader (descriptor text : Bytes) : ClassFile where
  minor := 0
  major := 52
  pool := ⟨#[none, some (.utf8 (Bytes.utf8 "A")), some (.classInfo 1), some (.utf8 (Bytes.utf8 "javax/xml/xpath/X")),
    some (.classInfo 3), some (.utf8 (Bytes.utf8 "N")), some (.utf8 descriptor), some (.nameAndType 5 6),
    some (.fieldRef 4 7), some (.utf8 (Bytes.utf8 "m")), some (.utf8 (Bytes.utf8 "()V")), some (.utf8 (Bytes.utf8 "Code")),
    some (.utf8 text)]⟩
  body := ⟨33, 2, 0, [], [], [⟨9, 9, 10, [⟨11, [0, 1, 0, 0, 0, 0, 0, 5, 0xB2, 0, 8, 0x57, 0xB1, 0, 0, 0, 0]⟩]⟩], []⟩
  bodyBytes := [0, 33, 0, 2, 0, 0, 0, 0, 0, 0, 0, 1, 0, 9, 0, 9, 0, 10, 0, 1, 0, 11, 0, 0, 0, 17, 0, 1, 0, 0, 0, 0, 0, 5,
    0xB2, 0, 8, 0x57, 0xB1, 0, 0, 0, 0, 0, 0]

theorem convert_convert_of_binding :
    ∃ source c conversion, parse source = .ok c ∧ c.pool.slots.size ≤ 65535 ∧
      convert BuiltIn.ee.profile none "A.class" source = .ok conversion ∧ conversion.changed = true ∧
      convert BuiltIn.ee.profile none "A.class" (conversion.bytes source) = .ok .kept ∧
      ∃ c', parse (conversion.bytes source) = .ok c' ∧
        c'.pool.slots[6]? = some (some (.utf8 (Bytes.utf8 "Ljavax/xml/bind/B;"))) ∧
        isProtected (.ofClass c') (Bytes.utf8 "Ljavax/xml/bind/B;") = true := by
  let descriptor := Bytes.utf8 "Ljavax/xml/bind/B;"
  let c := factoryReader descriptor (Bytes.utf8 "javax/xml/bind/C")
  let c' := factoryReader descriptor (Bytes.utf8 "jakarta/xml/bind/C")
  have hc : parse c.toBytes = .ok c := by decide +kernel
  have hn : c.pool.slots.size ≤ 65535 := by decide
  have h : convert BuiltIn.ee.profile none "A.class" c.toBytes = .ok (.replaced c'.toBytes true) := by decide +kernel
  have hi : c.pool.slots[6]? = some (some (.utf8 descriptor)) := by decide +kernel
  have hr : isProtected (.ofClass c) descriptor = true := by decide +kernel
  obtain ⟨hkept, d, hd, hslots⟩ := convert_convert .ee "A.class" "A.class" hc hn h
  exact ⟨c.toBytes, c, _, hc, hn, h, rfl, hkept, d, hd, hslots 6 descriptor hi hr⟩

end NamespaceMigration.ClassFile
