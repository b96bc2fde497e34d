import NamespaceMigration.Proofs.ClassFile.Repetition
import NamespaceMigration.Proofs.ClassFile.ShortAscii
import NamespaceMigration.Proofs.ClassFile.Writing

/-! The way there and back. -/

namespace NamespaceMigration.ClassFile

open Profile (Careful Leads Matches dotted)
open ProtectedClasses (NamesClass startsWith)
open ModifiedUtf8 (ShortAscii Short)

variable {p : Profile} {c : ClassFile} {raw raw' source : Bytes} {name back : String}

section Names

lemma exists_namesClass (hp : p.Careful) (hm : p.MovedText raw raw') (h : NamesClass raw name) :
    ∃ name', NamesClass raw' name' ∧ p.Moved (Leads p.rules) name.toList name'.toList := by
  obtain ⟨text, type, ht, hparse, hn⟩ := h
  obtain ⟨text', ht', hmoved⟩ := hm.decode hp.regular ht
  obtain ⟨type', hparse', htype⟩ := FieldType.parse?_of_moved hp.regular p.local_leads hparse hmoved
  obtain ⟨name', hn', hname⟩ := htype.className hp.regular (fun _ h => hp.regular.alphanumeric.leads_map_dotted.2 h) hn
  exact ⟨name', ⟨text', type', ht', hparse', hn'⟩, hname⟩

lemma free_of_namesClass (hp : p.Careful) (hs : ShortAscii raw) (hf : p.Free raw) (h : NamesClass raw name) :
    p.Free name.toList := by
  obtain ⟨text, type, ht, hparse, hn⟩ := h
  have hfree := ModifiedUtf8.free_of_short (ModifiedUtf8.plain_of_regular hp.regular) hp.regular.chars (hs.short ht) hf
  cases type with
  | base => cases hn
  | array => cases hn
  | object inner =>
    obtain rfl := Option.some.inj hn
    have hav : p.Avoids ';' := hp.regular.alphanumeric.avoids (by decide) (by decide)
    have hinner : p.Free inner.toList := by
      rw [FieldType.eq_of_parse?_object hparse] at hfree
      exact ((hav.free_append_cons hp.regular.chars).1 hfree).1.of_suffix (List.suffix_cons _ _)
    have hd : (inner.map dotted).toList = inner.toList.map dotted := String.toList_map
    exact hd ▸ hp.regular.alphanumeric.free_map_dotted.2 hinner

lemma exists_descriptor (hp : p.Careful) (h : name ∈ (ProtectedClasses.ofClass c).names) :
    ∃ raw, some (.utf8 raw) ∈ c.pool.slots ∧ NamesClass raw name := by
  have hcarries : c.pool.Carries (fun a b => a = b ∧ some (.utf8 a) ∈ c.pool.slots) c.pool := by
    intro i d hd
    refine ⟨d, hd, ?_⟩
    cases d with
    | utf8 raw => exact .text ⟨rfl, Array.mem_iff_getElem?.2 ⟨i, hd⟩⟩
    | _ => exact .other (fun _ => nofun)
  obtain ⟨-, m, -, hprotects⟩ := ProtectedClasses.mem_ofClass.1 h
  obtain ⟨_, -, -, -, i, -, hi⟩ := ProtectedClasses.protects_iff.1 hprotects
  have hmoved : ∀ a b, a = b ∧ some (.utf8 a) ∈ c.pool.slots → p.MovedText a b := by
    rintro a _ ⟨rfl, -⟩
    exact .refl a
  obtain ⟨-, raw, _, ⟨-, hm⟩, hn, -⟩ := ProtectedClasses.ofInstruction_of_carries hp hmoved hcarries hi
  exact ⟨raw, hm, hn⟩

end Names

section Back

variable (hp : p.Careful) (hpackage : (p.reversedAs back).keeps "javax.xml.".toList = true)

include hp hpackage

lemma names_of_patched (h : name ∈ (ProtectedClasses.ofClass (patched p c)).names) :
    name ∈ (ProtectedClasses.ofClass c).names := by
  have hq := hp.reversedAs back
  have hcarries : (patched p c).pool.Carries (fun raw' raw => raw' = patchedText p (.ofClass c) raw) c.pool := by
    intro i d hd
    rw [getElem?_patched] at hd
    obtain ⟨slot, hs, hslot⟩ := Option.map_eq_some_iff.1 hd
    obtain ⟨e, rfl, rfl⟩ := Option.map_eq_some_iff.1 hslot
    refine ⟨e, hs, ?_⟩
    cases e with
    | utf8 raw =>
      rw [patchedConstant_utf8 hp]
      exact .text rfl
    | _ => exact .other (fun _ => nofun)
  have hmoved : ∀ raw' raw, raw' = patchedText p (.ofClass c) raw → (p.reversedAs back).MovedText raw' raw := by
    rintro _ raw rfl
    exact (movedText_patchedText hp _ raw).symm hp.regular back
  obtain ⟨hfactory, m, hm, hprotects⟩ := ProtectedClasses.mem_ofClass.1 h
  have hfactory' := ProtectedClasses.readsFactory_of_carries hq hmoved hcarries hfactory
  -- an instruction finds the name that its descriptor had before
  obtain ⟨name', ⟨raw, hn, hn'⟩, hprotects'⟩ := ProtectedClasses.protects_of_carries
    (Q := fun name' => ∃ raw, NamesClass (patchedText p (.ofClass c) raw) name ∧ NamesClass raw name') hq hmoved hcarries
    hprotects fun i hi => by
      obtain ⟨hstart, raw', raw, rfl, hnames, hfound⟩ := ProtectedClasses.ofInstruction_of_carries hq hmoved hcarries hi
      obtain ⟨name', hnames', hname⟩ := exists_namesClass hq (hmoved _ _ rfl) hnames
      refine ⟨name', ⟨raw, hnames, hnames'⟩, hfound name' hnames' ?_⟩
      obtain ⟨s, hs⟩ := Option.isSome_iff_exists.1 hstart
      rw [Text.strip?_eq_some_iff.1 hs] at hname
      obtain ⟨t, ht, -⟩ := hname.of_keeps hpackage
      exact Option.isSome_iff_exists.2 ⟨t, Text.strip?_eq_some_iff.2 ht⟩
  have hmem : name' ∈ (ProtectedClasses.ofClass c).names := ProtectedClasses.mem_ofClass.2 ⟨hfactory', m, hm, hprotects'⟩
  rw [patchedText_of_isProtected (isProtected_of_namesClass hn' hmem)] at hn
  rwa [hn.unique hn']

variable (hfree : ∀ raw, some (.utf8 raw) ∈ c.pool.slots → (p.reversedAs back).Free raw)
  (hshort : ∀ raw, some (.utf8 raw) ∈ c.pool.slots → ShortAscii raw)

include hfree hshort

lemma patchedText_eq_of_isProtected (hm : some (.utf8 raw) ∈ c.pool.slots)
    (h : isProtected (.ofClass (patched p c)) (patchedText p (.ofClass c) raw) = true) :
    patchedText p (.ofClass c) raw = raw := by
  have hq := hp.reversedAs back
  cases hr : isProtected (.ofClass c) raw with
  | true => exact patchedText_of_isProtected hr
  | false =>
    obtain ⟨text', ht', name, hn, hname⟩ := isProtected_iff.1 h
    have hname := names_of_patched hp hpackage hname
    obtain ⟨descriptor, hd, hnames⟩ := exists_descriptor hp hname
    have hnamefree := free_of_namesClass hq (hshort _ hd) (hfree _ hd) hnames
    obtain ⟨text, ht, -⟩ := ((movedText_patchedText hp (.ofClass c) raw).symm hp.regular back).decode hq.regular ht'
    -- the text itself has its tokens replaced before matches only, so it names the class already
    have hmoved : p.Moved (Matches p.rules) raw (patchedText p (.ofClass c) raw) := by
      rw [patchedText_of_not_isProtected hr]
      exact hp.regular.octets.moved_pass raw
    have hascii : p.Ascii := fun word hw c hc => Profile.toNat_lt_of_isAlphanum (hp.regular.alphanumeric word hw c hc)
    have hmatches : ∀ a b, Short a b → Matches p.rules a → Matches p.rules b :=
      fun _ _ h => (ModifiedUtf8.matches_iff_of_short (ModifiedUtf8.plain_of_regular hp.regular) h).1
    obtain ⟨t, hspelt, hchars⟩ := hmoved.of_spelt hascii hp.regular.octets hmatches ((hshort raw hm).short ht)
    obtain rfl : text' = String.ofList t := Option.some.inj (ht'.symm.trans hspelt.decode?)
    rw [← String.toList_ofList (l := t)] at hchars
    have hback := hchars.symm (fun _ _ h hs => (hp.regular.chars.matches_iff h).1 hs) back
    have hn' := mem_referencedClasses_of_moved hq.regular hback hnamefree hn
    rw [isProtected_iff.2 ⟨text, ht, name, hn', hname⟩] at hr
    cases hr

lemma patchedText_patchedText (hm : some (.utf8 raw) ∈ c.pool.slots) :
    patchedText (p.reversedAs back) (.ofClass (patched p c)) (patchedText p (.ofClass c) raw) = raw := by
  cases h : isProtected (.ofClass (patched p c)) (patchedText p (.ofClass c) raw) with
  | true => rw [patchedText_of_isProtected h, patchedText_eq_of_isProtected hp hpackage hfree hshort hm h]
  | false =>
    rw [patchedText_of_not_isProtected h, patchedText]
    split
    · exact Profile.pass_eq_self_of_free (hfree raw hm)
    · exact hp.regular.octets.pass_reversedAs_pass back raw (hfree raw hm)

lemma patched_patched : patched (p.reversedAs back) (patched p c) = c := by
  have hq := hp.reversedAs back
  calc patched (p.reversedAs back) (patched p c)
      = (patched p c).withTexts (patchedText (p.reversedAs back) (.ofClass (patched p c))) := patched_eq_withTexts hq _
    _ = (c.withTexts (patchedText p (.ofClass c))).withTexts (patchedText (p.reversedAs back) (.ofClass (patched p c))) :=
        congrArg (withTexts _) (patched_eq_withTexts hp c)
    _ = c := (withTexts_withTexts _ _ c).trans (withTexts_eq_self fun raw hm =>
        patchedText_patchedText hp hpackage hfree hshort hm)

end Back

lemma patched_eq_self (hp : p.Careful) (h : ∀ raw, IsOpen c raw → (p.migrateBytes raw).changed = false) : patched p c = c := by
  rw [patched_eq_withTexts hp]
  refine withTexts_eq_self fun raw hm => ?_
  cases hr : isProtected (.ofClass c) raw with
  | true => rw [patchedText_of_isProtected hr]
  | false =>
    have hvalue := value_eq_of_not_changed (h raw ⟨hm, hr⟩)
    rw [hp.regular.octets.value_migrateBytes] at hvalue
    rw [patchedText_of_not_isProtected hr, hvalue]

lemma exists_convert {d : ClassFile} {source' : Bytes} (hp : p.Careful) (hc : parse source = .ok c) (hd : parse source' = .ok d)
    (hback : patched p d = c) (path : String) : ∃ conversion, convert p none path source' = .ok conversion := by
  have hdist := hp.regular.octets
  have ho : ¬ ∃ raw, IsOpen d raw ∧ 65535 < (p.migrateBytes raw).value.length := by
    rintro ⟨raw, ⟨hm, hopen⟩, hlong⟩
    obtain ⟨i, hi⟩ := Array.mem_iff_getElem?.1 hm
    have hslot := getElem?_patched (i := i) p d
    rw [hi, Option.map_some, Option.map_some, patchedConstant_utf8 hp, patchedText_of_not_isProtected hopen, hback] at hslot
    obtain ⟨cs, hh⟩ := exists_holds_of_parse hc
    have hshort := length_le_of_mem_slots hh (Array.mem_iff_getElem?.2 ⟨i, hslot⟩)
    rw [hdist.value_migrateBytes] at hlong
    omega
  obtain ⟨hkept, hreplaced⟩ := convert_eq_ok hd hdist.isTrivial_eq_false path ho
  by_cases hch : ∃ raw, IsOpen d raw ∧ (p.migrateBytes raw).changed = true
  · exact ⟨_, hreplaced hch⟩
  · exact ⟨_, hkept hch⟩

lemma keeps_package : (BuiltIn.eeProfile.reversedAs "JEE8").keeps "javax.xml.".toList = true := by
  decide

/-- A class without texts that the profile back matches is restored from its conversion, if its texts write ASCII in
single octets. -/
theorem convert_restores (path path' : String) (hc : parse source = .ok c)
    (hn : c.pool.slots.size ≤ (declaredCount source).toNat)
    (hfree : ∀ raw, some (.utf8 raw) ∈ c.pool.slots → BuiltIn.jee8.profile.positions raw = [])
    (hshort : ∀ raw, some (.utf8 raw) ∈ c.pool.slots → ShortAscii raw) {conversion : Conversion}
    (h : convert BuiltIn.ee.profile none path source = .ok conversion) :
    ∃ restored, convert BuiltIn.jee8.profile none path' (conversion.bytes source) = .ok restored ∧
      restored.bytes (conversion.bytes source) = source := by
  have hp := Profile.careful_builtIn .ee
  have hq : Careful BuiltIn.jee8.profile := Profile.careful_builtIn .jee8
  have hqt := hq.regular.octets.isTrivial_eq_false
  have hsize : c.pool.slots.size ≤ 65535 := by
    have := (declaredCount source).toNat_lt
    omega
  have hfree' : ∀ raw, some (.utf8 raw) ∈ c.pool.slots → BuiltIn.jee8.profile.Free raw :=
    fun raw hm => (Profile.positions_eq_nil_iff hq.regular.octets).1 (hfree raw hm)
  have hsource := toBytes_eq_of_parse hc hn
  rcases convert_cases hc h with ⟨rfl, -⟩ | ⟨rfl, hparse⟩
  · refine ⟨.kept, convert_eq_kept hc hqt path' fun raw hr => ?_, rfl⟩
    rw [Bool.eq_false_iff, ne_eq, Profile.migrateBytes, Profile.changed_migrateSymbols_iff hq.regular.octets, not_not]
    exact hfree' raw hr.1
  · have hback : patched BuiltIn.jee8.profile (patched BuiltIn.ee.profile c) = c :=
      patched_patched hp keeps_package hfree' hshort
    obtain ⟨restored, hok⟩ := exists_convert hq hc (hparse hsize) hback path'
    refine ⟨restored, hok, ?_⟩
    rcases convert_cases (hparse hsize) hok with ⟨rfl, hkept⟩ | ⟨rfl, -⟩
    · rw [patched_eq_self hq hkept] at hback
      exact (congrArg toBytes hback).trans hsource
    · exact (congrArg toBytes hback).trans hsource

def text? : Constant → Option Bytes
  | .utf8 raw => some raw
  | _ => none

theorem convert_restores_of_binding :
    ∃ source c conversion, parse source = .ok c ∧ c.pool.slots.size ≤ (declaredCount source).toNat ∧
      (∀ raw, some (.utf8 raw) ∈ c.pool.slots → BuiltIn.jee8.profile.positions raw = []) ∧
      (∀ raw, some (.utf8 raw) ∈ c.pool.slots → ShortAscii raw) ∧
      convert BuiltIn.ee.profile none "A.class" source = .ok conversion ∧ conversion.changed = true ∧
      ∃ restored, convert BuiltIn.jee8.profile none "A.class" (conversion.bytes source) = .ok restored ∧
        restored.bytes (conversion.bytes source) = source := by
  let c := factoryReader (Bytes.utf8 "Ljavax/xml/bind/B;") (Bytes.utf8 "javax/xml/bind/C")
  let c' := factoryReader (Bytes.utf8 "Ljavax/xml/bind/B;") (Bytes.utf8 "jakarta/xml/bind/C")
  have hc : parse c.toBytes = .ok c := by decide +kernel
  have hn : c.pool.slots.size ≤ (declaredCount c.toBytes).toNat := by decide +kernel
  have htexts : ∀ slot ∈ c.pool.slots.toList, ∀ raw ∈ slot.bind text?, BuiltIn.jee8.profile.positions raw = [] ∧ ShortAscii raw := by
    decide +kernel
  have hfree : ∀ raw, some (.utf8 raw) ∈ c.pool.slots → BuiltIn.jee8.profile.positions raw = [] :=
    fun raw hm => (htexts _ (Array.mem_toList_iff.2 hm) raw rfl).1
  have hshort : ∀ raw, some (.utf8 raw) ∈ c.pool.slots → ShortAscii raw :=
    fun raw hm => (htexts _ (Array.mem_toList_iff.2 hm) raw rfl).2
  have h : convert BuiltIn.ee.profile none "A.class" c.toBytes = .ok (.replaced c'.toBytes true) := by decide +kernel
  exact ⟨c.toBytes, c, _, hc, hn, hfree, hshort, h, rfl, convert_restores "A.class" "A.class" hc hn hfree hshort h⟩

/-- A descriptor that writes a letter of a token in two octets: what the first conversion makes of another text has
the name of the class that it protects, and is not taken back. -/
theorem restored_ne_of_long_letter :
    ∃ source c conversion restored, parse source = .ok c ∧ 1 ≤ (declaredCount source).toNat ∧
      c.pool.slots.size ≤ (declaredCount source).toNat ∧
      (∀ raw, some (.utf8 raw) ∈ c.pool.slots → BuiltIn.jee8.profile.positions raw = []) ∧
      convert BuiltIn.ee.profile none "A.class" source = .ok conversion ∧
      convert BuiltIn.jee8.profile none "A.class" (conversion.bytes source) = .ok restored ∧
      restored.bytes (conversion.bytes source) ≠ source := by
  let descriptor := Bytes.utf8 "Ljavax/xml/" ++ [0xC1, 0xAA] ++ Bytes.utf8 "akarta/el;"
  let c := factoryReader descriptor (Bytes.utf8 "javax/xml/javax/el")
  let c' := factoryReader descriptor (Bytes.utf8 "javax/xml/jakarta/el")
  have hc : parse c.toBytes = .ok c := by decide +kernel
  have htexts : ∀ slot ∈ c.pool.slots.toList, ∀ raw ∈ slot.bind text?, BuiltIn.jee8.profile.positions raw = [] := by
    decide +kernel
  have h : convert BuiltIn.ee.profile none "A.class" c.toBytes = .ok (.replaced c'.toBytes true) := by decide +kernel
  have h' : convert BuiltIn.jee8.profile none "A.class" c'.toBytes = .ok .kept := by decide +kernel
  exact ⟨c.toBytes, c, _, _, hc, by decide +kernel, by decide +kernel,
    fun raw hm => htexts _ (Array.mem_toList_iff.2 hm) raw rfl, h, h', by decide +kernel⟩

end NamespaceMigration.ClassFile
