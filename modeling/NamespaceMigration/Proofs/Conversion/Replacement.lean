import NamespaceMigration.Proofs.Conversion.Truthful
import NamespaceMigration.Proofs.Manifest.RoundTrip

/-! What converters write. -/

namespace NamespaceMigration

variable {p : Profile} {path : String} {source bytes : Bytes} {c : Conversion}

lemma Conversion.isReplaced_iff (h : ∀ bytes, c.replacement = some bytes → bytes ≠ source) :
    c.isReplaced = true ↔ c.bytes source ≠ source := by
  rw [isReplaced, Conversion.bytes]
  cases hr : c.replacement with
  | none => simp
  | some bytes => simpa using h bytes hr

lemma Conversion.Truthful.isReplaced_of_changed (h : c.Truthful source) (hc : c.changed = true) : c.isReplaced = true := by
  obtain ⟨bytes, hbytes, -⟩ := h.changed hc
  rw [isReplaced, hbytes]
  rfl

lemma Conversion.Truthful.ne_of_replacement (h : c.Truthful source) (hc : c.isReplaced = c.changed)
    (hb : c.replacement = some bytes) : bytes ≠ source := by
  have hchanged : c.changed = true := by
    rw [← hc, isReplaced, hb]
    rfl
  obtain ⟨found, hfound, hne⟩ := h.changed hchanged
  obtain rfl := Option.some.inj (hfound.symm.trans hb)
  exact hne

lemma ClassFile.isReplaced_eq_changed {resolver : Option Resolver} (h : convert p resolver path source = .ok c) :
    c.isReplaced = c.changed := by
  rw [convert, mapError_eq_ok_iff, convertBytes, bind_eq_ok_iff] at h
  obtain ⟨classFile, -, h⟩ := h
  split at h
  · obtain rfl := Except.ok.inj h
    rfl
  · obtain ⟨result, -, h⟩ := bind_eq_ok_iff.1 h
    split at h
    all_goals
      obtain rfl := Except.ok.inj h
      rfl

lemma Converter.isReplaced_convertText (p : Profile) (source : Bytes) :
    (convertText p source).isReplaced = (convertText p source).changed := by
  rw [convertText]
  split <;> rfl

lemma Converter.ne_of_convert {converter : Converter} (hp : converter = .manifest → p.Foldable)
    (hf : converter.fingerprint? ≠ none) (h : converter.convert p path source = .ok c) (hb : c.replacement = some bytes) :
    bytes ≠ source := by
  have htruthful := truthful_convert hp hf h
  match converter with
  | .text =>
    obtain rfl := Except.ok.inj h
    exact htruthful.ne_of_replacement (isReplaced_convertText p source) hb
  | .classFile resolver => exact htruthful.ne_of_replacement (ClassFile.isReplaced_eq_changed h) hb
  | .manifest =>
    exact Manifest.ne_of_convertBytes_eq_ok (hp rfl).target (hp rfl).source (mapError_eq_ok_iff.1 h) hb
  | .passThrough =>
    obtain rfl := Except.ok.inj h
    cases hb

lemma Registry.ne_of_convert {r : Registry} (hp : .manifest ∈ r.converters → p.Foldable) (hf : r.fingerprint? ≠ none)
    (h : r.convert p path source = .ok c) (hb : c.replacement = some bytes) : bytes ≠ source :=
  Converter.ne_of_convert (fun hm => hp (mem_converters_of_find hm nofun)) (fingerprint?_find_ne_none hf path) h hb

lemma Profile.foldable_builtIn (b : BuiltIn) : b.profile.Foldable := by
  cases b <;> exact ⟨by decide, by decide⟩

/-- The conversions that write something are those that hand out other bytes than they got, whether or not they report it.
Every change that is reported is one of them. -/
theorem Registry.isReplaced_iff_of_convert (b : BuiltIn) (h : builtIn.convert b.profile path source = .ok c) :
    (c.isReplaced = true ↔ c.bytes source ≠ source) ∧ (c.changed = true → c.isReplaced = true) := by
  have hfoldable : .manifest ∈ builtIn.converters → b.profile.Foldable := fun _ => Profile.foldable_builtIn b
  have hfingerprint : builtIn.fingerprint? ≠ none := by decide
  have htruthful := truthful_convert hfoldable hfingerprint h
  exact ⟨Conversion.isReplaced_iff fun bytes => ne_of_convert hfoldable hfingerprint h, htruthful.isReplaced_of_changed⟩

theorem Registry.isReplaced_iff_of_marked_version :
    let source := Bytes.utf8 "Manifest-Version: 1.0\nImplementation-Version: 2.3\n"
    ∃ c, builtIn.convert BuiltIn.tomcat.profile Manifest.fileName source = .ok c ∧ c.changed = false ∧
      c.isReplaced = true ∧ c.bytes source ≠ source := by
  intro source
  let m : Manifest := ⟨⟨[("Manifest-Version", "1.0"), ("Implementation-Version", "2.3")]⟩, []⟩
  have hm : Manifest.parse source = .ok m := by
    rw [Manifest.parse_utf8]
    exact eq_ok_of_toOption_eq_some (by decide +kernel)
  have hc : builtIn.convert BuiltIn.tomcat.profile Manifest.fileName source =
      .ok (.replaced (Manifest.migrated BuiltIn.tomcat.profile m).toBytes false) := by
    have hnew : Manifest.migrated BuiltIn.tomcat.profile m ≠ m := by decide +kernel
    have hsame : (m.sections.any (Manifest.migratesAny BuiltIn.tomcat.profile) || Manifest.isSigned m) = false := by
      decide +kernel
    have hconvert := Manifest.convert_eq_replaced (Profile.isTrivial_builtIn .tomcat) hm hnew Manifest.fileName
    rw [hsame] at hconvert
    exact hconvert
  exact ⟨_, hc, rfl, rfl, (isReplaced_iff_of_convert .tomcat hc).1.1 rfl⟩

end NamespaceMigration
