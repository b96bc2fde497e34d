import NamespaceMigration.Conversion.Converter
import NamespaceMigration.Proofs.ClassFile.BatchConversion
import NamespaceMigration.Proofs.Manifest.Conversion

/-! Conversions that do what they report: one that reports a change has written something new. -/

namespace NamespaceMigration

structure Conversion.Truthful (source : Bytes) (c : Conversion) : Prop where
  asked : c.asked = []
  changed : c.changed = true → ∃ bytes, c.replacement = some bytes ∧ bytes ≠ source

lemma Conversion.truthful_kept (source : Bytes) : Conversion.kept.Truthful source := ⟨rfl, fun h => nomatch h⟩

namespace ClassFile

variable {p : Profile} {c : ClassFile} {source : Bytes} {conversion : Conversion}

lemma size_slots_of_toBytes_eq {pool : ConstantPool} (hc : parse source = .ok c)
    (hs : pool.slots.size = c.pool.slots.size) (h : { c with pool := pool }.toBytes = source) :
    c.pool.slots.size ≤ 65535 := by
  have hle := size_slots_le_of_parse hc
  by_contra hn
  have hcount : pool.count = 0 := by
    have hsize : pool.slots.size = 65536 := by omega
    rw [ConstantPool.count, hsize]
    rfl
  obtain ⟨t, hsource, hp, -⟩ := read_eq_ok_iff.1 (parse_eq_ok_iff.1 hc)
  obtain ⟨n, t, rfl, cs, -, hf, hslots, -⟩ := ConstantPool.read_eq_ok_iff.1 hp
  obtain rfl : n = 0 := by
    rw [hsource] at h
    simp only [toBytes, ConstantPool.write, List.append_assoc, List.append_cancel_left_eq] at h
    rw [← hcount, Bytes.big16_inj.1 (List.append_inj h (by simp)).1]
  -- with a count of zero only the slot before all constants is read
  cases cs with
  | nil => simp [hslots] at hn
  | cons d cs => exact absurd hf.1 (by simp)

lemma ne_of_patched (hc : parse source = .ok c)
    (ho : ¬ ∃ raw, IsOpen c raw ∧ 65535 < (p.migrateBytes raw).value.length)
    (hch : ∃ raw, IsOpen c raw ∧ (p.migrateBytes raw).changed = true) : (patched p c).toBytes ≠ source := by
  intro he
  have hout : ∀ raw, some (.utf8 raw) ∈ c.pool.slots → ¬ Outgrows p none (.ofClass c) raw :=
    fun raw hm hr => ho ((exists_outgrows_iff hc).1 ⟨raw, hm, hr⟩)
  have hn := size_slots_of_toBytes_eq hc (by simp) he
  have hsame := parse_patched hc hn hout
  rw [he, hc, Except.ok.injEq] at hsame
  obtain ⟨raw, ⟨hm, hopen⟩, hchanged⟩ := hch
  obtain ⟨i, hi⟩ := Array.mem_iff_getElem?.1 hm
  have hslot : (patched p c).pool.slots[i]? = some (some (.utf8 (p.migrateBytes raw).value)) := by
    simp [patched, hi, patchedConstant, hopen]
  rw [← hsame, hi] at hslot
  have heq : raw = (p.migrateBytes raw).value := by simpa using hslot
  exact Profile.value_ne_of_changed (fun hb => Bytes.utf8_inj.1 hb) hchanged heq.symm

lemma truthful_convert {path : String} (h : convert p none path source = .ok conversion) : conversion.Truthful source := by
  have hb := mapError_eq_ok_iff.1 h
  cases hc : parse source with
  | error fault => simp [convertBytes, hc, bind, Except.bind] at hb
  | ok c =>
    cases hp : p.isTrivial with
    | true =>
      obtain rfl : Conversion.kept = conversion := by
        simpa [convertBytes, hc, hp, bind, Except.bind, pure, Except.pure] using hb
      exact Conversion.truthful_kept source
    | false =>
      by_cases ho : ∃ raw, IsOpen c raw ∧ 65535 < (p.migrateBytes raw).value.length
      · obtain ⟨n, hn⟩ := convert_eq_error hc hp path ho
        rw [hn] at h
        cases h
      · obtain ⟨hkept, hreplaced⟩ := convert_eq_ok hc hp path ho
        by_cases hch : ∃ raw, IsOpen c raw ∧ (p.migrateBytes raw).changed = true
        · obtain rfl := Except.ok.inj ((hreplaced hch).symm.trans h)
          exact ⟨rfl, fun _ => ⟨_, rfl, ne_of_patched hc ho hch⟩⟩
        · obtain rfl := Except.ok.inj ((hkept hch).symm.trans h)
          exact Conversion.truthful_kept source

end ClassFile

lemma Converter.truthful_convertText (p : Profile) (source : Bytes) : (convertText p source).Truthful source := by
  rw [convertText]
  split
  next h =>
    refine ⟨rfl, fun _ => ⟨_, rfl, Profile.value_ne_of_changed (fun hb => Bytes.utf8_inj.1 hb) h⟩⟩
  next => exact Conversion.truthful_kept source

lemma Manifest.truthful_convert {p : Profile} {source : Bytes} {conversion : Conversion} {path : String}
    (ht : Unbroken p.target.toList) (hs : p.source ≠ " " ++ p.target) (h : convert p path source = .ok conversion) :
    conversion.Truthful source := by
  have hb := mapError_eq_ok_iff.1 h
  obtain ⟨hasked, hreplaced⟩ := asked_of_convertBytes_eq_ok hb
  refine ⟨hasked, fun hc => ?_⟩
  obtain ⟨bytes, hbytes⟩ := Option.isSome_iff_exists.1 (hreplaced hc)
  exact ⟨bytes, hbytes, ne_of_convertBytes_eq_ok ht hs hb hbytes⟩

namespace Profile

structure Foldable (p : Profile) : Prop where
  target : Manifest.Unbroken p.target.toList
  source : p.source ≠ " " ++ p.target

end Profile

lemma Converter.truthful_convert {converter : Converter} {p : Profile} {path : String} {source : Bytes}
    {conversion : Conversion} (hp : converter = .manifest → p.Foldable) (hf : converter.fingerprint? ≠ none)
    (h : converter.convert p path source = .ok conversion) : conversion.Truthful source := by
  match converter with
  | .text =>
    obtain rfl := Except.ok.inj h
    exact truthful_convertText p source
  | .classFile (some _) => exact absurd rfl hf
  | .classFile none => exact ClassFile.truthful_convert h
  | .manifest => exact Manifest.truthful_convert (hp rfl).target (hp rfl).source h
  | .passThrough =>
    obtain rfl := Except.ok.inj h
    exact Conversion.truthful_kept source

lemma Registry.mapM_fingerprint?_eq_none {l : List Converter} {converter : Converter} (h : converter ∈ l)
    (hf : converter.fingerprint? = none) : l.mapM Converter.fingerprint? = none := by
  induction l with
  | nil => simp at h
  | cons d l ih =>
    rw [List.mapM_cons]
    rcases List.mem_cons.1 h with rfl | h
    · simp [hf]
    · simp [ih h]

lemma Registry.mem_converters_of_find {r : Registry} {path : String} {converter : Converter} (h : r.find path = converter)
    (hne : converter ≠ .passThrough) : converter ∈ r.converters := by
  rw [find] at h
  cases hr : r.converters.find? (·.accepts path) with
  | none =>
    rw [hr] at h
    exact absurd h.symm hne
  | some found =>
    rw [hr] at h
    obtain rfl : found = converter := h
    exact List.mem_of_find?_eq_some hr

lemma Registry.fingerprint?_find_ne_none {r : Registry} (hf : r.fingerprint? ≠ none) (path : String) :
    (r.find path).fingerprint? ≠ none := by
  intro hn
  have hmem : r.find path ∈ r.converters := by
    apply mem_converters_of_find rfl
    intro hpass
    rw [hpass] at hn
    cases hn
  apply hf
  rw [fingerprint?, mapM_fingerprint?_eq_none hmem hn]
  rfl

lemma Registry.truthful_convert {r : Registry} {p : Profile} {path : String} {source : Bytes} {conversion : Conversion}
    (hp : .manifest ∈ r.converters → p.Foldable) (hf : r.fingerprint? ≠ none)
    (h : r.convert p path source = .ok conversion) : conversion.Truthful source :=
  Converter.truthful_convert (fun hm => hp (mem_converters_of_find hm nofun)) (fingerprint?_find_ne_none hf path) h

end NamespaceMigration
