import Mathlib.Data.List.Flatten
import NamespaceMigration.Conversion.Manifest
import NamespaceMigration.Proofs.Manifest.Clauses
import NamespaceMigration.Proofs.Manifest.Reading
import NamespaceMigration.Proofs.Profile.Migration

namespace NamespaceMigration

namespace PackageHeader

variable {s : List Char} {header : PackageHeader}

open Manifest

lemma unbroken_version : Unbroken header.version := by
  cases header <;> decide

lemma unbroken_revisePart {part : List Char} (h : Unbroken part) : Unbroken (header.revisePart part) := by
  refine of_revisePart h fun key value hv => ?_
  have hkey : Unbroken key := h.subset (hv.eq ▸ List.subset_append_left key _)
  simp [hkey, unbroken_version]

lemma unbroken_updateClauses {clauses : List Char} (hs : Unbroken s) (h : header.updateClauses s = some clauses) :
    Unbroken clauses := by
  refine of_updateClauses unbroken_nil (fun d hd a b => ?_) (fun part => unbroken_revisePart) hs h
  have hd : d ≠ '\r' ∧ d ≠ '\n' := by
    rcases List.mem_pair.1 hd with rfl | rfl
    · decide
    · decide
  simp [hd]

lemma unbroken_replaceVersions (hs : Unbroken s) (skip : ℕ) : Unbroken (header.replaceVersions skip s) := by
  induction s generalizing skip with
  | nil => cases skip <;> exact unbroken_nil
  | cons c s ih =>
    have hrest := (unbroken_cons.1 hs).2
    cases skip with
    | succ skip => exact ih hrest skip
    | zero =>
      rw [replaceVersions]
      split
      next package old hp =>
        simp only [versionedPackage?, Option.bind_eq_bind, Option.bind_eq_some_iff, Option.some.injEq, Prod.mk.injEq] at hp
        obtain ⟨rest, hr, quoted, -, parts, -, rfl, rfl⟩ := hp
        rw [Text.strip?_eq_some_iff] at hr
        rw [hr, unbroken_append] at hs
        have hinner : Unbroken (rest.takeWhile fun c => c != ',' && c != ';') := hs.2.subset (List.takeWhile_subset _)
        have hstart : Unbroken versionStart := by decide
        simp only [unbroken_append, unbroken_cons]
        exact ⟨⟨⟨⟨hs.1, hinner⟩, hstart⟩, unbroken_version⟩, by decide, ih hrest _⟩
      next => exact unbroken_cons.2 ⟨(unbroken_cons.1 hs).1, ih hrest 0⟩

lemma unbroken_updateVersions {value : String} (h : Unbroken value.toList) :
    Unbroken (header.updateVersions value).toList := by
  rw [updateVersions]
  split
  · rw [String.toList_ofList]
    cases hc : header.updateClauses value.toList with
    | none => exact unbroken_replaceVersions h 0
    | some clauses => exact unbroken_updateClauses h hc
  · exact h

end PackageHeader

namespace Manifest

section Parsed

variable {p q : Progress} {number : ℕ} {line : List Char} {m : Manifest}

structure Progress.Sound (p : Progress) : Prop where
  main : ∀ s ∈ p.main, ∀ a ∈ s.attributes, Readable a
  entries : ∀ s ∈ p.entries, s.attributes ≠ [] ∧ ∀ a ∈ s.attributes, Readable a
  current : ∀ a ∈ p.current, Readable a

lemma Progress.Sound.endSection (h : p.Sound) : p.endSection.Sound := by
  have hcurrent : ∀ a ∈ p.current.reverse, Readable a := fun a ha => h.current a (List.mem_reverse.1 ha)
  rw [Progress.endSection]
  cases hm : p.main with
  | none => exact ⟨by simpa using hcurrent, h.entries, by simp⟩
  | some main =>
    dsimp only
    split
    next => exact h
    next hne =>
      refine ⟨by simpa [hm] using h.main, ?_, by simp⟩
      exact List.forall_mem_cons.2 ⟨⟨by simpa [Section.isEmpty] using hne, hcurrent⟩, h.entries⟩

lemma readable_of_header?_eq_some {a : String × String} (hl : Unbroken line) (h : header? line = some a) : Readable a := by
  obtain ⟨-, hne, hcolon, hblank, v, rfl, hv⟩ := notMem_and_ne_of_header?_eq_some h
  rw [unbroken_append, unbroken_cons] at hl
  refine ⟨hne, hcolon, hblank, hl.1, ?_⟩
  rw [hv, String.toList_ofList]
  cases hs : Text.strip? [' '] v with
  | none => exact hl.2.2
  | some rest =>
    rw [Text.strip?_eq_some_iff] at hs
    exact hl.2.2.subset (hs ▸ List.subset_append_right _ _)

lemma Progress.Sound.step (h : p.Sound) (hl : Unbroken line) (hs : p.step number line = .ok q) : q.Sound := by
  cases line with
  | nil =>
    obtain rfl := Except.ok.inj hs
    exact h.endSection
  | cons c rest =>
    rw [Progress.step] at hs
    split at hs
    · cases hc : p.current with
      | nil => simp [hc, continueLast] at hs
      | cons a before =>
        rw [hc, continueLast] at hs
        obtain rfl := Except.ok.inj hs
        have hcurrent := h.current
        rw [hc, List.forall_mem_cons] at hcurrent
        obtain ⟨ha, hbefore⟩ := hcurrent
        have hvalue : Unbroken (a.2 ++ String.ofList rest).toList := by
          simpa using ⟨ha.value, (unbroken_cons.1 hl).2⟩
        exact ⟨h.main, h.entries, List.forall_mem_cons.2 ⟨⟨ha.name_ne, ha.colon, ha.blank, ha.name, hvalue⟩, hbefore⟩⟩
    · cases hh : header? (c :: rest) with
      | none => simp [hh] at hs
      | some a =>
        simp only [hh] at hs
        split at hs
        · cases hs
        · obtain rfl := Except.ok.inj hs
          exact ⟨h.main, h.entries, List.forall_mem_cons.2 ⟨readable_of_header?_eq_some hl hh, h.current⟩⟩

lemma Progress.Sound.stepAll {ls : List (List Char)} (h : p.Sound) (hl : ∀ line ∈ ls, Unbroken line)
    (hs : stepAll p number ls = .ok q) : q.Sound := by
  induction ls generalizing p number with
  | nil =>
    obtain rfl := Except.ok.inj hs
    exact h
  | cons line ls ih =>
    rw [List.forall_mem_cons] at hl
    obtain ⟨r, hr, hs⟩ := bind_eq_ok_iff.1 hs
    exact ih (h.step hl.1 hr) hl.2 hs

lemma writable_of_parse {source : Bytes} (h : parse source = .ok m) : m.Writable := by
  rw [parse] at h
  split at h
  · cases h
  · obtain ⟨p, hp, h⟩ := bind_eq_ok_iff.1 h
    obtain rfl := Except.ok.inj h
    have hstart : Progress.start.Sound := ⟨by simp [Progress.start], by simp [Progress.start], by simp [Progress.start]⟩
    have hend := (hstart.stepAll (fun line hl => unbroken_of_mem_lines hl) hp).endSection
    refine ⟨?_, fun s hs => hend.entries s (List.mem_reverse.1 hs)⟩
    rw [Progress.finish]
    cases hm : p.endSection.main with
    | none => simp [Section.empty]
    | some main => exact hend.main main hm

end Parsed

section Updates

variable {p : Profile} {a b : String × String} {s : Section} {m : Manifest}

lemma utf8Size_toLower (c : Char) : c.toLower.utf8Size = c.utf8Size := by
  have hone : ∀ d : Char, d.val ≤ 0x7F → d.utf8Size = 1 := fun d hd => if_pos hd
  delta Char.toLower
  split
  next h =>
    have hhigh : c.val.toNat ≤ 90 := UInt32.le_iff_toNat_le.1 h.2
    rw [hone c (UInt32.le_iff_toNat_le.2 (Nat.le_trans hhigh (by decide)))]
    refine hone _ (UInt32.le_iff_toNat_le.2 ?_)
    have hd : ('a'.val - 'A'.val).toNat = 32 := by decide
    rw [UInt32.toNat_add, hd, Nat.mod_eq_of_lt (by omega)]
    exact Nat.le_trans (Nat.add_le_add_right hhigh 32) (by decide)
  next => rfl

lemma octets_lower (s : String) : octets (Text.lower s).toList = octets s.toList := by
  simp [octets, Text.lower, List.foldr_map, utf8Size_toLower]

lemma octets_of_sameLetters {name other : String} (h : Text.sameLetters name other = true) :
    octets name.toList = octets other.toList := by
  rw [← octets_lower, beq_iff_eq.1 h, octets_lower]

def Updates (p : Profile) (a b : String × String) : Prop :=
  b.1 = a.1 ∧ ∃ value, (value = a.2 ∨ Text.sameLetters a.1 "Implementation-Version" = true ∧ value = a.2 ++ "-" ++ toolVersion) ∧
    b.2 = updateValue p a.1 value

lemma forall₂_updates (p : Profile) (s : Section) :
    List.Forall₂ (Updates p) s.attributes (updateSection p s).attributes := by
  have hkept : ∀ l : List (String × String), List.Forall₂ (Updates p) l (l.map fun a => (a.1, updateValue p a.1 a.2)) := by
    intro l
    induction l with
    | nil => exact .nil
    | cons a l ih => exact .cons ⟨rfl, a.2, .inl rfl, rfl⟩ ih
  rw [updateSection, Section.mapValues, markVersion, Section.update]
  induction s.attributes with
  | nil => exact .nil
  | cons a l ih =>
    rw [Section.updateFirst]
    split
    next h => exact .cons ⟨rfl, _, .inr ⟨h, rfl⟩, rfl⟩ (hkept l)
    next => exact .cons ⟨rfl, a.2, .inl rfl, rfl⟩ ih

lemma unbroken_migrate (ht : Unbroken p.target.toList) {value : String} (h : Unbroken value.toList) :
    Unbroken (p.migrate value).value.toList := by
  rw [Profile.migrate, String.toList_ofList]
  cases hc : (p.migrateSymbols value.toList).changed with
  | false => rwa [Profile.migrateSymbols_of_not_changed hc]
  | true =>
    obtain ⟨hs, hp, -⟩ := Profile.of_changed_migrateSymbols hc
    rw [Profile.value_migrateSymbols p hs hp]
    exact ⟨fun hm => (Profile.mem_replaceTokens hm).elim ht.1 h.1, fun hm => (Profile.mem_replaceTokens hm).elim ht.2 h.2⟩

lemma unbroken_updateValue (ht : Unbroken p.target.toList) (name : String) {value : String} (h : Unbroken value.toList) :
    Unbroken (updateValue p name value).toList := by
  rw [updateValue]
  split
  · cases PackageHeader.ofName? name with
    | none => exact unbroken_migrate ht h
    | some header => exact PackageHeader.unbroken_updateVersions (unbroken_migrate ht h)
  · exact h

lemma Updates.readable (ht : Unbroken p.target.toList) (h : Updates p a b) (ha : Readable a) : Readable b := by
  obtain ⟨hname, value, hv, hb⟩ := h
  have hvalue : Unbroken value.toList := by
    have hversion : Unbroken ("-".toList ++ toolVersion.toList) := by decide
    rcases hv with rfl | ⟨-, rfl⟩
    · exact ha.value
    · rw [String.toList_append, String.toList_append, List.append_assoc, unbroken_append]
      exact ⟨ha.value, hversion⟩
  exact ⟨hname ▸ ha.name_ne, hname ▸ ha.colon, hname ▸ ha.blank, hname ▸ ha.name, hb ▸ unbroken_updateValue ht a.1 hvalue⟩

lemma Updates.eq_of_readBack_eq (hs : p.source ≠ " " ++ p.target) (h : Updates p a b) (hr : readBack b = a) : b = a := by
  obtain ⟨hname, value, hv, hb⟩ := h
  have hvalue := congrArg Prod.snd hr
  rw [readBack] at hvalue
  dsimp only at hvalue
  split at hvalue
  next hlong =>
    have hother : ∀ other : String, octets other.toList ≠ 71 → Text.sameLetters a.1 other = false := by
      intro other ho
      rw [← Bool.not_eq_true]
      intro hsame
      exact ho ((octets_of_sameLetters hsame).symm.trans (hname ▸ hlong))
    have hheader : PackageHeader.ofName? a.1 = none := by
      rw [PackageHeader.ofName?, hother "Export-Package" (by decide), hother "Import-Package" (by decide)]
      rfl
    rw [hother "Implementation-Version" (by decide)] at hv
    obtain rfl : value = a.2 := by simpa using hv
    have hmoved : b.2 = (p.migrate a.2).value := by
      rw [hb, updateValue]
      split
      · rw [hheader]
      next hc =>
        rw [Bool.not_eq_true] at hc
        rw [Profile.migrate, Profile.migrateSymbols_of_not_changed hc, String.ofList_toList]
    rw [hmoved, Profile.migrate] at hvalue
    have hlist := congrArg String.toList hvalue
    simp only [String.toList_append, String.toList_ofList] at hlist
    have hsource : p.source.toList = " ".toList ++ p.target.toList := Profile.source_eq_of_cons_value_eq hlist
    rw [← String.toList_append, String.toList_inj] at hsource
    exact absurd hsource hs
  next => exact Prod.ext hname hvalue

end Updates

section Conversions

variable {p : Profile} {m : Manifest}

lemma map_fst_of_updates {l l' : List (String × String)} (h : List.Forall₂ (Updates p) l l') :
    l'.map Prod.fst = l.map Prod.fst := by
  induction h with
  | nil => rfl
  | cons hab _ ih => rw [List.map_cons, List.map_cons, hab.1, ih]

lemma readable_of_updates (ht : Unbroken p.target.toList) {l l' : List (String × String)}
    (hu : List.Forall₂ (Updates p) l l') (h : ∀ a ∈ l, Readable a) : ∀ b ∈ l', Readable b := by
  induction hu with
  | nil => simp
  | cons hab _ ih =>
    rw [List.forall_mem_cons] at h ⊢
    exact ⟨hab.readable ht h.1, ih h.2⟩

lemma eq_of_map_readBack_eq (hs : p.source ≠ " " ++ p.target) {l l' : List (String × String)}
    (hu : List.Forall₂ (Updates p) l l') (h : l'.map readBack = l) : l' = l := by
  induction hu with
  | nil => rfl
  | cons hab _ ih =>
    rw [List.map_cons, List.cons.injEq] at h
    rw [hab.eq_of_readBack_eq hs h.1, ih h.2]

lemma unsignMain_sublist (s : Section) : (unsignMain s).attributes.Sublist s.attributes :=
  List.filter_sublist.trans (List.eraseP_sublist)

lemma writable_migrated (ht : Unbroken p.target.toList) (h : m.Writable) : (migrated p m).Writable := by
  constructor
  · intro a ha
    exact readable_of_updates ht (forall₂_updates p m.main) h.main a ((unsignMain_sublist _).subset ha)
  · intro s hs
    obtain ⟨old, hold, rfl⟩ := List.mem_map.1 (List.mem_filter.1 hs).1
    obtain ⟨hne, hread⟩ := h.entries old hold
    refine ⟨fun he => hne ?_, readable_of_updates ht (forall₂_updates p old) hread⟩
    have hlength := (forall₂_updates p old).length_eq
    rw [he, List.length_nil] at hlength
    exact List.length_eq_zero_iff.1 hlength

lemma versionFirst_eq_self {attributes : List (String × String)}
    (h : (versionFirst attributes).map Prod.fst = attributes.map Prod.fst) : versionFirst attributes = attributes := by
  cases attributes with
  | nil => rfl
  | cons a attributes =>
    rw [versionFirst] at h ⊢
    rw [List.find?_cons, List.eraseP_cons] at h ⊢
    cases ha : Text.sameLetters a.1 "Manifest-Version" with
    | true => rfl
    | false =>
      rw [ha] at h
      cases hf : attributes.find? fun b => Text.sameLetters b.1 "Manifest-Version" with
      | none =>
        rw [List.eraseP_of_forall_not (by simpa using hf)]
        rfl
      | some b =>
        have hb := List.find?_some hf
        simp only [hf, Option.toList_some, List.singleton_append, List.map_cons, List.cons.injEq] at h
        rw [← h.1, hb] at ha
        cases ha

lemma length_names_le (p : Profile) (m : Manifest) :
    ((migrated p m).main.attributes.flatMap fun a => a.1.toList).length ≤ (m.main.attributes.flatMap fun a => a.1.toList).length := by
  have hsub := (unsignMain_sublist (updateSection p m.main)).flatMap fun a => a.1.toList
  have hnames := congrArg (List.flatMap String.toList) (map_fst_of_updates (forall₂_updates p m.main))
  rw [List.flatMap_map, List.flatMap_map] at hnames
  exact Nat.le_trans hsub.length_le (Nat.le_of_eq (congrArg List.length hnames))

lemma migrated_eq_of_parse (ht : Unbroken p.target.toList) (hs : p.source ≠ " " ++ p.target) (hm : m.Writable)
    (h : parse (migrated p m).toBytes = .ok m) : migrated p m = m := by
  have hw := writable_migrated ht hm
  by_cases hmark : (migrated p m).writeChars.head? = some mark
  · obtain ⟨a, rest, hv, hne, hnames⟩ := names_of_parse_toBytes hw hmark h
    have hle := length_names_le p m
    have hperm := ((versionFirst_perm (migrated p m).main.attributes).flatMap_right fun a => a.1.toList).length_eq
    have hlengths := congrArg (fun names : List (List Char) => names.flatten.length) hnames
    have hpos := List.length_pos_iff.2 hne
    simp only [hv, List.flatten_cons, List.flatMap_cons, List.length_append, List.length_tail, ← List.flatMap_def]
      at hlengths hperm
    omega
  · obtain ⟨-, -, hr⟩ := (parse_toBytes_eq_ok_iff hw hmark).1 h
    have hmain : m.main.attributes = (versionFirst (migrated p m).main.attributes).map readBack :=
      congrArg (fun n : Manifest => n.main.attributes) hr
    have hentries : m.entries = (migrated p m).entries.map readBackSection := congrArg Manifest.entries hr
    -- as many attributes and entries are read as there were before, so none was dropped
    have hkept : (migrated p m).main.attributes = (updateSection p m.main).attributes := by
      refine (unsignMain_sublist _).eq_of_length ?_
      have hlength := congrArg List.length hmain
      rw [List.length_map, (versionFirst_perm _).length_eq] at hlength
      exact hlength.symm.trans (forall₂_updates p m.main).length_eq
    have hall : (migrated p m).entries = m.entries.map (updateSection p) := by
      refine List.filter_sublist.eq_of_length ?_
      have hlength := congrArg List.length hentries
      rw [List.length_map] at hlength
      exact hlength.symm.trans (List.length_map _).symm
    have hfirst : versionFirst (updateSection p m.main).attributes = (updateSection p m.main).attributes := by
      refine versionFirst_eq_self ?_
      have hnames := congrArg (List.map Prod.fst) hmain
      rw [hkept, List.map_map] at hnames
      exact hnames.symm.trans (map_fst_of_updates (forall₂_updates p m.main)).symm
    rw [hkept, hfirst] at hmain
    rw [hall, List.map_map] at hentries
    have hsame : ∀ s ∈ m.entries, updateSection p s = s := by
      intro s hm
      have hback : readBackSection (updateSection p s) = s :=
        List.map_eq_map_iff.1 (hentries.symm.trans (List.map_id _).symm) s hm
      exact congrArg Section.mk (eq_of_map_readBack_eq hs (forall₂_updates p s) (congrArg Section.attributes hback))
    have hmain' : (migrated p m).main = m.main :=
      congrArg Section.mk (hkept.trans (eq_of_map_readBack_eq hs (forall₂_updates p m.main) hmain.symm))
    have hentries' : (migrated p m).entries = m.entries :=
      hall.trans ((List.map_congr_left hsame).trans (List.map_id' m.entries))
    calc migrated p m = ⟨(migrated p m).main, (migrated p m).entries⟩ := rfl
      _ = m := by rw [hmain', hentries']

lemma ne_of_convertBytes_eq_ok (ht : Unbroken p.target.toList) (hs : p.source ≠ " " ++ p.target) {source bytes : Bytes}
    {c : Conversion} (h : convertBytes p source = .ok c) (hc : c.replacement = some bytes) : bytes ≠ source := by
  rw [convertBytes] at h
  split at h
  · obtain rfl := Except.ok.inj h
    cases hc
  · obtain ⟨m, hm, h⟩ := bind_eq_ok_iff.1 h
    split at h
    · obtain rfl := Except.ok.inj h
      cases hc
    next hne =>
      obtain rfl := Except.ok.inj h
      obtain rfl : (migrated p m).toBytes = bytes := Option.some.inj hc
      intro he
      exact hne (migrated_eq_of_parse ht hs (writable_of_parse hm) (he ▸ hm))

lemma asked_of_convertBytes_eq_ok {source : Bytes} {c : Conversion} (h : convertBytes p source = .ok c) :
    c.asked = [] ∧ (c.changed = true → c.isReplaced = true) := by
  rw [convertBytes] at h
  split at h
  · obtain rfl := Except.ok.inj h
    exact ⟨rfl, by simp [Conversion.kept]⟩
  · obtain ⟨m, -, h⟩ := bind_eq_ok_iff.1 h
    split at h
    · obtain rfl := Except.ok.inj h
      exact ⟨rfl, by simp [Conversion.kept]⟩
    · obtain rfl := Except.ok.inj h
      exact ⟨rfl, fun _ => rfl⟩

end Conversions

end Manifest

end NamespaceMigration
