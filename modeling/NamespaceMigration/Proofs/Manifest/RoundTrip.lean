import NamespaceMigration.Proofs.Manifest.Repetition

namespace NamespaceMigration.Manifest

section Lines

variable {l s : List Char} {m : Manifest}

lemma octets_takeRoom_le (room : ℕ) (s : List Char) : octets (takeRoom room s).1 ≤ room := by
  induction s generalizing room with
  | nil => exact Nat.zero_le room
  | cons c s ih =>
    rw [takeRoom]
    split
    · have hc : octets (c :: (takeRoom (room - c.utf8Size) s).1) =
          c.utf8Size + octets (takeRoom (room - c.utf8Size) s).1 := rfl
      have hs := ih (room - c.utf8Size)
      dsimp only
      omega
    · exact Nat.zero_le room

lemma octets_le_of_mem_chunks (h : l ∈ chunks s) : octets l ≤ 71 := by
  induction s using chunks.induct with
  | case1 => simp [chunks] at h
  | case2 s hs _ ih =>
    rw [chunks, dif_neg hs] at h
    rcases List.mem_cons.1 h with rfl | h
    · apply octets_takeRoom_le
    · exact ih h

lemma octets_le_of_mem_headerLines {name value : String} (h : l ∈ headerLines name value) : octets l ≤ 72 := by
  rcases List.mem_cons.1 h with rfl | h
  · apply octets_takeRoom_le
  · obtain ⟨chunk, hchunk, rfl⟩ := List.mem_map.1 h
    have hblank : octets (' ' :: chunk) = 1 + octets chunk := rfl
    have hle := octets_le_of_mem_chunks hchunk
    omega

lemma octets_le_of_mem_sectionLines {attributes : List (String × String)} (h : l ∈ sectionLines attributes) : octets l ≤ 72 := by
  rcases List.mem_append.1 h with h | h
  · obtain ⟨a, -, ha⟩ := List.mem_flatMap.1 h
    exact octets_le_of_mem_headerLines ha
  · obtain rfl := List.mem_singleton.1 h
    exact Nat.zero_le 72

lemma continuations_eq (s : List Char) :
    continuations s = lineEnd ++ ((chunks s).map (' ' :: ·)).flatMap (· ++ lineEnd) := by
  induction s using chunks.induct with
  | case1 => simp [continuations, chunks]
  | case2 s hs _ ih =>
    rw [continuations, dif_neg hs, ih, chunks.eq_def s, dif_neg hs]
    simp

lemma writeFolded_eq (name value : String) : writeFolded name value = (headerLines name value).flatMap (· ++ lineEnd) := by
  rw [writeFolded, continuations_eq, headerLines, List.flatMap_cons]
  exact (List.append_assoc _ _ _).symm

lemma writeAttributes_eq (attributes : List (String × String)) :
    writeAttributes attributes = (sectionLines attributes).flatMap (· ++ lineEnd) := by
  rw [writeAttributes, sectionLines, List.flatMap_append, List.flatMap_assoc]
  simp only [writeFolded_eq, List.flatMap_singleton, List.nil_append]

def writtenLines (m : Manifest) : List (List Char) :=
  sectionLines (versionFirst m.main.attributes) ++ m.entries.flatMap fun s => sectionLines s.attributes

lemma writeChars_eq (m : Manifest) : m.writeChars = m.writtenLines.flatMap (· ++ lineEnd) := by
  rw [writeChars, writtenLines, List.flatMap_append, List.flatMap_assoc, writeAttributes_eq]
  simp only [writeAttributes_eq]

lemma octets_le_of_mem_writtenLines (h : l ∈ m.writtenLines) : octets l ≤ 72 := by
  rcases List.mem_append.1 h with h | h
  · exact octets_le_of_mem_sectionLines h
  · obtain ⟨s, -, hs⟩ := List.mem_flatMap.1 h
    exact octets_le_of_mem_sectionLines hs

lemma unbroken_of_mem_writtenLines (hm : m.Writable) (h : l ∈ m.writtenLines) : Unbroken l := by
  apply unbroken_of_mem_lines (s := m.writeChars)
  rw [lines_writeChars hm]
  exact h

lemma toBytes_eq (m : Manifest) :
    m.toBytes = (m.writtenLines.map fun l => Bytes.utf8 (String.ofList l)).flatMap (· ++ [13, 10]) := by
  have hend : lineEnd.flatMap String.utf8EncodeChar = [13, 10] := by decide
  rw [toBytes, toText, Bytes.utf8_eq_flatMap, String.toList_ofList, writeChars_eq, List.flatMap_assoc, List.flatMap_map]
  simp only [List.flatMap_append, hend, Bytes.utf8_eq_flatMap, String.toList_ofList]

end Lines

section RoundTrip

variable {m : Manifest}

structure Legible (m : Manifest) : Prop where
  readable : ∀ s ∈ m.sections, ∀ a ∈ s.attributes, Readable a
  short : ∀ s ∈ m.sections, ∀ a ∈ s.attributes, (Bytes.utf8 a.1).length ≤ 70
  named : ∀ s ∈ m.entries, s.attributes ≠ [] ∧ StartsWithName s
  unmarked : ∀ a ∈ (versionFirst m.main.attributes).head?, a.1.toList.head? ≠ some mark

lemma Legible.writable (h : m.Legible) : m.Writable := by
  obtain ⟨hmain, hentries⟩ := List.forall_mem_cons.1 h.readable
  exact ⟨hmain, fun s hs => ⟨(h.named s hs).1, hentries s hs⟩⟩

lemma writable_arranged_iff : m.arranged.Writable ↔ m.Writable := by
  have hmain : (∀ a ∈ m.arranged.main.attributes, Readable a) ↔ ∀ a ∈ m.main.attributes, Readable a :=
    forall_congr' fun a => by rw [arranged, (versionFirst_perm _).mem_iff]
  constructor
  · intro h
    exact ⟨hmain.1 h.main, h.entries⟩
  · intro h
    exact ⟨hmain.2 h.main, h.entries⟩

lemma parse_toBytes_ne_arranged (hw : m.Writable) (hm : m.writeChars.head? = some mark) : parse m.toBytes ≠ .ok m.arranged := by
  intro h
  obtain ⟨a, rest, hv, hne, hnames⟩ := names_of_parse_toBytes hw hm h
  rw [arranged, hv, List.map_cons, List.cons.injEq] at hnames
  have hlength := congrArg List.length hnames.1
  have hpos := List.length_pos_iff.2 hne
  rw [List.length_tail] at hlength
  omega

theorem parse_toBytes_eq_arranged_iff : parse m.toBytes = .ok m.arranged ↔ m.Legible := by
  constructor
  · intro h
    have hw : m.Writable := writable_arranged_iff.1 (writable_of_parse h)
    have hm : m.writeChars.head? ≠ some mark := fun hm => parse_toBytes_ne_arranged hw hm h
    obtain ⟨hmain, hentries, hback⟩ := (parse_toBytes_eq_ok_iff hw hm).1 h
    have hne := readBackAll_eq_arranged_iff.1 hback.symm
    refine ⟨List.forall_mem_cons.2 ⟨hw.main, fun s hs => (hw.entries s hs).2⟩, fun s hs a ha => ?_, fun s hs => ?_, ?_⟩
    · have hshort : Short s := by
        rcases List.mem_cons.1 hs with rfl | hs
        · exact hmain
        · exact (hentries s hs).1
      have hle := hshort a ha
      have hlong := hne s hs a ha
      have hlength : (Bytes.utf8 a.1).length = octets a.1.toList := Bytes.length_utf8 a.1
      omega
    · exact ⟨(hw.entries s hs).1, (hentries s hs).2⟩
    · intro a ha hmark
      exact hm ((head?_writeChars_eq_mark_iff hw).2 ⟨a, ha, hmark⟩)
  · intro h
    have hle : ∀ s ∈ m.sections, ∀ a ∈ s.attributes, octets a.1.toList ≤ 70 := fun s hs a ha =>
      (Bytes.length_utf8 a.1).symm.le.trans (h.short s hs a ha)
    have hshort : ∀ s ∈ m.sections, Short s := fun s hs a ha => Nat.le_succ_of_le (hle s hs a ha)
    have hm : m.writeChars.head? ≠ some mark := by
      rw [ne_eq, head?_writeChars_eq_mark_iff h.writable]
      rintro ⟨a, ha, hmark⟩
      exact h.unmarked a ha hmark
    apply (parse_toBytes_eq_ok_iff h.writable hm).2
    refine ⟨hshort _ List.mem_cons_self, fun s hs => ⟨hshort s (List.mem_cons_of_mem _ hs), (h.named s hs).2⟩, ?_⟩
    apply (readBackAll_eq_arranged_iff.2 fun s hs a ha => ?_).symm
    have h70 := hle s hs a ha
    omega

theorem parse_toBytes_of_legible (h : m.Legible) : Bytes.ofUtf8? m.toBytes = some m.toText ∧
    (∃ ls : List Bytes, m.toBytes = ls.flatMap (· ++ [13, 10]) ∧ ∀ l ∈ ls, l.length ≤ 72 ∧ 13 ∉ l ∧ 10 ∉ l) ∧
    parse m.toBytes = .ok m.arranged := by
  refine ⟨Bytes.ofUtf8?_utf8 m.toText, ⟨_, toBytes_eq m, fun l hl => ?_⟩, parse_toBytes_eq_arranged_iff.2 h⟩
  obtain ⟨line, hline, rfl⟩ := List.mem_map.1 hl
  have hlength : (Bytes.utf8 (String.ofList line)).length = octets (String.ofList line).toList := Bytes.length_utf8 _
  have hr := @Bytes.mem_utf8_iff_of_ascii (String.ofList line) '\r' (by decide)
  have hn := @Bytes.mem_utf8_iff_of_ascii (String.ofList line) '\n' (by decide)
  have hunbroken := unbroken_of_mem_writtenLines h.writable hline
  rw [String.toList_ofList] at hlength hr hn
  refine ⟨?_, fun hm => hunbroken.1 (hr.1 hm), fun hm => hunbroken.2 (hn.1 hm)⟩
  rw [hlength]
  exact octets_le_of_mem_writtenLines hline

def folded : Manifest :=
  ⟨⟨[("Created-By", "  a"), ("Manifest-Version", "1.0"), (String.ofList (List.replicate 70 'x'), "")]⟩,
    [⟨[("name", String.ofList (List.replicate 30 '€')), ("Name", " ")]⟩]⟩

set_option maxRecDepth 10000 in
lemma legible_folded : folded.Legible where
  readable := by
    simp only [folded, sections, List.forall_mem_cons, List.not_mem_nil, false_imp_iff, implies_true, and_true]
    and_intros <;> (constructor <;> decide)
  short := by decide
  named := by
    simp only [folded, List.forall_mem_cons, List.not_mem_nil, false_imp_iff, implies_true, and_true]
    exact ⟨by simp, fun a ha => Option.mem_some_iff.1 ha ▸ by decide⟩
  unmarked := by decide

theorem parse_toBytes_folded : folded.Legible ∧ parse folded.toBytes = .ok ⟨⟨[("Manifest-Version", "1.0"),
    ("Created-By", "  a"), (String.ofList (List.replicate 70 'x'), "")]⟩, folded.entries⟩ :=
  ⟨legible_folded, (parse_toBytes_of_legible legible_folded).2.2⟩

end RoundTrip

section Conversions

variable {p : Profile} {m : Manifest} {path : String} {source bytes : Bytes} {c : Conversion}

lemma exists_of_convert (h : convert p path source = .ok c) (hc : c.replacement = some bytes) :
    ∃ m, parse source = .ok m ∧ bytes = (migrated p m).toBytes := by
  rw [convert, mapError_eq_ok_iff, convertBytes] at h
  split at h
  · obtain rfl := Except.ok.inj h
    cases hc
  · obtain ⟨m, hm, h⟩ := bind_eq_ok_iff.1 h
    split at h
    · obtain rfl := Except.ok.inj h
      cases hc
    · obtain rfl := Except.ok.inj h
      exact ⟨m, hm, (Option.some.inj hc).symm⟩

lemma exists_of_mem_migrated {s : Section} (hs : s ∈ (migrated p m).sections) {b : String × String} (hb : b ∈ s.attributes) :
    ∃ t ∈ m.sections, ∃ a ∈ t.attributes, Updates p a b := by
  rcases List.mem_cons.1 hs with rfl | hs
  · obtain ⟨a, ha, hu⟩ := exists_of_forall₂ (forall₂_updates p m.main).flip ((unsignMain_sublist _).subset hb)
    exact ⟨m.main, List.mem_cons_self, a, ha, hu⟩
  · obtain ⟨t, ht, rfl⟩ := List.mem_map.1 (List.mem_filter.1 hs).1
    obtain ⟨a, ha, hu⟩ := exists_of_forall₂ (forall₂_updates p t).flip hb
    exact ⟨t, List.mem_cons_of_mem _ ht, a, ha, hu⟩

lemma named_of_mem_migrated (h : parse source = .ok m) {s : Section} (hs : s ∈ (migrated p m).entries) :
    s.attributes ≠ [] ∧ StartsWithName s := by
  obtain ⟨t, ht, rfl⟩ := List.mem_map.1 (List.mem_filter.1 hs).1
  refine ⟨fun he => ((writable_of_parse h).entries t ht).1 ?_, startsWithName_updateSection p (startsWithName_of_parse h t ht)⟩
  have hlength := (forall₂_updates p t).length_eq
  rw [he, List.length_nil] at hlength
  exact List.length_eq_zero_iff.1 hlength

lemma writable_migrated_of_unbroken (h : parse source = .ok m)
    (hv : ∀ s ∈ (migrated p m).sections, ∀ a ∈ s.attributes, Unbroken a.2.toList) : (migrated p m).Writable := by
  have hread : ∀ s ∈ (migrated p m).sections, ∀ b ∈ s.attributes, Readable b := by
    intro s hs b hb
    obtain ⟨t, ht, a, ha, hname, -⟩ := exists_of_mem_migrated hs hb
    have hold : Readable a := by
      rcases List.mem_cons.1 ht with rfl | ht
      · exact (writable_of_parse h).main a ha
      · exact ((writable_of_parse h).entries t ht).2 a ha
    exact ⟨hname ▸ hold.name_ne, hname ▸ hold.colon, hname ▸ hold.blank, hname ▸ hold.name, hv s hs b hb⟩
  obtain ⟨hmain, hentries⟩ := List.forall_mem_cons.1 hread
  exact ⟨hmain, fun s hs => ⟨(named_of_mem_migrated h hs).1, hentries s hs⟩⟩

lemma legible_migrated_iff (h : parse source = .ok m) : (migrated p m).Legible ↔
    (∀ s ∈ (migrated p m).sections, ∀ a ∈ s.attributes, (Bytes.utf8 a.1).length ≤ 70 ∧ Unbroken a.2.toList) ∧
      ∀ a ∈ (versionFirst (migrated p m).main.attributes).head?, a.1.toList.head? ≠ some mark := by
  constructor
  · intro hl
    exact ⟨fun s hs a ha => ⟨hl.short s hs a ha, (hl.readable s hs a ha).value⟩, hl.unmarked⟩
  · rintro ⟨hall, hmark⟩
    have hw := writable_migrated_of_unbroken h fun s hs a ha => (hall s hs a ha).2
    exact ⟨List.forall_mem_cons.2 ⟨hw.main, fun s hs => (hw.entries s hs).2⟩, fun s hs a ha => (hall s hs a ha).1,
      fun s hs => named_of_mem_migrated h hs, hmark⟩

lemma unbroken_of_mem_migrated (ht : Unbroken p.target.toList) (h : parse source = .ok m) :
    ∀ s ∈ (migrated p m).sections, ∀ a ∈ s.attributes, Unbroken a.2.toList := by
  have hw := writable_migrated ht (writable_of_parse h)
  refine List.forall_mem_cons.2 ⟨fun a ha => (hw.main a ha).value, fun s hs a ha => ?_⟩
  exact ((hw.entries s hs).2 a ha).value

/-- A manifest that was written anew is read as the converted one, its version in front, just if each name leaves room for
the colon and the blank, no value breaks lines, as none does under a target of one line, and no mark comes first. -/
theorem parse_convert_eq_arranged_iff (h : convert p path source = .ok c) (hc : c.replacement = some bytes) :
    ∃ m, parse source = .ok m ∧ bytes = (migrated p m).toBytes ∧
      (parse bytes = .ok (migrated p m).arranged ↔
        (∀ s ∈ (migrated p m).sections, ∀ a ∈ s.attributes, (Bytes.utf8 a.1).length ≤ 70 ∧ Unbroken a.2.toList) ∧
          ∀ a ∈ (versionFirst (migrated p m).main.attributes).head?, a.1.toList.head? ≠ some mark) ∧
      (Unbroken p.target.toList → ∀ s ∈ (migrated p m).sections, ∀ a ∈ s.attributes, Unbroken a.2.toList) := by
  obtain ⟨m, hm, rfl⟩ := exists_of_convert h hc
  refine ⟨m, hm, rfl, ?_, fun ht => unbroken_of_mem_migrated ht hm⟩
  rw [parse_toBytes_eq_arranged_iff, legible_migrated_iff hm]

lemma convert_eq_replaced (hp : p.isTrivial = false) (hm : parse source = .ok m) (hne : migrated p m ≠ m) (path : String) :
    convert p path source =
      .ok (.replaced (migrated p m).toBytes (m.sections.any (migratesAny p) || isSigned m)) := by
  rw [convert, mapError_eq_ok_iff, convertBytes, if_neg (by simp [hp]), hm]
  exact if_neg hne

theorem parse_convert_of_moved_version :
    let source := Bytes.utf8 "Implementation-Version: 1\nManifest-Version: 1.0\nX: javax.servlet\n"
    ∃ c bytes, convert BuiltIn.tomcatProfile fileName source = .ok c ∧ c.replacement = some bytes ∧ parse bytes =
      .ok ⟨⟨[("Manifest-Version", "1.0"), ("Implementation-Version", "1-0.1.0"), ("X", "jakarta.servlet")]⟩, []⟩ := by
  intro source
  let m : Manifest := ⟨⟨[("Implementation-Version", "1"), ("Manifest-Version", "1.0"), ("X", "javax.servlet")]⟩, []⟩
  have hm : parse source = .ok m := by
    rw [parse_utf8]
    exact eq_ok_of_toOption_eq_some (by decide +kernel)
  have hc := convert_eq_replaced (p := BuiltIn.tomcatProfile) (by decide) hm (by decide +kernel) fileName
  obtain ⟨n, hn, -, hiff, -⟩ := parse_convert_eq_arranged_iff hc rfl
  obtain rfl : m = n := Except.ok.inj (hm.symm.trans hn)
  have hread := hiff.2 ⟨by decide +kernel, by decide +kernel⟩
  have harranged : (migrated BuiltIn.tomcatProfile m).arranged =
      ⟨⟨[("Manifest-Version", "1.0"), ("Implementation-Version", "1-0.1.0"), ("X", "jakarta.servlet")]⟩, []⟩ := by decide +kernel
  exact ⟨_, _, hc, rfl, harranged ▸ hread⟩

/-- A name of 71 octets leaves no room for the blank, so the value is read with one blank more. -/
theorem parse_convert_ne_arranged_of_long_name :
    let source := Bytes.utf8 (String.ofList (List.replicate 71 'X' ++ ": javax.servlet\n".toList))
    ∃ m c bytes, parse source = .ok m ∧ convert BuiltIn.tomcatProfile fileName source = .ok c ∧ c.replacement = some bytes ∧
      parse bytes ≠ .ok (migrated BuiltIn.tomcatProfile m).arranged := by
  intro source
  let m : Manifest := ⟨⟨[(String.ofList (List.replicate 71 'X'), "javax.servlet")]⟩, []⟩
  have hm : parse source = .ok m := by
    rw [parse_utf8, String.toList_ofList]
    exact eq_ok_of_toOption_eq_some (by decide +kernel)
  refine ⟨m, _, _, hm, convert_eq_replaced (by decide) hm (by decide +kernel) fileName, rfl, fun h => ?_⟩
  have hshort := (parse_toBytes_eq_arranged_iff.1 h).short _ List.mem_cons_self
  revert hshort
  decide +kernel

end Conversions

end NamespaceMigration.Manifest
