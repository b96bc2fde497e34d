import NamespaceMigration.Proofs.Cache.Key
import NamespaceMigration.Proofs.Except
import NamespaceMigration.Proofs.Manifest.Lines

namespace NamespaceMigration.Manifest

section Steps

variable {p q : Progress} {number : ℕ}

lemma stepAll_append (p : Progress) (number : ℕ) (ls rest : List (List Char)) :
    stepAll p number (ls ++ rest) = stepAll p number ls >>= fun q => stepAll q (number + ls.length) rest := by
  induction ls generalizing p number with
  | nil => rfl
  | cons l ls ih =>
    rw [List.cons_append, stepAll, stepAll]
    cases p.step number l with
    | error fault => rfl
    | ok q =>
      have hn : number + 1 + ls.length = number + (l :: ls).length := by rw [List.length_cons]; omega
      simpa only [bind, Except.bind, hn] using ih q (number + 1)

lemma stepAll_blank : stepAll p number [[]] = .ok p.endSection := rfl

lemma stepAll_chunks {name value : String} {before : List (String × String)} (hp : p.current = (name, value) :: before)
    (cs : List (List Char)) : stepAll p number (cs.map (' ' :: ·)) =
      .ok { p with current := (name, value ++ String.ofList cs.flatten) :: before } := by
  induction cs generalizing p number value with
  | nil =>
    cases p
    simp_all [stepAll]
  | cons c cs ih =>
    have hstep : p.step number (' ' :: c) = .ok { p with current := (name, value ++ String.ofList c) :: before } := by
      simp [Progress.step, hp, continueLast]
    rw [List.map_cons, stepAll, hstep]
    have hi := @ih { p with current := (name, value ++ String.ofList c) :: before } (number + 1) _ rfl
    simpa [bind, Except.bind, String.ofList_append, String.append_assoc] using hi

end Steps

section Headers

variable {p q : Progress} {number : ℕ} {line : List Char} {name : String}

def Progress.Takes (p : Progress) (name : String) : Prop :=
  p.main.isSome = true → p.current = [] → Text.sameLetters name "Name" = true

lemma stepAll_header_eq_ok_iff (hl : line.head? ≠ some ' ') (hne : line ≠ []) {pieces : List (List Char)} :
    stepAll p number (line :: pieces.map (' ' :: ·)) = .ok q ↔
      ∃ a, header? line = some a ∧ p.Takes a.1 ∧
        q = { p with current := (a.1, a.2 ++ String.ofList pieces.flatten) :: p.current } := by
  obtain ⟨c, line, rfl⟩ := List.exists_cons_of_ne_nil hne
  have hc : (c == ' ') = false := by simpa using hl
  rw [stepAll, Progress.step, hc]
  cases header? (c :: line) with
  | none => simp [bind, Except.bind]
  | some a =>
    obtain ⟨name, value⟩ := a
    simp only [Bool.false_eq_true, if_false, Option.some.injEq, exists_eq_left']
    have htakes : (p.main.isSome && p.current.isEmpty && !Text.sameLetters name "Name") = true ↔ ¬ p.Takes name := by
      simp [Progress.Takes, and_assoc]
    split
    next h => simp [bind, Except.bind, htakes.1 h]
    next h =>
      rw [htakes, not_not] at h
      have hchunks := @stepAll_chunks { p with current := (name, value) :: p.current } (number + 1) name value
        p.current rfl pieces
      simp only [bind, Except.bind, hchunks, Except.ok.injEq, h, true_and]
      exact eq_comm

lemma header?_append_cons (hn : line ≠ []) (hc : ':' ∉ line) (hb : ' ' ∉ line) (value : List Char) :
    header? (line ++ ':' :: value) =
      some (String.ofList line, String.ofList ((Text.strip? [' '] value).getD value)) := by
  have hsplit : Text.splitFirst? (· == ':') (line ++ ':' :: value) = some (line, value) := by
    refine Text.splitFirst?_eq_some_iff.2 ⟨fun c hm => ?_, ':', by decide, rfl⟩
    simpa using fun he : c = ':' => hc (he ▸ hm)
  rw [header?, hsplit]
  simp [hn, hb]

lemma header?_eq_none (hc : ':' ∉ line) : header? line = none := by
  cases hs : Text.splitFirst? (· == ':') line with
  | none => rw [header?, hs]
  | some parts =>
    obtain ⟨-, c, he, rfl⟩ := Text.splitFirst?_eq_some_iff.1 hs
    simp [beq_iff_eq.1 he] at hc

def readBack (a : String × String) : String × String :=
  (a.1, if octets a.1.toList = 71 then " " ++ a.2 else a.2)

lemma takeRoom_header {name : List Char} (h : octets name ≤ 71) (value : List Char) :
    ∃ v, (takeRoom 72 (name ++ [':', ' '] ++ value)).1 = name ++ ':' :: v ∧
      (Text.strip? [' '] v).getD v ++ (takeRoom 72 (name ++ [':', ' '] ++ value)).2 =
        if octets name = 71 then ' ' :: value else value := by
  rw [List.append_assoc, takeRoom_of_le (by omega)]
  have hcolon : Char.utf8Size ':' = 1 := by decide
  have hblank : Char.utf8Size ' ' = 1 := by decide
  rw [List.cons_append, takeRoom, if_pos (by omega), hcolon, List.cons_append, takeRoom, hblank]
  by_cases h71 : octets name = 71
  · refine ⟨[], ?_, ?_⟩
    · simp [h71]
    · simp [h71, Text.strip?]
  · have hroom : 1 ≤ 72 - octets name - 1 := by omega
    refine ⟨' ' :: (takeRoom (72 - octets name - 1 - 1) value).1, ?_, ?_⟩
    · simp [hroom]
    · have hparts := takeRoom_append (72 - octets name - 1 - 1) value
      simpa [hroom, Text.strip?, h71] using hparts

lemma takeRoom_cons {room : ℕ} (h : 4 ≤ room) (c : Char) (s : List Char) : takeRoom room (c :: s) =
    (c :: (takeRoom (room - c.utf8Size) s).1, (takeRoom (room - c.utf8Size) s).2) := by
  rw [takeRoom, if_pos (Nat.le_trans (Char.utf8Size_le_four c) h)]

lemma stepAll_headerLines_eq_ok_iff {a : String × String} (ha : Readable a) :
    stepAll p number (headerLines a.1 a.2) = .ok q ↔
      octets a.1.toList ≤ 71 ∧ p.Takes a.1 ∧ q = { p with current := readBack a :: p.current } := by
  obtain ⟨name, value⟩ := a
  obtain ⟨c, cs, hcs⟩ := List.exists_cons_of_ne_nil ha.name_ne
  have hblank : c ≠ ' ' := fun he => ha.blank (by simp [hcs, he])
  obtain ⟨t, ht⟩ : ∃ t, (takeRoom 72 (name.toList ++ [':', ' '] ++ value.toList)).1 = c :: t := by
    dsimp only at hcs
    rw [hcs, List.cons_append, List.cons_append, takeRoom_cons (by decide)]
    exact ⟨_, rfl⟩
  rw [headerLines, stepAll_header_eq_ok_iff (by rw [ht]; simpa using hblank) (by rw [ht]; simp), flatten_chunks]
  by_cases h : octets name.toList ≤ 71
  · obtain ⟨v, hv, hvalue⟩ := takeRoom_header h value.toList
    have hread := congrArg String.ofList hvalue
    rw [String.ofList_append] at hread
    rw [hv, header?_append_cons ha.name_ne ha.colon ha.blank]
    simp only [Option.some.injEq, exists_eq_left', h, true_and, String.ofList_toList, hread]
    have hback : readBack (name, value) =
        (name, String.ofList (if octets name.toList = 71 then ' ' :: value.toList else value.toList)) := by
      rw [readBack]
      split <;> simp
    rw [hback]
  · have hp := prefix_of_takeRoom (Nat.succ_le_of_lt (Nat.lt_of_not_le h)) ([':', ' '] ++ value.toList)
    rw [← List.append_assoc] at hp
    rw [header?_eq_none fun hm => ha.colon (hp.subset hm)]
    simp [h]

end Headers

section Sections

variable {p q : Progress} {number : ℕ} {attributes : List (String × String)} {entries : List Section}

lemma stepAll_attributes_eq_ok_iff (h : ∀ a ∈ attributes, Readable a) :
    stepAll p number (attributes.flatMap fun a => headerLines a.1 a.2) = .ok q ↔
      (∀ a ∈ attributes, octets a.1.toList ≤ 71) ∧ (∀ a ∈ attributes.head?, p.Takes a.1) ∧
        q = { p with current := (attributes.map readBack).reverse ++ p.current } := by
  induction attributes generalizing p number with
  | nil => simp [stepAll, eq_comm]
  | cons a attributes ih =>
    have hi := fun p number => @ih p number fun b hb => h b (by simp [hb])
    have htakes : ∀ b : String × String, ({ p with current := readBack a :: p.current } : Progress).Takes b.1 := by
      simp [Progress.Takes]
    rw [List.flatMap_cons, stepAll_append, bind_eq_ok_iff]
    simp only [stepAll_headerLines_eq_ok_iff (h a (by simp)), hi]
    constructor
    · rintro ⟨q, ⟨ha, ht, rfl⟩, hl, -, rfl⟩
      exact ⟨List.forall_mem_cons.2 ⟨ha, hl⟩, by simpa using ht, by simp⟩
    · rintro ⟨hl, ht, rfl⟩
      rw [List.forall_mem_cons] at hl
      exact ⟨_, ⟨hl.1, ht a rfl, rfl⟩, hl.2, fun b _ => htakes b, by simp⟩

lemma stepAll_sectionLines_eq_ok_iff (h : ∀ a ∈ attributes, Readable a) :
    stepAll p number (sectionLines attributes) = .ok q ↔
      (∀ a ∈ attributes, octets a.1.toList ≤ 71) ∧ (∀ a ∈ attributes.head?, p.Takes a.1) ∧
        q = Progress.endSection { p with current := (attributes.map readBack).reverse ++ p.current } := by
  rw [sectionLines, stepAll_append, bind_eq_ok_iff]
  simp only [stepAll_attributes_eq_ok_iff h, stepAll_blank, Except.ok.injEq]
  constructor
  · rintro ⟨q, ⟨hl, ht, rfl⟩, rfl⟩
    exact ⟨hl, ht, rfl⟩
  · rintro ⟨hl, ht, rfl⟩
    exact ⟨_, ⟨hl, ht, rfl⟩, rfl⟩

def Short (s : Section) : Prop := ∀ a ∈ s.attributes, octets a.1.toList ≤ 71

def StartsWithName (s : Section) : Prop := ∀ a ∈ s.attributes.head?, Text.sameLetters a.1 "Name" = true

def readBackSection (s : Section) : Section := ⟨s.attributes.map readBack⟩

lemma stepAll_entries_eq_ok_iff (h : ∀ s ∈ entries, s.attributes ≠ [] ∧ ∀ a ∈ s.attributes, Readable a)
    (hm : p.main.isSome = true) (hc : p.current = []) :
    stepAll p number (entries.flatMap fun s => sectionLines s.attributes) = .ok q ↔
      (∀ s ∈ entries, Short s ∧ StartsWithName s) ∧
        q = { p with entries := (entries.map readBackSection).reverse ++ p.entries } := by
  induction entries generalizing p number with
  | nil => simp [stepAll, eq_comm]
  | cons s entries ih =>
    have hs := h s (by simp)
    have htakes : ∀ name, p.Takes name ↔ Text.sameLetters name "Name" = true := by simp [Progress.Takes, hm, hc]
    have hend : Progress.endSection { p with current := (s.attributes.map readBack).reverse ++ p.current } =
        { p with entries := readBackSection s :: p.entries } := by
      obtain ⟨main, hmain⟩ := Option.isSome_iff_exists.1 hm
      simp [Progress.endSection, hmain, hc, Section.isEmpty, hs.1, readBackSection]
    rw [List.flatMap_cons, stepAll_append, bind_eq_ok_iff]
    simp only [stepAll_sectionLines_eq_ok_iff hs.2, hend, htakes]
    have hi := fun number => @ih { p with entries := readBackSection s :: p.entries } number
      (fun t ht => h t (by simp [ht])) hm hc
    constructor
    · rintro ⟨q, ⟨hl, ht, rfl⟩, hq⟩
      obtain ⟨hshort, rfl⟩ := (hi _).1 hq
      exact ⟨List.forall_mem_cons.2 ⟨⟨hl, ht⟩, hshort⟩, by simp⟩
    · rintro ⟨hshort, rfl⟩
      rw [List.forall_mem_cons] at hshort
      exact ⟨_, ⟨hshort.1.1, hshort.1.2, rfl⟩, (hi _).2 ⟨hshort.2, by simp⟩⟩

end Sections

section Whole

variable {m r : Manifest}

structure Writable (m : Manifest) : Prop where
  main : ∀ a ∈ m.main.attributes, Readable a
  entries : ∀ s ∈ m.entries, s.attributes ≠ [] ∧ ∀ a ∈ s.attributes, Readable a

def readBackAll (m : Manifest) : Manifest :=
  ⟨⟨(versionFirst m.main.attributes).map readBack⟩, m.entries.map readBackSection⟩

lemma versionFirst_perm (attributes : List (String × String)) : (versionFirst attributes).Perm attributes := by
  rw [versionFirst]
  induction attributes with
  | nil => exact .refl _
  | cons a attributes ih =>
    rw [List.find?_cons, List.eraseP_cons]
    cases Text.sameLetters a.1 "Manifest-Version" with
    | true => exact .refl _
    | false => exact List.perm_middle.trans (ih.cons a)

def arranged (m : Manifest) : Manifest := ⟨⟨versionFirst m.main.attributes⟩, m.entries⟩

lemma Writable.versionFirst (h : m.Writable) : ∀ a ∈ versionFirst m.main.attributes, Readable a :=
  fun a ha => h.main a ((versionFirst_perm _).mem_iff.1 ha)

lemma lines_entries {entries : List Section} (h : ∀ s ∈ entries, s.attributes ≠ [] ∧ ∀ a ∈ s.attributes, Readable a) :
    lines (entries.flatMap fun s => writeAttributes s.attributes) = entries.flatMap fun s => sectionLines s.attributes := by
  induction entries with
  | nil => simp [lines, linesFrom]
  | cons s entries ih =>
    rw [List.flatMap_cons, lines_writeAttributes (h s (by simp)).2, ih fun t ht => h t (by simp [ht]), List.flatMap_cons]

lemma lines_writeChars (h : m.Writable) : lines m.writeChars =
    sectionLines (versionFirst m.main.attributes) ++ m.entries.flatMap fun s => sectionLines s.attributes := by
  rw [writeChars, lines_writeAttributes h.versionFirst, lines_entries h.entries]

lemma stepAll_sections_eq_ok_iff {p q : Progress} {number : ℕ} {attributes : List (String × String)}
    (ha : ∀ a ∈ attributes, Readable a) (h : m.Writable) (hp : p.main = none) (hn : p.entries = []) :
    stepAll p number (sectionLines attributes ++ m.entries.flatMap fun s => sectionLines s.attributes) = .ok q ↔
      (∀ a ∈ attributes, octets a.1.toList ≤ 71) ∧ (∀ s ∈ m.entries, Short s ∧ StartsWithName s) ∧
        q = ⟨some ⟨p.current.reverse ++ attributes.map readBack⟩, (m.entries.map readBackSection).reverse, []⟩ := by
  have htakes : ∀ a ∈ attributes.head?, p.Takes a.1 := by simp [Progress.Takes, hp]
  have hend : Progress.endSection { p with current := (attributes.map readBack).reverse ++ p.current } =
      ⟨some ⟨p.current.reverse ++ attributes.map readBack⟩, [], []⟩ := by
    simp [Progress.endSection, hp, hn]
  rw [stepAll_append, bind_eq_ok_iff]
  simp only [stepAll_sectionLines_eq_ok_iff ha, hend]
  constructor
  · rintro ⟨q, ⟨hl, -, rfl⟩, hq⟩
    obtain ⟨hs, rfl⟩ := (stepAll_entries_eq_ok_iff h.entries rfl rfl).1 hq
    exact ⟨hl, hs, by simp⟩
  · rintro ⟨hl, hs, rfl⟩
    exact ⟨_, ⟨hl, htakes, rfl⟩, (stepAll_entries_eq_ok_iff h.entries rfl rfl).2 ⟨hs, by simp⟩⟩

def mark : Char := Char.ofNat 0xFEFF

lemma parse_utf8 (s : String) : parse (Bytes.utf8 s) = parseText s.toList := by
  rw [parse, Bytes.ofUtf8?_utf8]

lemma parse_toBytes : parse m.toBytes = parseText m.writeChars := by
  rw [toBytes, parse_utf8, toText, String.toList_ofList]

lemma strip?_mark_eq_none {s : List Char} (h : s.head? ≠ some mark) : Text.strip? [mark] s = none := by
  cases hs : Text.strip? [mark] s with
  | none => rfl
  | some t =>
    rw [Text.strip?_eq_some_iff.1 hs] at h
    exact absurd rfl h

lemma parse_toBytes_eq_ok_iff (h : m.Writable) (hm : m.writeChars.head? ≠ some mark) :
    parse m.toBytes = .ok r ↔ Short m.main ∧ (∀ s ∈ m.entries, Short s ∧ StartsWithName s) ∧ r = readBackAll m := by
  have hshort : (∀ a ∈ versionFirst m.main.attributes, octets a.1.toList ≤ 71) ↔ Short m.main :=
    forall_congr' fun a => by rw [(versionFirst_perm _).mem_iff]
  have hsteps := fun q => @stepAll_sections_eq_ok_iff m .start q 1 _ h.versionFirst h rfl rfl
  have hfinish : Progress.finish ⟨some ⟨Progress.start.current.reverse ++ (versionFirst m.main.attributes).map readBack⟩,
      (m.entries.map readBackSection).reverse, []⟩ = readBackAll m := by
    simp [Progress.finish, Progress.endSection, Section.isEmpty, readBackAll, Progress.start]
  rw [parse_toBytes, parseText, ← mark, strip?_mark_eq_none hm, Option.getD_none, bind_eq_ok_iff, lines_writeChars h]
  simp only [hsteps, hshort]
  constructor
  · rintro ⟨q, ⟨hl, hs, rfl⟩, hr⟩
    exact ⟨hl, hs, (Except.ok.inj hr).symm.trans hfinish⟩
  · rintro ⟨hl, hs, rfl⟩
    exact ⟨_, ⟨hl, hs, rfl⟩, congrArg Except.ok hfinish⟩

lemma readBack_eq_self_iff {a : String × String} : readBack a = a ↔ octets a.1.toList ≠ 71 := by
  rw [readBack]
  split
  next h =>
    refine ⟨fun he => ?_, fun hne => absurd h hne⟩
    have hlength := congrArg (fun b : String × String => b.2.length) he
    simp at hlength
  next h => exact iff_of_true rfl h

lemma map_readBack_eq_self_iff {l : List (String × String)} :
    l.map readBack = l ↔ ∀ a ∈ l, octets a.1.toList ≠ 71 := by
  have hid : l.map readBack = l ↔ l.map readBack = l.map id := by rw [List.map_id]
  simp only [hid, List.map_inj_left, id, readBack_eq_self_iff]

lemma readBackAll_eq_arranged_iff : readBackAll m = m.arranged ↔ ∀ s ∈ m.sections, ∀ a ∈ s.attributes, octets a.1.toList ≠ 71 := by
  have hsection : ∀ s : Section, readBackSection s = s ↔ ∀ a ∈ s.attributes, octets a.1.toList ≠ 71 := fun s => by
    rw [readBackSection, ← map_readBack_eq_self_iff]
    exact ⟨fun h => congrArg Section.attributes h, fun h => congrArg Section.mk h⟩
  have hentries : m.entries.map readBackSection = m.entries ↔ m.entries.map readBackSection = m.entries.map id := by
    rw [List.map_id]
  rw [readBackAll, arranged, Manifest.mk.injEq, Section.mk.injEq, map_readBack_eq_self_iff, hentries, List.map_inj_left]
  simp only [id, hsection, sections, List.forall_mem_cons, (versionFirst_perm _).mem_iff]

lemma head?_writeChars_eq_mark_iff (h : m.Writable) : m.writeChars.head? = some mark ↔
    ∃ a ∈ (versionFirst m.main.attributes).head?, a.1.toList.head? = some mark := by
  cases hv : versionFirst m.main.attributes with
  | nil => simp [writeChars, hv, writeAttributes, lineEnd, mark]
  | cons a rest =>
    have ha := h.versionFirst a (hv ▸ List.mem_cons_self)
    obtain ⟨c, kept, hname⟩ := List.exists_cons_of_ne_nil ha.name_ne
    have hhead : m.writeChars.head? = some c := by
      rw [writeChars, hv, writeAttributes, List.flatMap_cons, writeFolded, hname, List.cons_append, List.cons_append,
        takeRoom_cons (by decide)]
      rfl
    simp [hhead, hname]

lemma notMem_and_ne_of_header?_eq_some {line : List Char} {a : String × String} (h : header? line = some a) :
    ':' ∈ line ∧ a.1.toList ≠ [] ∧ ':' ∉ a.1.toList ∧ ' ' ∉ a.1.toList ∧ ∃ v, line = a.1.toList ++ ':' :: v ∧
      a.2 = String.ofList ((Text.strip? [' '] v).getD v) := by
  cases hs : Text.splitFirst? (· == ':') line with
  | none => simp [header?, hs] at h
  | some parts =>
    obtain ⟨name, v⟩ := parts
    obtain ⟨hall, c, hc, rfl⟩ := Text.splitFirst?_eq_some_iff.1 hs
    obtain rfl := beq_iff_eq.1 hc
    simp only [header?, hs] at h
    split at h
    next => cases h
    next hn =>
      obtain rfl := Option.some.inj h
      simp only [Bool.or_eq_true, List.isEmpty_iff, List.contains_iff_mem, not_or] at hn
      refine ⟨by simp, by simpa using hn.1, ?_, by simpa using hn.2, v, by simp⟩
      intro hm
      simpa using hall ':' (by simpa using hm)

lemma name_of_header?_tail {a b : String × String} (ha : Readable a) {c : Char} {l : List Char}
    (hl : (takeRoom 72 (a.1.toList ++ [':', ' '] ++ a.2.toList)).1 = c :: l) (hb : header? l = some b) :
    b.1.toList = a.1.toList.tail := by
  obtain ⟨hmem, -, hcolon, -, v, hv, -⟩ := notMem_and_ne_of_header?_eq_some hb
  by_cases h : octets a.1.toList ≤ 71
  · obtain ⟨w, hw, -⟩ := takeRoom_header h a.2.toList
    obtain ⟨d, kept, hkept⟩ := List.exists_cons_of_ne_nil ha.name_ne
    have hnot : ':' ∉ kept := fun hm => ha.colon (by simp [hkept, hm])
    rw [hw, hkept, List.cons_append, List.cons.injEq] at hl
    rw [hv] at hl
    rw [hkept]
    exact ((Text.append_cons_inj_of_notMem_left hnot hcolon).1 hl.2).1.symm
  · have hp := prefix_of_takeRoom (Nat.succ_le_of_lt (Nat.lt_of_not_le h)) ([':', ' '] ++ a.2.toList)
    rw [← List.append_assoc, hl] at hp
    exact absurd (hp.subset (List.mem_cons_of_mem _ hmem)) ha.colon

lemma names_of_parse_toBytes (h : m.Writable) (hm : m.writeChars.head? = some mark) (hr : parse m.toBytes = .ok r) :
    ∃ a rest, versionFirst m.main.attributes = a :: rest ∧ a.1.toList ≠ [] ∧
      r.main.attributes.map (fun b => b.1.toList) = a.1.toList.tail :: rest.map (fun b => b.1.toList) := by
  cases hv : versionFirst m.main.attributes with
  | nil =>
    rw [writeChars, hv] at hm
    simp [writeAttributes, lineEnd, mark] at hm
  | cons a rest =>
    have hread := hv ▸ h.versionFirst
    have ha := hread a (by simp)
    have hrest : ∀ b ∈ rest, Readable b := fun b hb => hread b (by simp [hb])
    obtain ⟨c, kept, hname⟩ := List.exists_cons_of_ne_nil ha.name_ne
    -- the first line has the first character and another one at least
    obtain ⟨l, hl, hne, hblank⟩ : ∃ l, (takeRoom 72 (a.1.toList ++ [':', ' '] ++ a.2.toList)).1 = c :: l ∧ l ≠ [] ∧
        l.head? ≠ some ' ' := by
      rw [hname, List.cons_append, List.cons_append, takeRoom_cons (by decide)]
      have hc := Char.utf8Size_le_four c
      refine ⟨_, rfl, ?_⟩
      cases kept with
      | nil =>
        rw [List.nil_append, List.cons_append, takeRoom_cons (by omega)]
        exact ⟨by simp, by simp⟩
      | cons d kept =>
        rw [List.cons_append, List.cons_append, takeRoom_cons (by omega)]
        exact ⟨by simp, by simpa using fun he : d = ' ' => ha.blank (by simp [hname, he])⟩
    have hparts := takeRoom_append 72 (a.1.toList ++ [':', ' '] ++ a.2.toList)
    have hall : Unbroken (a.1.toList ++ [':', ' '] ++ a.2.toList) := by simp [ha.name, ha.value]
    rw [← hparts, hl, unbroken_append, unbroken_cons] at hall
    have hwrite : m.writeChars = c :: (l ++ (continuations (takeRoom 72 (a.1.toList ++ [':', ' '] ++ a.2.toList)).2 ++
        (writeAttributes rest ++ m.entries.flatMap fun s => writeAttributes s.attributes))) := by
      rw [writeChars, hv, writeAttributes, List.flatMap_cons, writeFolded, hl]
      simp [writeAttributes]
    obtain rfl : c = mark := by simpa [hwrite] using hm
    have hstrip : Text.strip? [Char.ofNat 0xFEFF] m.writeChars = some _ :=
      Text.strip?_eq_some_iff.2 (hwrite.trans (List.singleton_append (x := mark)).symm)
    rw [parse_toBytes, parseText, hstrip, Option.getD_some, lines_continuations hall.1.2 hall.2,
      lines_writeAttributes hrest, lines_entries h.entries, ← List.cons_append, stepAll_append, bind_eq_ok_iff] at hr
    obtain ⟨q, hq, hr⟩ := hr
    obtain ⟨p, hp, hq⟩ := bind_eq_ok_iff.1 hq
    obtain ⟨b, hb, -, rfl⟩ := (stepAll_header_eq_ok_iff hblank hne).1 hp
    obtain ⟨-, -, rfl⟩ := (stepAll_sections_eq_ok_iff hrest h rfl rfl).1 hq
    obtain rfl := Except.ok.inj hr
    refine ⟨a, rest, rfl, ha.name_ne, ?_⟩
    rw [← name_of_header?_tail ha hl hb]
    simp [Progress.finish, Progress.endSection, Section.isEmpty, Progress.start, readBack]

end Whole

end NamespaceMigration.Manifest
