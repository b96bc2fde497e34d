import NamespaceMigration.Proofs.Manifest.Conversion
import NamespaceMigration.Proofs.Profile.Words

namespace NamespaceMigration

open Profile (Free)

structure Profile.SparesVersions (p : Profile) : Prop where
  regular : p.Regular
  versions : ∀ header : PackageHeader, p.Free header.version
  tool : p.Free toolVersion.toList

lemma Profile.sparesVersions_builtIn (b : BuiltIn) : b.profile.SparesVersions := by
  have hr := Profile.regular_builtIn b
  have hfree : ∀ word ∈ ["5.0.0", "[5.0.0,7.0.0)", toolVersion], b.profile.Free word.toList := by
    intro word hw
    have hclear : Text.Clear (Alphabet.spell b.profile.source) word.toList := by
      revert word
      cases b <;> decide
    rw [← List.append_nil word.toList]
    exact (Profile.free_append_of_clear hclear).2 (Profile.free_nil hr.chars)
  refine ⟨hr, fun header => ?_, hfree _ (by simp)⟩
  cases header with
  | exportPackage => exact hfree "5.0.0" (by simp)
  | importPackage => exact hfree "[5.0.0,7.0.0)" (by simp)

namespace PackageHeader

variable {p : Profile} {header : PackageHeader} {s : List Char} {d : Char}

section Pieces

variable (hp : p.SparesVersions)
include hp

lemma free_append_cons {a b : List Char} (hc : d.isAlphanum = false) (hs : Alphabet.isSeparator d = false) :
    p.Free (a ++ d :: b) ↔ p.Free a ∧ p.Free b :=
  (hp.regular.alphanumeric.avoids hc hs).free_append_cons hp.regular.chars

lemma free_revisePart {part : List Char} (h : p.Free part) : p.Free (header.revisePart part) := by
  refine of_revisePart h fun key value hv => ?_
  rw [hv.eq, free_append_cons hp (by decide) (by decide)] at h
  have hquoted : p.Free ([] ++ '"' :: (header.version ++ '"' :: [])) :=
    (free_append_cons hp (by decide) (by decide)).2 ⟨Profile.free_nil hp.regular.chars,
      (free_append_cons hp (by decide) (by decide)).2 ⟨hp.versions header, Profile.free_nil hp.regular.chars⟩⟩
  exact (free_append_cons hp (by decide) (by decide)).2 ⟨h.1, hquoted⟩

lemma free_updateClauses {clauses : List Char} (hs : p.Free s) (h : header.updateClauses s = some clauses) : p.Free clauses := by
  refine of_updateClauses (Profile.free_nil hp.regular.chars) (fun d hd a b => ?_) (fun part => free_revisePart hp) hs h
  have hd : d.isAlphanum = false ∧ Alphabet.isSeparator d = false := by
    rcases List.mem_pair.1 hd with rfl | rfl
    · decide
    · decide
  exact free_append_cons hp hd.1 hd.2

omit hp in
lemma replaceVersions_drop (skip : ℕ) (s : List Char) :
    header.replaceVersions skip s = header.replaceVersions 0 (s.drop skip) := by
  induction s generalizing skip with
  | nil => cases skip <;> rfl
  | cons c s ih =>
    cases skip with
    | zero => rfl
    | succ skip => exact ih skip

omit hp in
lemma versionedPackage?_eq_some {package old : List Char} (h : versionedPackage? s = some (package, old)) :
    ∃ start after, package = start ++ ['"'] ∧ s = start ++ '"' :: (old ++ '"' :: after) := by
  simp only [versionedPackage?, Option.bind_eq_bind, Option.bind_eq_some_iff, Option.some.injEq, Prod.mk.injEq] at h
  obtain ⟨rest, hr, quoted, hq, ⟨old, after⟩, hold, rfl, rfl⟩ := h
  obtain ⟨-, q, hquote, rfl⟩ := Text.splitFirst?_eq_some_iff.1 hold
  obtain rfl := beq_iff_eq.1 hquote
  have hrest := List.takeWhile_append_dropWhile (p := fun c => c != ',' && c != ';') (l := rest)
  have hstart : versionStart = ";version=".toList ++ ['"'] := rfl
  refine ⟨servletPackage ++ rest.takeWhile (fun c => c != ',' && c != ';') ++ ";version=".toList, after, ?_, ?_⟩
  · rw [hstart, List.append_assoc, List.append_assoc, List.append_assoc]
  · rw [Text.strip?_eq_some_iff.1 hq, hstart] at hrest
    generalize rest.takeWhile (fun c => c != ',' && c != ';') = inner at hrest ⊢
    rw [Text.strip?_eq_some_iff.1 hr, ← hrest]
    simp only [List.append_assoc, List.singleton_append]

lemma free_append_replaceVersions (before : List Char) (h : p.Free (before ++ s)) :
    p.Free (before ++ header.replaceVersions 0 s) := by
  induction hn : s.length using Nat.strongRecOn generalizing before s with
  | ind n ih =>
    cases s with
    | nil => exact h
    | cons c s =>
      rw [replaceVersions]
      split
      next package old hv =>
        obtain ⟨start, after, rfl, hcut⟩ := versionedPackage?_eq_some hv
        have hdrop : s.drop ((start ++ ['"']).length + old.length) = after := by
          have hwhole : (start ++ ['"'] ++ old ++ ['"'] ++ after).drop (start ++ ['"'] ++ old ++ ['"']).length = after :=
            List.drop_left
          have hs : start ++ ['"'] ++ old ++ ['"'] ++ after = c :: s := by
            rw [hcut]
            simp
          have hlength : (start ++ ['"'] ++ old ++ ['"']).length = (start ++ ['"']).length + old.length + 1 := by
            simp only [List.length_append, List.length_singleton]
          rwa [hs, hlength, List.drop_succ_cons] at hwhole
        have hlen : after.length < n := by
          rw [← hn, hcut]
          simp
          omega
        rw [hcut, ← List.append_assoc, free_append_cons hp (by decide) (by decide),
          free_append_cons hp (by decide) (by decide)] at h
        have hi := ih after.length hlen [] h.2.2 rfl
        have hnew := (free_append_cons hp (d := '"') (by decide) (by decide)).2 ⟨hp.versions header, hi⟩
        have hall := (free_append_cons hp (d := '"') (by decide) (by decide)).2 ⟨h.1, hnew⟩
        rw [replaceVersions_drop, hdrop]
        simpa using hall
      next =>
        have hi := ih s.length (by simp [← hn]) (before ++ [c]) (by simpa using h) rfl
        simpa using hi

lemma free_updateVersions {value : String} (h : p.Free value.toList) : p.Free (header.updateVersions value).toList := by
  rw [updateVersions]
  split
  · rw [String.toList_ofList]
    cases hc : header.updateClauses value.toList with
    | none => exact free_append_replaceVersions hp [] h
    | some clauses => exact free_updateClauses hp h hc
  · exact h

end Pieces

end PackageHeader

/-- A section with names as the format of manifests has them: letters, digits, hyphens and underscores, 70 at most, and
no name twice. -/
structure Section.WellFormed (s : Section) : Prop where
  length : ∀ a ∈ s.attributes, a.1.toList.length ≤ 70
  plain : ∀ a ∈ s.attributes, ∀ c ∈ a.1.toList, c.isAlphanum = true ∨ c = '-' ∨ c = '_'
  distinct : s.attributes.Pairwise fun a b => Text.sameLetters a.1 b.1 = false

instance (s : Section) : Decidable s.WellFormed :=
  decidable_of_iff
    ((∀ a ∈ s.attributes, a.1.toList.length ≤ 70) ∧
      (∀ a ∈ s.attributes, (a.1.toList.all fun c => c.isAlphanum || c == '-' || c == '_') = true) ∧
      s.attributes.Pairwise fun a b => Text.sameLetters a.1 b.1 = false) <| by
    simp only [List.all_eq_true, Bool.or_eq_true, beq_iff_eq, or_assoc]
    exact ⟨fun ⟨hl, hp, hd⟩ => ⟨hl, hp, hd⟩, fun h => ⟨h.length, h.plain, h.distinct⟩⟩

namespace Manifest

section Names

variable {s t : Section} {m : Manifest} {p q : Progress} {number : ℕ} {line : List Char}

lemma octets_eq_length {s : List Char} (h : ∀ c ∈ s, c.isAlphanum = true ∨ c = '-' ∨ c = '_') : octets s = s.length := by
  induction s with
  | nil => rfl
  | cons c s ih =>
    rw [List.forall_mem_cons] at h
    have hc : c.utf8Size = 1 := by
      rcases h.1 with hc | rfl | rfl
      · refine if_pos (UInt32.le_iff_toNat_le.2 ?_)
        exact Nat.le_of_lt_succ (Profile.toNat_lt_of_isAlphanum hc)
      · decide
      · decide
    rw [List.length_cons, ← ih h.2]
    simp [octets, hc, Nat.add_comm]

lemma octets_le_of_wellFormed (h : s.WellFormed) {a : String × String} (ha : a ∈ s.attributes) : octets a.1.toList ≤ 70 := by
  rw [octets_eq_length (h.plain a ha)]
  exact h.length a ha

lemma wellFormed_of_sublist (h : s.WellFormed) (hs : t.attributes.Sublist s.attributes) : t.WellFormed :=
  ⟨fun a ha => h.length a (hs.subset ha), fun a ha => h.plain a (hs.subset ha), h.distinct.sublist hs⟩

lemma wellFormed_of_map_fst_eq (h : s.WellFormed) (hn : t.attributes.map Prod.fst = s.attributes.map Prod.fst) : t.WellFormed := by
  have hmem : ∀ a ∈ t.attributes, ∃ b ∈ s.attributes, b.1 = a.1 := by
    intro a ha
    have hname := List.mem_map_of_mem (f := Prod.fst) ha
    rw [hn] at hname
    exact List.mem_map.1 hname
  refine ⟨fun a ha => ?_, fun a ha => ?_, ?_⟩
  · obtain ⟨b, hb, he⟩ := hmem a ha
    exact he ▸ h.length b hb
  · obtain ⟨b, hb, he⟩ := hmem a ha
    exact he ▸ h.plain b hb
  · have hdistinct : (s.attributes.map Prod.fst).Pairwise fun a b => Text.sameLetters a b = false :=
      List.pairwise_map.2 h.distinct
    rw [← hn] at hdistinct
    exact List.pairwise_map.1 hdistinct

lemma wellFormed_updateSection (p : Profile) (h : s.WellFormed) : (updateSection p s).WellFormed :=
  wellFormed_of_map_fst_eq h (map_fst_of_updates (forall₂_updates p s))

lemma startsWithName_updateSection (p : Profile) (h : StartsWithName s) : StartsWithName (updateSection p s) := by
  have hnames := congrArg List.head? (map_fst_of_updates (forall₂_updates p s))
  rw [List.head?_map, List.head?_map] at hnames
  intro b hb
  rw [Option.mem_def.1 hb, Option.map_some] at hnames
  obtain ⟨a, ha, he⟩ := Option.map_eq_some_iff.1 hnames.symm
  exact he ▸ h a ha

structure Progress.Named (p : Progress) : Prop where
  entries : ∀ s ∈ p.entries, StartsWithName s
  current : p.main.isSome = true → ∀ a ∈ p.current.getLast?, Text.sameLetters a.1 "Name" = true

lemma Progress.Named.endSection (h : p.Named) : p.endSection.Named := by
  rw [Progress.endSection]
  cases hm : p.main with
  | none => exact ⟨h.entries, by simp⟩
  | some main =>
    dsimp only
    split
    next => exact h
    next =>
      refine ⟨List.forall_mem_cons.2 ⟨?_, h.entries⟩, by simp⟩
      intro a ha
      rw [List.head?_reverse] at ha
      exact h.current (by simp [hm]) a ha

lemma Progress.Named.step (h : p.Named) (hs : p.step number line = .ok q) : q.Named := by
  cases line with
  | nil =>
    obtain rfl := Except.ok.inj hs
    exact h.endSection
  | cons c rest =>
    rw [Progress.step] at hs
    split at hs
    · cases hc : p.current with
      | nil => simp [hc, continueLast] at hs
      | cons a before =>
        rw [hc, continueLast] at hs
        obtain rfl := Except.ok.inj hs
        refine ⟨h.entries, fun hm b hb => ?_⟩
        have hcurrent := h.current hm
        rw [hc] at hcurrent
        cases before with
        | nil =>
          obtain rfl := Option.mem_some_iff.1 hb
          exact hcurrent a rfl
        | cons d before => exact hcurrent b hb
    · cases hh : header? (c :: rest) with
      | none => simp [hh] at hs
      | some a =>
        simp only [hh] at hs
        split at hs
        · cases hs
        next hname =>
          obtain rfl := Except.ok.inj hs
          refine ⟨h.entries, fun hm b hb => ?_⟩
          cases hc : p.current with
          | nil =>
            rw [hc] at hb
            obtain rfl := Option.mem_some_iff.1 hb
            have hm : p.main.isSome = true := hm
            simpa [hm, hc] using hname
          | cons d before =>
            rw [hc] at hb
            exact h.current hm b (hc ▸ hb)

lemma Progress.Named.stepAll {ls : List (List Char)} (h : p.Named) (hs : stepAll p number ls = .ok q) : q.Named := by
  induction ls generalizing p number with
  | nil =>
    obtain rfl := Except.ok.inj hs
    exact h
  | cons line ls ih =>
    obtain ⟨r, hr, hs⟩ := bind_eq_ok_iff.1 hs
    exact ih (h.step hr) hs

lemma startsWithName_of_parse {source : Bytes} (h : parse source = .ok m) : ∀ s ∈ m.entries, StartsWithName s := by
  rw [parse] at h
  split at h
  · cases h
  · obtain ⟨p, hp, h⟩ := bind_eq_ok_iff.1 h
    obtain rfl := Except.ok.inj h
    have hstart : Progress.start.Named := ⟨by simp [Progress.start], by simp [Progress.start]⟩
    intro s hs
    exact (hstart.stepAll hp).endSection.entries s (List.mem_reverse.1 hs)

end Names

section Unsigned

variable {p : Profile} {m : Manifest} {s : Section}

lemma not_sameLetters_of_mem_erase (h : s.WellFormed) (name : String) :
    ∀ a ∈ (s.erase name).attributes, Text.sameLetters a.1 name = false := by
  have hdistinct := h.distinct
  rw [Section.erase]
  dsimp only
  generalize s.attributes = l at hdistinct ⊢
  induction l with
  | nil => simp
  | cons b l ih =>
    obtain ⟨hb, hl⟩ := List.pairwise_cons.1 hdistinct
    rw [List.eraseP_cons]
    cases hname : Text.sameLetters b.1 name with
    | true =>
      intro a ha
      by_contra hsame
      have hsame : Text.sameLetters a.1 name = true := by simpa using hsame
      have hab : Text.sameLetters b.1 a.1 = true := by
        rw [Text.sameLetters, beq_iff_eq] at hname hsame ⊢
        exact hname.trans hsame.symm
      rw [hb a ha] at hab
      cases hab
    | false => exact List.forall_mem_cons.2 ⟨hname, ih hl⟩

lemma wellFormed_migrated (h : ∀ s ∈ m.sections, s.WellFormed) : ∀ s ∈ (migrated p m).sections, s.WellFormed := by
  obtain ⟨hmain, hentries⟩ := List.forall_mem_cons.1 h
  refine List.forall_mem_cons.2 ⟨wellFormed_of_sublist (wellFormed_updateSection p hmain) (unsignMain_sublist _), fun s hs => ?_⟩
  obtain ⟨t, ht, rfl⟩ := List.mem_map.1 (List.mem_filter.1 hs).1
  exact wellFormed_updateSection p (hentries t ht)

lemma readBackAll_eq (h : ∀ s ∈ m.sections, s.WellFormed) : readBackAll m = m.arranged := by
  refine readBackAll_eq_arranged_iff.2 fun s hs a ha => ?_
  have hle := octets_le_of_wellFormed (h s hs) ha
  omega

lemma isSigned_eq_false (h : ∀ s ∈ m.sections, s.WellFormed) :
    isSigned (migrated p m).arranged = false := by
  have hmem : ∀ a ∈ versionFirst (migrated p m).main.attributes,
      a ∈ ((updateSection p m.main).erase "Signature-Version").attributes ∧ isDigestName a.1 = false := by
    intro a ha
    have ha := List.mem_filter.1 ((versionFirst_perm _).mem_iff.1 ha)
    exact ⟨ha.1, by simpa using ha.2⟩
  have hversion := not_sameLetters_of_mem_erase (wellFormed_updateSection p (h m.main List.mem_cons_self)) "Signature-Version"
  have hfind : (versionFirst (migrated p m).main.attributes).find? (fun a => Text.sameLetters a.1 "Signature-Version") = none :=
    List.find?_eq_none.2 fun a ha => by simp [hversion a (hmem a ha).1]
  have hmain : hasDigest ⟨versionFirst (migrated p m).main.attributes⟩ = false :=
    List.any_eq_false.2 fun a ha => by simp [(hmem a ha).2]
  have hentries : ∀ s ∈ (migrated p m).entries, hasDigest s = false := fun s hs => by
    simpa using (List.mem_filter.1 hs).2
  rw [isSigned, arranged, Section.get?, hfind, Option.map_none, Option.isSome_none, Bool.false_or, sections, List.any_cons, hmain,
    Bool.false_or, List.any_eq_false]
  exact fun s hs => by simp [hentries s hs]

end Unsigned

section Free

variable {p : Profile} {m : Manifest} {s : Section} (hp : p.SparesVersions)
include hp

lemma free_updateValue (name value : String) : p.Free (updateValue p name value).toList := by
  have hd := hp.regular.chars
  rw [updateValue]
  split
  · cases PackageHeader.ofName? name with
    | none => exact hd.free_migrate value
    | some header => exact PackageHeader.free_updateVersions hp (hd.free_migrate value)
  next h => simpa [hd.changed_migrate_iff] using h

lemma free_of_mem_migrated : ∀ s ∈ (migrated p m).sections, ∀ a ∈ s.attributes, p.Free a.2.toList := by
  have hsection : ∀ s : Section, ∀ a ∈ (updateSection p s).attributes, p.Free a.2.toList := by
    intro s a ha
    obtain ⟨b, -, hb⟩ := exists_of_forall₂ (forall₂_updates p s).flip ha
    obtain ⟨-, value, -, hvalue⟩ := hb
    rw [hvalue]
    exact free_updateValue hp b.1 value
  refine List.forall_mem_cons.2 ⟨fun a ha => hsection m.main a ((unsignMain_sublist _).subset ha), fun s hs => ?_⟩
  obtain ⟨t, -, rfl⟩ := List.mem_map.1 (List.mem_filter.1 hs).1
  exact hsection t

lemma migratesAny_eq_false (h : ∀ a ∈ s.attributes, p.Free a.2.toList) : migratesAny p s = false := by
  have hmark : ∀ value : String, p.Free value.toList → p.Free (value ++ "-" ++ toolVersion).toList := by
    intro value hv
    have hcut := (PackageHeader.free_append_cons hp (d := '-') (by decide) (by decide)).2 ⟨hv, hp.tool⟩
    simpa using hcut
  have hfree : ∀ a ∈ (markVersion s).attributes, p.Free a.2.toList := by
    rw [markVersion, Section.update]
    dsimp only
    generalize s.attributes = l at h ⊢
    induction l with
    | nil => simp [Section.updateFirst]
    | cons b l ih =>
      rw [List.forall_mem_cons] at h
      rw [Section.updateFirst]
      split
      · exact List.forall_mem_cons.2 ⟨hmark b.2 h.1, h.2⟩
      · exact List.forall_mem_cons.2 ⟨h.1, ih h.2⟩
  rw [migratesAny, List.any_eq_false]
  intro a ha
  rw [hp.regular.chars.changed_migrate_iff, not_not]
  exact hfree a ha

end Free

section Repetition

variable {p : Profile} {m : Manifest} {source : Bytes} {c : Conversion}

lemma head?_writeChars_ne_mark (hw : m.Writable) (h : ∀ s ∈ m.sections, s.WellFormed) : m.writeChars.head? ≠ some mark := by
  rw [ne_eq, head?_writeChars_eq_mark_iff hw]
  rintro ⟨a, ha, hmark⟩
  have hmem := (versionFirst_perm _).mem_iff.1 (List.mem_of_mem_head? ha)
  have hplain := (h m.main List.mem_cons_self).plain a hmem mark (List.mem_of_mem_head? hmark)
  exact absurd hplain (by decide)

theorem convertBytes_convertBytes (hp : p.SparesVersions) (hm : ∀ m, parse source = .ok m → ∀ s ∈ m.sections, s.WellFormed)
    (h : convertBytes p source = .ok c) : ∃ again, convertBytes p (c.bytes source) = .ok again ∧ again.changed = false := by
  have htrivial := hp.regular.chars.isTrivial_eq_false
  have hagain := h
  rw [convertBytes, if_neg (by simp [htrivial])] at h
  obtain ⟨m, hparse, h⟩ := bind_eq_ok_iff.1 h
  split at h
  · obtain rfl := Except.ok.inj h
    exact ⟨_, hagain, rfl⟩
  · obtain rfl := Except.ok.inj h
    have hwell := wellFormed_migrated (p := p) (hm m hparse)
    have htarget : Unbroken p.target.toList :=
      ⟨(hp.regular.alphanumeric.avoids (c := '\r') (by decide) (by decide)).target,
        (hp.regular.alphanumeric.avoids (c := '\n') (by decide) (by decide)).target⟩
    have hwritable := writable_migrated htarget (writable_of_parse hparse)
    have hshort : ∀ s ∈ (migrated p m).sections, Short s := fun s hs a ha =>
      Nat.le_succ_of_le (octets_le_of_wellFormed (hwell s hs) ha)
    have hstarts : ∀ s ∈ (migrated p m).entries, Short s ∧ StartsWithName s := by
      intro s hs
      refine ⟨hshort s (List.mem_cons_of_mem _ hs), ?_⟩
      obtain ⟨t, ht, rfl⟩ := List.mem_map.1 (List.mem_filter.1 hs).1
      exact startsWithName_updateSection p (startsWithName_of_parse hparse t ht)
    have hread : parse (migrated p m).toBytes = .ok (migrated p m).arranged := by
      refine (parse_toBytes_eq_ok_iff hwritable (head?_writeChars_ne_mark hwritable hwell)).2
        ⟨hshort _ List.mem_cons_self, hstarts, (readBackAll_eq hwell).symm⟩
    have hfree := List.forall_mem_cons.1 (free_of_mem_migrated (m := m) hp)
    have hmain : migratesAny p ⟨versionFirst (migrated p m).main.attributes⟩ = false :=
      migratesAny_eq_false hp fun a ha => hfree.1 a ((versionFirst_perm _).mem_iff.1 ha)
    have hchanged : (migrated p m).arranged.sections.any (migratesAny p) = false := by
      rw [arranged, sections, List.any_cons, hmain, Bool.false_or, List.any_eq_false]
      exact fun s hs => by simp [migratesAny_eq_false hp (hfree.2 s hs)]
    have hbytes : (Conversion.replaced (migrated p m).toBytes
        (m.sections.any (migratesAny p) || isSigned m)).bytes source = (migrated p m).toBytes := rfl
    rw [hbytes, convertBytes, if_neg (by simp [htrivial]), hread]
    simp only [bind, Except.bind]
    split
    · exact ⟨_, rfl, rfl⟩
    · exact ⟨_, rfl, by rw [Conversion.replaced, hchanged, isSigned_eq_false (hm m hparse)]; rfl⟩

end Repetition

end Manifest

end NamespaceMigration
