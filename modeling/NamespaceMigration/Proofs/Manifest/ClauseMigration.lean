import NamespaceMigration.Proofs.Manifest.Layout
import NamespaceMigration.Proofs.Manifest.Repetition
import NamespaceMigration.Proofs.Manifest.RoundTrip

namespace NamespaceMigration

open Profile (Moved)

namespace Profile

variable {p : Profile} {ok : List Char → Prop} {c : Char} {s t : List Char}

lemma Moved.eq_or_mem (hc : c ∈ (Alphabet.spell p.target : List Char)) (h : Moved p ok s t) : s = t ∨ c ∈ t := by
  induction h with
  | nil => exact .inl rfl
  | keep d _ ih => exact ih.imp (congrArg (d :: ·)) (List.mem_cons_of_mem d)
  | move => exact .inr (List.mem_append_left _ hc)

lemma Moved.isPiece_iff {sep : Char} (hquote : p.Avoids '"') (hsep : p.Avoids sep) (h : Moved p ok s t) (quoted : Bool) :
    PackageHeader.IsPiece sep quoted s ↔ PackageHeader.IsPiece sep quoted t := by
  have hplain : ∀ w : List Char, '"' ∉ w → sep ∉ w → ∀ c ∈ w, c ≠ '"' ∧ c ≠ sep := fun w hq hs c hc =>
    ⟨fun he => hq (he ▸ hc), fun he => hs (he ▸ hc)⟩
  induction h generalizing quoted with
  | nil => rfl
  | keep c _ ih =>
    rw [PackageHeader.IsPiece, PackageHeader.IsPiece]
    split
    · exact ih !quoted
    · exact and_congr_right fun _ => ih quoted
  | move _ _ ih =>
    rw [PackageHeader.isPiece_append_of_plain (hplain _ hquote.source hsep.source),
      PackageHeader.isPiece_append_of_plain (hplain _ hquote.target hsep.target)]
    exact ih quoted

end Profile

namespace PackageHeader

section Migration

variable {p : Profile} {header : PackageHeader} {raw s key value name : List Char} {parts : List (List Char)}
  {clauses : List (List (List Char))} {sep c : Char}

def moveParts (p : Profile) (clauses : List (List (List Char))) : List (List (List Char)) := clauses.map (List.map (p.pass 0 0))

variable (hp : p.Regular)
include hp

lemma pass_nil : p.pass 0 0 ([] : List Char) = [] := (hp.chars.moved_pass []).eq_nil hp.chars

lemma pass_append_cons {d : Char} (hc : d.isAlphanum = false) (hs : Alphabet.isSeparator d = false) (a b : List Char) :
    p.pass 0 0 (a ++ d :: b) = p.pass 0 0 a ++ d :: p.pass 0 0 b :=
  (hp.alphanumeric.avoids hc hs).pass_append_cons hp.chars.source_ne_nil a

lemma pass_intercalate {d : Char} (hc : d.isAlphanum = false) (hs : Alphabet.isSeparator d = false) (pieces : List (List Char)) :
    p.pass 0 0 ([d].intercalate pieces) = [d].intercalate (pieces.map (p.pass 0 0)) := by
  induction pieces with
  | nil => exact pass_nil hp
  | cons piece pieces ih =>
    cases pieces with
    | nil => simp
    | cons next pieces =>
      rw [List.intercalate_cons_cons, List.append_assoc, List.singleton_append, pass_append_cons hp hc hs, ih]
      simp [List.intercalate_cons_cons]

lemma pass_join (clauses : List (List (List Char))) : p.pass 0 0 (join clauses) = join (moveParts p clauses) := by
  rw [join, pass_intercalate hp (by decide) (by decide), join, moveParts, List.map_map, List.map_map]
  exact congrArg _ (List.map_congr_left fun parts _ => pass_intercalate hp (by decide) (by decide) parts)

lemma parts?_pass (h : parts? s = some clauses) : parts? (p.pass 0 0 s) = some (moveParts p clauses) := by
  obtain ⟨hne, rfl, hall⟩ := parts?_eq_some_iff.1 h
  have hpiece : ∀ {sep : Char} {part : List Char}, sep.isAlphanum = false → Alphabet.isSeparator sep = false →
      IsPiece sep false part → IsPiece sep false (p.pass 0 0 part) := fun hc hs h =>
    ((hp.chars.moved_pass _).isPiece_iff (hp.alphanumeric.avoids (by decide) (by decide)) (hp.alphanumeric.avoids hc hs) false).1 h
  refine parts?_eq_some_iff.2 ⟨by simpa [moveParts] using hne, (pass_join hp clauses).symm, ?_⟩
  rw [moveParts, List.forall_mem_map]
  intro parts hm
  obtain ⟨hparts, hpieces⟩ := hall parts hm
  refine ⟨by simpa using hparts, ?_⟩
  rw [List.forall_mem_map]
  exact fun part hpart => ⟨hpiece (by decide) (by decide) (hpieces part hpart).1, hpiece (by decide) (by decide) (hpieces part hpart).2⟩

lemma pass_eq_or_exists (s : List Char) : p.pass 0 0 s = s ∨ ∃ c ∈ p.pass 0 0 s, c.isAlphanum = true := by
  obtain ⟨c, token, htoken⟩ := List.exists_cons_of_ne_nil (hp.chars.ne_nil p.target_mem_tokens)
  have hc : c ∈ (Alphabet.spell p.target : List Char) := htoken ▸ List.mem_cons_self
  refine ((hp.chars.moved_pass s).eq_or_mem hc).imp Eq.symm fun hm => ⟨c, hm, ?_⟩
  exact hp.alphanumeric p.target (by simp) c hc

lemma ofText_pass (raw : List Char) : (∃ key value, Part.ofText raw = .setting key value ∧
      Part.ofText (p.pass 0 0 raw) = .setting (p.pass 0 0 key) (p.pass 0 0 value)) ∨
    Part.ofText raw = .package raw ∧ Part.ofText (p.pass 0 0 raw) = .package (p.pass 0 0 raw) := by
  have havoids := @Profile.Alphanumeric.avoids p hp.alphanumeric '=' (by decide) (by decide)
  have hmem : ∀ s : List Char, '=' ∈ s ↔ '=' ∈ p.pass 0 0 s := fun s =>
    (hp.chars.moved_pass s).mem_iff havoids.source havoids.target
  by_cases hraw : '=' ∈ raw
  · obtain ⟨key, value, rfl, hkey⟩ := List.eq_append_cons_of_mem hraw
    refine .inl ⟨key, value, ofText_eq_setting_iff.2 ⟨hkey, rfl⟩, ofText_eq_setting_iff.2 ⟨fun hm => hkey ((hmem key).2 hm), ?_⟩⟩
    exact pass_append_cons hp (by decide) (by decide) key value
  · exact .inr ⟨ofText_eq_package_iff.2 ⟨hraw, rfl⟩, ofText_eq_package_iff.2 ⟨fun hm => hraw ((hmem raw).2 hm), rfl⟩⟩

lemma isSetting_ofText_pass (raw : List Char) : (Part.ofText (p.pass 0 0 raw)).isSetting = (Part.ofText raw).isSetting := by
  obtain ⟨key, value, h, h'⟩ | ⟨h, h'⟩ := ofText_pass hp raw <;> rw [h, h'] <;> rfl

omit hp in
lemma isBlank_eq_false_of_isAlphanum {c : Char} (h : c.isAlphanum = true) : Text.isBlank c = false := by
  have hlow : ∀ n < 0x80, (Char.ofNat n).isAlphanum = true → Text.isBlank (Char.ofNat n) = false := by decide
  rw [← Char.ofNat_toNat c] at h ⊢
  exact hlow c.toNat (Profile.toNat_lt_of_isAlphanum (Char.ofNat_toNat c ▸ h)) h

lemma isValid_ofText_pass (h : (Part.ofText raw).isValid = true) : (Part.ofText (p.pass 0 0 raw)).isValid = true := by
  obtain ⟨key, value, ho, ho'⟩ | ⟨ho, ho'⟩ := ofText_pass hp raw
  · rw [ho, Part.isValid] at h
    rw [ho', Part.isValid]
    rcases pass_eq_or_exists hp key with he | ⟨c, hc, hletter⟩
    · rwa [he]
    · have hcolon : c ≠ ':' := by
        rintro rfl
        cases hletter
      have hname : c ∈ Part.keyName (p.pass 0 0 key) := by
        simpa [isBlank_eq_false_of_isAlphanum hletter, hcolon] using of_mem_key hc
      simpa using List.ne_nil_of_mem hname
  · rw [ho, Part.isValid] at h
    rw [ho', Part.isValid]
    rcases pass_eq_or_exists hp raw with he | ⟨c, hc, hletter⟩
    · rwa [he]
    · have htrim : c ∈ Text.trimChars (p.pass 0 0 raw) := by
        simpa [isBlank_eq_false_of_isAlphanum hletter] using Text.of_mem_trimChars hc
      simpa using List.ne_nil_of_mem htrim

lemma isClause_moved (h : isClause (parts.map Part.ofText) = true) : isClause ((parts.map (p.pass 0 0)).map Part.ofText) = true := by
  simp only [isClause, List.all_map, List.takeWhile_map, List.dropWhile_map, Function.comp_def, List.isEmpty_map,
    Bool.and_eq_true, List.all_eq_true, isSetting_ofText_pass hp] at h ⊢
  exact ⟨⟨fun raw hraw => isValid_ofText_pass hp (h.1.1 raw hraw), h.1.2⟩, h.2⟩

lemma map_pass_eq_self (h : (p.migrateSymbols ([';'].intercalate parts)).changed = false) : parts.map (p.pass 0 0) = parts := by
  have hfree : p.Free ([';'].intercalate parts) := by
    rw [← Bool.not_eq_true, Profile.changed_migrateSymbols_iff hp.chars, not_not] at h
    exact h
  rw [intercalate_iff (Profile.free_nil hp.chars) fun a b =>
    (hp.alphanumeric.avoids (by decide) (by decide)).free_append_cons hp.chars] at hfree
  exact (List.map_congr_left fun part hm => Profile.pass_eq_self_of_free (hfree part hm)).trans (List.map_id' parts)

lemma parts?_updateVersions_migrate {value : String} (h : parts? value.toList = some clauses)
    (hc : ∀ parts ∈ clauses, isClause (parts.map Part.ofText) = true) :
    parts? (header.updateVersions (p.migrate value).value).toList = some ((moveParts p clauses).map header.revise) := by
  have hmoved : parts? (p.migrate value).value.toList = some (moveParts p clauses) := by
    rw [hp.chars.toList_migrate]
    exact parts?_pass hp h
  have hclauses : ∀ parts ∈ moveParts p clauses, isClause (parts.map Part.ofText) = true := by
    rw [moveParts, List.forall_mem_map]
    exact fun parts hm => isClause_moved hp (hc parts hm)
  rw [toList_updateVersions hmoved hclauses]
  exact parts?_join_revise hmoved

end Migration

/-- What becomes of a clause in which the profile does not match, in a list with this value: if it names a servlet package
and something else in the list is migrated, its version attributes follow; otherwise it stays. -/
def KeepsClause (p : Profile) (header : PackageHeader) (value : String) (clause new : List Char) : Prop :=
  ∃ parts news, splitOutsideQuotes? ';' clause = some parts ∧ splitOutsideQuotes? ';' new = some news ∧
    ((p.migrate value).changed = true → NamesServlet parts → List.Forall₂ (header.Revised parts) parts news) ∧
    (((p.migrate value).changed = true → ¬ NamesServlet parts) → new = clause)

def KeepsClauses (p : Profile) (header : PackageHeader) (value new : String) : Prop :=
  ∃ clauses news, splitOutsideQuotes? ',' value.toList = some clauses ∧ splitOutsideQuotes? ',' new.toList = some news ∧
    List.Forall₂ (fun clause new => (p.migrateSymbols clause).changed = false → KeepsClause p header value clause new)
      clauses news

lemma keepsClauses_updateValue {p : Profile} {header : PackageHeader} {name value : String} (hp : p.Regular)
    (hn : ofName? name = some header) (hw : (header.updateClauses value.toList).isSome) :
    KeepsClauses p header value (Manifest.updateValue p name value) := by
  obtain ⟨t, ht⟩ := Option.isSome_iff_exists.1 hw
  obtain ⟨clauses, hparts, hc, -⟩ := updateClauses_eq_some_iff.1 ht
  obtain ⟨hsplit, hclauses⟩ := split_of_parts? hparts
  rw [Manifest.updateValue]
  cases hchanged : (p.migrate value).changed with
  | false =>
    rw [if_neg (by simp)]
    refine ⟨_, _, hsplit, hsplit, List.forall₂_same.2 fun clause hm _ => ?_⟩
    obtain ⟨parts, hparts, rfl⟩ := List.mem_map.1 hm
    exact ⟨parts, parts, hclauses parts hparts, hclauses parts hparts, by simp [hchanged], fun _ => rfl⟩
  | true =>
    rw [if_pos rfl, hn]
    have hupdated : parts? (header.updateVersions (p.migrate value).value).toList = some ((moveParts p clauses).map header.revise) :=
      parts?_updateVersions_migrate hp hparts hc
    obtain ⟨hsplit', hclauses'⟩ := split_of_parts? hupdated
    refine ⟨_, _, hsplit, hsplit', ?_⟩
    rw [moveParts, List.map_map, List.map_map, List.forall₂_map_left_iff, List.forall₂_map_right_iff, List.forall₂_same]
    intro parts hm hfree
    -- without a match in it the clause is the same when the versions are updated
    have hm' : header.revise (parts.map (p.pass 0 0)) ∈ (moveParts p clauses).map header.revise :=
      List.mem_map_of_mem (List.mem_map_of_mem hm)
    have hstay := map_pass_eq_self hp hfree
    rw [hstay] at hm'
    simp only [Function.comp_apply, hstay]
    refine ⟨parts, header.revise parts, hclauses parts hm, hclauses' _ hm', fun _ _ => forall₂_revise header parts,
      fun hno => ?_⟩
    rw [revise, if_neg (any_isServlet_iff.not.2 (hno hchanged))]

end PackageHeader

namespace Manifest

section Sections

variable {p : Profile} {s t : Section} {l l' : List (String × String)}

lemma forall₂_eraseP {R : String × String → String × String → Prop} {drop : String → Bool} (hname : ∀ a b, R a b → b.1 = a.1)
    (h : List.Forall₂ R l l') : List.Forall₂ R (l.eraseP fun a => drop a.1) (l'.eraseP fun a => drop a.1) := by
  induction h with
  | nil => exact .nil
  | @cons a b l l' hab hl ih =>
    rw [List.eraseP_cons, List.eraseP_cons, hname a b hab]
    cases drop a.1 with
    | true => exact hl
    | false => exact .cons hab ih

lemma forall₂_unsignMain (h : List.Forall₂ (Updates p) s.attributes t.attributes) :
    List.Forall₂ (Updates p) (unsignMain s).attributes (unsignMain t).attributes := by
  refine List.rel_filter (fun a b hab => ?_)
    (@forall₂_eraseP _ _ _ (fun name => Text.sameLetters name "Signature-Version") (fun a b hab => hab.1) h)
  dsimp only
  rw [hab.1]

lemma hasDigest_eq_of_updates (h : List.Forall₂ (Updates p) s.attributes t.attributes) : hasDigest t = hasDigest s := by
  have hany : ∀ u : Section, hasDigest u = (u.attributes.map Prod.fst).any isDigestName := fun u => by
    simp only [hasDigest, List.any_map, Function.comp_def]
  rw [hany, hany, map_fst_of_updates h]

lemma forall₂_sections (p : Profile) (m : Manifest) :
    List.Forall₂ (fun s t : Section => List.Forall₂ (Updates p) s.attributes t.attributes)
      (unsign m).sections (migrated p m).sections := by
  have hentries : List.Forall₂ (fun s t : Section => List.Forall₂ (Updates p) s.attributes t.attributes)
      m.entries (m.entries.map (updateSection p)) := by
    rw [List.forall₂_map_right_iff, List.forall₂_same]
    exact fun s _ => forall₂_updates p s
  refine .cons (forall₂_unsignMain (forall₂_updates p m.main)) (List.rel_filter (fun s t hst => ?_) hentries)
  dsimp only
  rw [hasDigest_eq_of_updates hst]

lemma replacement_of_convert {path : String} {source : Bytes} {c : Conversion} (hp : p.isTrivial = false)
    (h : convert p path source = .ok c) : ∃ m, parse source = .ok m ∧
      (c.replacement = none ∧ migrated p m = m ∨ c.replacement = some (migrated p m).toBytes) := by
  rw [convert, mapError_eq_ok_iff, convertBytes, if_neg (by simp [hp])] at h
  obtain ⟨m, hm, h⟩ := bind_eq_ok_iff.1 h
  refine ⟨m, hm, ?_⟩
  split at h
  next hkept =>
    obtain rfl := Except.ok.inj h
    exact .inl ⟨rfl, hkept⟩
  next =>
    obtain rfl := Except.ok.inj h
    exact .inr rfl

end Sections

section Conversions

variable {b : BuiltIn} {path : String} {source : Bytes} {c : Conversion}

lemma Updates.keepsClauses {p : Profile} {a a' : String × String} {header : PackageHeader} (hp : p.Regular) (h : Updates p a a')
    (hn : PackageHeader.ofName? a.1 = some header) (hw : (header.updateClauses a.2.toList).isSome) :
    PackageHeader.KeepsClauses p header a.2 a'.2 := by
  obtain ⟨-, value, hvalue, ha⟩ := h
  have hversion : ¬ Text.sameLetters a.1 "Implementation-Version" = true := by
    intro hsame
    have hother : ∀ other, Text.lower "Implementation-Version" ≠ Text.lower other → Text.sameLetters a.1 other = false :=
      fun other hne => beq_eq_false_iff_ne.2 fun he => hne ((beq_iff_eq.1 hsame).symm.trans he)
    rw [PackageHeader.ofName?, hother _ (by decide), hother _ (by decide)] at hn
    cases hn
  obtain rfl : value = a.2 := hvalue.resolve_right fun hv => hversion hv.1
  rw [ha]
  exact PackageHeader.keepsClauses_updateValue hp hn hw

/-- In what a converted manifest is written as, a package list that is well formed keeps each clause in which nothing
matches, but for the versions of servlet packages if something else in the list was migrated. -/
theorem keepsClauses_of_convert (h : convert b.profile path source = .ok c) : ∃ m, parse source = .ok m ∧
    (c.replacement = none ∧ migrated b.profile m = m ∨ c.replacement = some (migrated b.profile m).toBytes) ∧
    List.Forall₂ (fun s t : Section => List.Forall₂ (fun a a' : String × String => a'.1 = a.1 ∧
        ∀ header, PackageHeader.ofName? a.1 = some header → (header.updateClauses a.2.toList).isSome →
          PackageHeader.KeepsClauses b.profile header a.2 a'.2) s.attributes t.attributes)
      (unsign m).sections (migrated b.profile m).sections := by
  have hp := Profile.regular_builtIn b
  obtain ⟨m, hm, hc⟩ := replacement_of_convert hp.chars.isTrivial_eq_false h
  refine ⟨m, hm, hc, (forall₂_sections b.profile m).imp fun s t hst => hst.imp fun a a' haa => ?_⟩
  exact ⟨haa.1, fun header hn hw => haa.keepsClauses hp hn hw⟩

def importing (value : String) : Manifest := ⟨⟨[("Import-Package", value)]⟩, []⟩

lemma parse_importing {value : String} (h : Unbroken value.toList) :
    parse (Bytes.utf8 ("Import-Package: " ++ value ++ "\n")) = .ok (importing value) := by
  have hreadable : Readable ("Import-Package", value) := by
    refine ⟨?_, ?_, ?_, ?_, h⟩ <;> (dsimp only; decide)
  have hheader : HeaderLayout ("Import-Package", value) [("Import-Package: " ++ value).toList] :=
    ⟨value.toList, [], by simp, by simp⟩
  have hlines : lines ("Import-Package: " ++ value ++ "\n").toList = [("Import-Package: " ++ value).toList] := by
    simpa [LineEnd.chars, lines, linesFrom] using
      lines_flatMap_append (e := .lf) (hheader.unbroken hreadable) unbroken_nil
  have hunmarked : ("Import-Package: " ++ value ++ "\n").toList.head? ≠ some mark := by
    simpa using show 'I' ≠ mark by decide
  rw [parse_utf8, parseText, ← mark, strip?_mark_eq_none hunmarked, Option.getD_none, hlines,
    hheader.stepAll_eq hreadable (by simp [Progress.Takes, Progress.start])]
  rfl

lemma unsign_importing (value : String) : unsign (importing value) = importing value := by
  have hversion : Text.sameLetters "Import-Package" "Signature-Version" = false := by decide
  have hdigest : isDigestName "Import-Package" = false := by decide
  simp [unsign, importing, unsignMain, Section.erase, Section.keep, hversion, hdigest]

lemma updated_importing (p : Profile) (value : String) :
    updated p (importing value) = importing (updateValue p "Import-Package" value) := by
  have hname : Text.sameLetters "Import-Package" "Implementation-Version" = false := by decide
  simp [updated, importing, updateSection, markVersion, Section.update, Section.updateFirst, Section.mapValues, hname]

lemma convert_importing {value new : String} (hm : parse source = .ok (importing value))
    (hv : updateValue b.profile "Import-Package" value = new) (hne : new ≠ value) (path : String) :
    convert b.profile path source = .ok (.replaced (importing new).toBytes true) := by
  have hchanged : (b.profile.migrate value).changed = true := by
    by_contra hc
    rw [updateValue, if_neg hc] at hv
    exact hne hv.symm
  have hany : (importing value).sections.any (migratesAny b.profile) = true := by
    have hname : Text.sameLetters "Import-Package" "Implementation-Version" = false := by decide
    simp [importing, sections, migratesAny, markVersion, Section.update, Section.updateFirst, hname, hchanged]
  have hmigrated : migrated b.profile (importing value) = importing new := by
    rw [migrated, updated_importing, hv, unsign_importing]
  have hc := convert_eq_replaced (Profile.regular_builtIn b).chars.isTrivial_eq_false hm
    (by rw [hmigrated]; simpa [importing] using hne) path
  rwa [hmigrated, hany, Bool.true_or] at hc

set_option maxRecDepth 10000 in
theorem keepsClauses_mixed :
    let value := "javax.servlet,a;version=3"
    let new := "jakarta.servlet,a;version=3"
    let source := Bytes.utf8 ("Import-Package: " ++ value ++ "\n")
    convert BuiltIn.tomcat.profile fileName source = .ok (.replaced (importing new).toBytes true) ∧
      PackageHeader.KeepsClauses BuiltIn.tomcat.profile .importPackage value new := by
  intro value new source
  have hm : parse source = .ok (importing value) := parse_importing (by decide)
  have hv : updateValue BuiltIn.tomcat.profile "Import-Package" value = new := by decide
  have hc := convert_importing hm hv (by decide) fileName
  obtain ⟨n, hn, -, hkeeps⟩ := keepsClauses_of_convert hc
  obtain rfl : importing value = n := Except.ok.inj (hm.symm.trans hn)
  rw [migrated, updated_importing, hv, unsign_importing, unsign_importing] at hkeeps
  obtain ⟨hmain, -⟩ := List.forall₂_cons.1 hkeeps
  obtain ⟨⟨-, hheader⟩, -⟩ := List.forall₂_cons.1 hmain
  exact ⟨hc, hheader .importPackage (by decide) (by decide)⟩

set_option maxRecDepth 10000 in
/-- A servlet package under its new name gets the version of the header when a package before it is migrated. -/
theorem exists_clause_not_kept :
    let value := "javax.el,jakarta.servlet;version=4"
    let new := "jakarta.el,jakarta.servlet;version=\"[5.0.0,7.0.0)\""
    let source := Bytes.utf8 ("Import-Package: " ++ value ++ "\n")
    parse source = .ok (importing value) ∧
      convert BuiltIn.tomcat.profile fileName source = .ok (.replaced (importing new).toBytes true) ∧
      (PackageHeader.importPackage.updateClauses value.toList).isSome ∧
      ∃ first clause first' clause', PackageHeader.splitOutsideQuotes? ',' value.toList = some [first, clause] ∧
        (BuiltIn.tomcat.profile.migrateSymbols clause).changed = false ∧
        PackageHeader.splitOutsideQuotes? ',' new.toList = some [first', clause'] ∧ clause' ≠ clause := by
  intro value new source
  have hm : parse source = .ok (importing value) := parse_importing (by decide)
  refine ⟨hm, convert_importing hm (by decide) (by decide) fileName, by decide, "javax.el".toList,
    "jakarta.servlet;version=4".toList, "jakarta.el".toList, "jakarta.servlet;version=\"[5.0.0,7.0.0)\"".toList, ?_⟩
  decide

end Conversions

end Manifest

end NamespaceMigration
