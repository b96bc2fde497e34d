import NamespaceMigration.Proofs.Manifest.Splitting
import NamespaceMigration.Proofs.Text.Trimming

/-! Package lists as clauses and their parts. -/

namespace NamespaceMigration.PackageHeader

section Lists

variable {s t : List Char} {clauses : List (List (List Char))} {P : List Char → Prop}

def parts? (s : List Char) : Option (List (List (List Char))) := do
  (← splitOutsideQuotes? ',' s).mapM (splitOutsideQuotes? ';')

def join (clauses : List (List (List Char))) : List Char := [','].intercalate (clauses.map [';'].intercalate)

lemma mapM_split_eq_some_iff {texts : List (List Char)} : texts.mapM (splitOutsideQuotes? ';') = some clauses ↔
    (∀ parts ∈ clauses, parts ≠ [] ∧ ∀ part ∈ parts, IsPiece ';' false part) ∧ clauses.map [';'].intercalate = texts := by
  rw [mapM_eq_some_iff, ← List.forall₂_eq_eq_eq, List.forall₂_map_left_iff, ← List.forall₂_and_left]
  have hsplit : ∀ text parts, splitOutsideQuotes? ';' text = some parts ↔
      (parts ≠ [] ∧ ∀ part ∈ parts, IsPiece ';' false part) ∧ [';'].intercalate parts = text := fun text parts => by
    rw [splitOutsideQuotes?_eq_some_iff (by decide), and_assoc, and_comm (a := _ = text)]
  simp only [hsplit]
  exact ⟨fun h => h.flip, fun h => h.flip⟩

lemma parts?_eq_some_iff : parts? s = some clauses ↔ clauses ≠ [] ∧ join clauses = s ∧
    ∀ parts ∈ clauses, parts ≠ [] ∧ ∀ part ∈ parts, IsPiece ',' false part ∧ IsPiece ';' false part := by
  have hcommas := fun pieces => @splitOutsideQuotes?_eq_some_iff ',' s pieces (by decide)
  simp only [parts?, Option.bind_eq_bind, Option.bind_eq_some_iff, mapM_split_eq_some_iff, hcommas]
  have hcut : ∀ parts ∈ clauses, (∀ part ∈ parts, IsPiece ';' false part) →
      (IsPiece ',' false ([';'].intercalate parts) ↔ ∀ part ∈ parts, IsPiece ',' false part) := fun parts _ h =>
    isPiece_intercalate (by decide) (by decide) h
  constructor
  · rintro ⟨_, ⟨hne, rfl, htexts⟩, hparts, rfl⟩
    refine ⟨by simpa using hne, rfl, fun parts hmem => ⟨(hparts parts hmem).1, fun part hpart => ?_⟩⟩
    have hcomma := (hcut parts hmem (hparts parts hmem).2).1 (htexts _ (List.mem_map_of_mem hmem))
    exact ⟨hcomma part hpart, (hparts parts hmem).2 part hpart⟩
  · rintro ⟨hne, rfl, hparts⟩
    refine ⟨_, ⟨by simpa using hne, rfl, ?_⟩, fun parts hmem => ⟨(hparts parts hmem).1, fun part hpart => ?_⟩, rfl⟩
    · -- put together, the parts of a clause are cut by no comma
      intro text htext
      obtain ⟨parts, hmem, rfl⟩ := List.mem_map.1 htext
      exact (hcut parts hmem fun part hpart => ((hparts parts hmem).2 part hpart).2).2 fun part hpart =>
        ((hparts parts hmem).2 part hpart).1
    · exact ((hparts parts hmem).2 part hpart).2

lemma split_of_parts? (h : parts? s = some clauses) : splitOutsideQuotes? ',' s = some (clauses.map [';'].intercalate) ∧
    ∀ parts ∈ clauses, splitOutsideQuotes? ';' ([';'].intercalate parts) = some parts := by
  obtain ⟨texts, htexts, hclauses⟩ := Option.bind_eq_some_iff.1 h
  obtain ⟨hparts, rfl⟩ := mapM_split_eq_some_iff.1 hclauses
  refine ⟨htexts, fun parts hm => (splitOutsideQuotes?_eq_some_iff (by decide)).2 ?_⟩
  exact ⟨(hparts parts hm).1, rfl, (hparts parts hm).2⟩

lemma join_iff (nil : P []) (cut : ∀ d ∈ [',', ';'], ∀ a b, P (a ++ d :: b) ↔ P a ∧ P b) :
    P (join clauses) ↔ ∀ parts ∈ clauses, ∀ part ∈ parts, P part := by
  rw [join, intercalate_iff nil (cut ',' (by simp)), List.forall_mem_map]
  exact forall₂_congr fun parts _ => intercalate_iff nil (cut ';' (by simp))

lemma infix_join {parts : List (List Char)} {part : List Char} (hparts : parts ∈ clauses) (hpart : part ∈ parts) :
    part <:+: join clauses :=
  (infix_intercalate hpart).trans (infix_intercalate (List.mem_map_of_mem hparts))

end Lists

section Parts

variable {header : PackageHeader} {raw key value name part : List Char} {parts : List (List Char)} {c sep : Char}

lemma ofText_eq_setting_iff : Part.ofText raw = .setting key value ↔ '=' ∉ key ∧ raw = key ++ '=' :: value := by
  have hfirst : Text.splitFirst? (· == '=') raw = some (key, value) ↔ '=' ∉ key ∧ raw = key ++ '=' :: value := by
    rw [Text.splitFirst?_eq_some_iff]
    simp only [beq_iff_eq, exists_eq_left, beq_eq_false_iff_ne, ne_eq]
    exact and_congr_left fun _ => ⟨fun h hm => h _ hm rfl, fun h c hc he => h (he ▸ hc)⟩
  rw [← hfirst, Part.ofText]
  cases Text.splitFirst? (· == '=') raw with
  | none => simp
  | some found => simp [Prod.ext_iff]

lemma write_ofText (raw : List Char) : (Part.ofText raw).write = raw := by
  cases h : Part.ofText raw with
  | setting key value => exact (ofText_eq_setting_iff.1 h).2.symm
  | package name =>
    rw [Part.ofText] at h
    split at h
    · cases h
    · exact (Part.package.inj h).symm

lemma ofText_eq_package_iff : Part.ofText raw = .package name ↔ '=' ∉ raw ∧ name = raw := by
  constructor
  · intro h
    refine ⟨fun hm => ?_, ?_⟩
    · obtain ⟨key, value, hraw, hkey⟩ := List.eq_append_cons_of_mem hm
      rw [ofText_eq_setting_iff.2 ⟨hkey, hraw⟩] at h
      cases h
    · have hwrite := write_ofText raw
      rwa [h] at hwrite
  · rintro ⟨hno, rfl⟩
    cases h : Part.ofText name with
    | setting key value =>
      rw [(ofText_eq_setting_iff.1 h).2] at hno
      simp at hno
    | package raw =>
      have hwrite := write_ofText name
      rw [h] at hwrite
      exact congrArg Part.package hwrite

lemma of_mem_dropWhile {p : Char → Bool} {s : List Char} (h : c ∈ s) : c ∈ s.dropWhile p ∨ p c = true := by
  rw [← List.takeWhile_append_dropWhile (p := p) (l := s), List.mem_append] at h
  exact h.symm.imp_right (List.all_eq_true.1 List.all_takeWhile c)

lemma of_mem_trimRight {p : Char → Bool} {s : List Char} (h : c ∈ s) : c ∈ (s.reverse.dropWhile p).reverse ∨ p c = true := by
  simpa using of_mem_dropWhile (p := p) (List.mem_reverse.2 h)

lemma of_mem_key (h : c ∈ key) : c ∈ Part.keyName key ∨ c = ':' ∨ Text.isBlank c = true := by
  rcases Text.of_mem_trimChars h with h | h
  · exact (of_mem_trimRight h).imp_right fun hc => .inl (beq_iff_eq.1 hc)
  · exact .inr (.inr h)

structure IsVersion (part key value : List Char) : Prop where
  eq : part = key ++ '=' :: value
  first : '=' ∉ key
  name : Part.trimColons (Text.trimChars key) = "version".toList
  noColon : key.getLast? ≠ some ':'

lemma isVersion_iff : IsVersion part key value ↔ Part.ofText part = .setting key value ∧ Part.isVersionKey key = true := by
  rw [ofText_eq_setting_iff, Part.isVersionKey, Bool.and_eq_true, beq_iff_eq, bne_iff_ne]
  exact ⟨fun h => ⟨⟨h.first, h.eq⟩, h.name, h.noColon⟩, fun h => ⟨h.1.2, h.1.1, h.2.1, h.2.2⟩⟩

def NamesServlet (parts : List (List Char)) : Prop := ∃ part ∈ parts, '=' ∉ part ∧ servletPackage <+: Text.trimChars part

lemma any_isServlet_iff : (parts.map Part.ofText).any Part.isServlet = true ↔ NamesServlet parts := by
  rw [List.any_map, List.any_eq_true]
  refine exists_congr fun part => and_congr_right fun _ => ?_
  cases h : Part.ofText part with
  | package name =>
    obtain ⟨hno, rfl⟩ := ofText_eq_package_iff.1 h
    simp [Part.isServlet, h, hno, Text.strip?_isSome_iff]
  | setting key value =>
    have hmem : '=' ∈ part := by simp [(ofText_eq_setting_iff.1 h).2]
    simp [Part.isServlet, h, hmem]

def revisePart (header : PackageHeader) (part : List Char) : List Char := ((Part.ofText part).withVersion header.version).write

lemma revisePart_of_isVersion (h : IsVersion part key value) :
    header.revisePart part = key ++ '=' :: '"' :: (header.version ++ ['"']) := by
  obtain ⟨ho, hk⟩ := isVersion_iff.1 h
  simp [revisePart, ho, Part.withVersion, hk, Part.write]

lemma revisePart_of_forall_not (h : ∀ key value, ¬ IsVersion part key value) : header.revisePart part = part := by
  cases ho : Part.ofText part with
  | package name =>
    obtain ⟨-, rfl⟩ := ofText_eq_package_iff.1 ho
    rw [revisePart, ho]
    rfl
  | setting key value =>
    have hk : ¬ Part.isVersionKey key = true := fun hk => h key value (isVersion_iff.2 ⟨ho, hk⟩)
    rw [revisePart, ho, Part.withVersion, if_neg hk, ← ho, write_ofText]

lemma ofText_revisePart (part : List Char) :
    Part.ofText (header.revisePart part) = (Part.ofText part).withVersion header.version := by
  by_cases h : ∃ key value, IsVersion part key value
  · obtain ⟨key, value, h⟩ := h
    rw [revisePart_of_isVersion h, ofText_eq_setting_iff.2 ⟨h.first, rfl⟩]
    obtain ⟨ho, hk⟩ := isVersion_iff.1 h
    simp [ho, Part.withVersion, hk]
  · have hno : ∀ key value, ¬ IsVersion part key value := fun key value hv => h ⟨key, value, hv⟩
    rw [revisePart_of_forall_not hno]
    cases ho : Part.ofText part with
    | package name => rfl
    | setting key value => rw [Part.withVersion, if_neg fun hk => hno key value (isVersion_iff.2 ⟨ho, hk⟩)]

lemma plain_of_isVersion (h : IsVersion part key value) : ∀ c ∈ key, c ≠ '"' ∧ c ≠ ',' ∧ c ≠ ';' := by
  have hplain : ("version".toList.all fun c => c ≠ '"' ∧ c ≠ ',' ∧ c ≠ ';') = true := by decide
  intro c hc
  rcases of_mem_key hc with hc | rfl | hc
  · exact of_decide_eq_true (List.all_eq_true.1 hplain c (h.name ▸ hc))
  · decide
  · refine ⟨?_, ?_, ?_⟩ <;> (rintro rfl; revert hc; decide)

end Parts

section Revision

variable {header : PackageHeader} {s t clause part new : List Char} {parts : List (List Char)}
  {clauses : List (List (List Char))} {sep : Char} {value : String}

def revise (header : PackageHeader) (parts : List (List Char)) : List (List Char) :=
  if (parts.map Part.ofText).any Part.isServlet then parts.map header.revisePart else parts

/-- What becomes of a part of a clause: a version attribute of servlet packages gets the version of the header. -/
structure Revised (header : PackageHeader) (parts : List (List Char)) (part new : List Char) : Prop where
  version : ∀ key value, NamesServlet parts → IsVersion part key value → new = key ++ '=' :: '"' :: (header.version ++ ['"'])
  other : (NamesServlet parts → ∀ key value, ¬ IsVersion part key value) → new = part

lemma forall₂_revise (header : PackageHeader) (parts : List (List Char)) :
    List.Forall₂ (header.Revised parts) parts (header.revise parts) := by
  rw [revise]
  split
  next h =>
    rw [List.forall₂_map_right_iff, List.forall₂_same]
    exact fun part _ => ⟨fun key value _ hv => revisePart_of_isVersion hv, fun hno =>
      revisePart_of_forall_not (hno (any_isServlet_iff.1 h))⟩
  next h =>
    rw [List.forall₂_same]
    exact fun part _ => ⟨fun key value hs _ => absurd (any_isServlet_iff.2 hs) h, fun _ => rfl⟩

lemma updateClause_eq_some_iff : header.updateClause clause = some t ↔ ∃ parts, splitOutsideQuotes? ';' clause = some parts ∧
    isClause (parts.map Part.ofText) = true ∧ t = [';'].intercalate (header.revise parts) := by
  simp only [updateClause, Option.bind_eq_bind, Option.bind_eq_some_iff]
  refine exists_congr fun parts => and_congr_right fun _ => ?_
  have hwrite : ((if (parts.map Part.ofText).any Part.isServlet then (parts.map Part.ofText).map (Part.withVersion header.version)
      else parts.map Part.ofText).map Part.write) = header.revise parts := by
    rw [revise]
    split
    · rw [List.map_map, List.map_map]
      rfl
    · simp [Function.comp_def, write_ofText]
  rw [hwrite]
  split
  next h => simp [h, eq_comm]
  next h => simp [h]

lemma mapM_updateClause_eq_some_iff {texts updated : List (List Char)} : texts.mapM header.updateClause = some updated ↔
    ∃ clauses, texts.mapM (splitOutsideQuotes? ';') = some clauses ∧
      (∀ parts ∈ clauses, isClause (parts.map Part.ofText) = true) ∧
      updated = (clauses.map header.revise).map [';'].intercalate := by
  simp only [mapM_eq_some_iff]
  constructor
  · intro h
    induction h with
    | nil => exact ⟨[], .nil, by simp, rfl⟩
    | cons hu _ ih =>
      obtain ⟨parts, hs, hc, rfl⟩ := updateClause_eq_some_iff.1 hu
      obtain ⟨clauses, hsplit, hall, rfl⟩ := ih
      exact ⟨parts :: clauses, .cons hs hsplit, List.forall_mem_cons.2 ⟨hc, hall⟩, rfl⟩
  · rintro ⟨clauses, h, hall, rfl⟩
    induction h with
    | nil => exact .nil
    | cons hs _ ih =>
      obtain ⟨hc, hall⟩ := List.forall_mem_cons.1 hall
      exact .cons (updateClause_eq_some_iff.2 ⟨_, hs, hc, rfl⟩) (ih hall)

lemma updateClauses_eq_some_iff : header.updateClauses s = some t ↔ ∃ clauses, parts? s = some clauses ∧
    (∀ parts ∈ clauses, isClause (parts.map Part.ofText) = true) ∧ t = join (clauses.map header.revise) := by
  simp only [updateClauses, parts?, Option.bind_eq_bind, Option.bind_eq_some_iff, mapM_updateClause_eq_some_iff,
    Option.some.injEq]
  constructor
  · rintro ⟨texts, hs, _, ⟨clauses, hc, hall, rfl⟩, rfl⟩
    exact ⟨clauses, ⟨texts, hs, hc⟩, hall, rfl⟩
  · rintro ⟨clauses, ⟨texts, hs, hc⟩, hall, rfl⟩
    exact ⟨texts, hs, _, ⟨clauses, hc, hall, rfl⟩, rfl⟩

lemma of_updateClauses {P : List Char → Prop} (nil : P []) (cut : ∀ d ∈ [',', ';'], ∀ a b, P (a ++ d :: b) ↔ P a ∧ P b)
    (hpart : ∀ part, P part → P (header.revisePart part)) (hs : P s) (h : header.updateClauses s = some t) : P t := by
  obtain ⟨clauses, hparts, -, rfl⟩ := updateClauses_eq_some_iff.1 h
  rw [← (parts?_eq_some_iff.1 hparts).2.1, join_iff nil cut] at hs
  rw [join_iff nil cut, List.forall_mem_map]
  intro parts hm
  rw [revise]
  split
  · rw [List.forall_mem_map]
    exact fun part hp => hpart part (hs parts hm part hp)
  · exact hs parts hm

lemma withVersion_withVersion (version : List Char) (p : Part) :
    (p.withVersion version).withVersion version = p.withVersion version := by
  cases p with
  | package name => rfl
  | setting key value => by_cases hk : Part.isVersionKey key = true <;> simp [Part.withVersion, hk]

lemma apply_withVersion {α : Type} {f : Part → α} (h : ∀ key value new, f (.setting key value) = f (.setting key new))
    (version : List Char) (p : Part) : f (p.withVersion version) = f p := by
  cases p with
  | package name => rfl
  | setting key value =>
    rw [Part.withVersion]
    split
    · exact h key _ _
    · rfl

lemma isServlet_withVersion (version : List Char) (p : Part) : (p.withVersion version).isServlet = p.isServlet :=
  apply_withVersion (fun _ _ _ => rfl) version p

lemma isSetting_withVersion (version : List Char) (p : Part) : (p.withVersion version).isSetting = p.isSetting :=
  apply_withVersion (fun _ _ _ => rfl) version p

lemma isValid_withVersion (version : List Char) (p : Part) : (p.withVersion version).isValid = p.isValid :=
  apply_withVersion (fun _ _ _ => rfl) version p

lemma map_ofText_revise (header : PackageHeader) (parts : List (List Char)) :
    (header.revise parts).map Part.ofText = parts.map Part.ofText ∨
      (header.revise parts).map Part.ofText = (parts.map Part.ofText).map (Part.withVersion header.version) := by
  rw [revise]
  split
  · right
    simp [Function.comp_def, ofText_revisePart]
  · exact .inl rfl

lemma isClause_revise (header : PackageHeader) (parts : List (List Char)) :
    isClause ((header.revise parts).map Part.ofText) = isClause (parts.map Part.ofText) := by
  rcases map_ofText_revise header parts with h | h
  · rw [h]
  · rw [h]
    generalize parts.map Part.ofText = l
    simp only [isClause, List.all_map, List.takeWhile_map, List.dropWhile_map, Function.comp_def, isValid_withVersion,
      isSetting_withVersion, List.isEmpty_map]

lemma any_isServlet_revise (header : PackageHeader) (parts : List (List Char)) :
    ((header.revise parts).map Part.ofText).any Part.isServlet = (parts.map Part.ofText).any Part.isServlet := by
  rcases map_ofText_revise header parts with h | h
  · rw [h]
  · rw [h, List.any_map]
    simp only [Function.comp_def, isServlet_withVersion]

lemma revise_revise (header : PackageHeader) (parts : List (List Char)) :
    header.revise (header.revise parts) = header.revise parts := by
  have hpart : ∀ part, header.revisePart (header.revisePart part) = header.revisePart part := fun part => by
    rw [revisePart, ofText_revisePart, withVersion_withVersion, ← revisePart]
  rw [revise, any_isServlet_revise]
  split
  next h => simp [revise, h, Function.comp_def, hpart]
  next => rfl

lemma of_revisePart {P : List Char → Prop} (h : P part)
    (hversion : ∀ key value, IsVersion part key value → P (key ++ '=' :: '"' :: (header.version ++ ['"']))) :
    P (header.revisePart part) := by
  by_cases hv : ∃ key value, IsVersion part key value
  · obtain ⟨key, value, hv⟩ := hv
    rw [revisePart_of_isVersion hv]
    exact hversion key value hv
  · rwa [revisePart_of_forall_not fun key value hk => hv ⟨key, value, hk⟩]

lemma isPiece_revisePart (hsep : sep = ',' ∨ sep = ';') (h : IsPiece sep false part) :
    IsPiece sep false (header.revisePart part) := by
  refine of_revisePart h fun key value hv => ?_
  have hplain : ∀ c ∈ key ++ ['='], c ≠ '"' ∧ c ≠ sep := by
    intro c hc
    rcases List.mem_append.1 hc with hc | hc
    · obtain ⟨hquote, hcomma, hsemicolon⟩ := plain_of_isVersion hv c hc
      exact ⟨hquote, by rcases hsep with rfl | rfl <;> assumption⟩
    · obtain rfl := List.mem_singleton.1 hc
      exact ⟨by decide, by rcases hsep with rfl | rfl <;> decide⟩
  have hquoted : IsPiece sep false ('"' :: (header.version ++ ['"'])) := isPiece_quoted (by cases header <;> decide)
  simpa using (isPiece_append_of_plain hplain).2 hquoted

lemma parts?_join_revise (h : parts? s = some clauses) :
    parts? (join (clauses.map header.revise)) = some (clauses.map header.revise) := by
  obtain ⟨hne, -, hall⟩ := parts?_eq_some_iff.1 h
  refine parts?_eq_some_iff.2 ⟨by simpa using hne, rfl, ?_⟩
  rw [List.forall_mem_map]
  intro parts hparts
  obtain ⟨hparts, hpieces⟩ := hall parts hparts
  rw [revise]
  split
  · refine ⟨by simpa using hparts, ?_⟩
    rw [List.forall_mem_map]
    intro part hpart
    obtain ⟨hcomma, hsemicolon⟩ := hpieces part hpart
    exact ⟨isPiece_revisePart (.inl rfl) hcomma, isPiece_revisePart (.inr rfl) hsemicolon⟩
  · exact ⟨hparts, hpieces⟩

lemma revise_eq_self (hs : Text.contains servletPackage (join clauses) = false) (hparts : parts ∈ clauses) :
    header.revise parts = parts := by
  rw [revise, if_neg]
  rw [any_isServlet_iff]
  rintro ⟨part, hpart, -, hp⟩
  have hinfix := hp.isInfix.trans ((Text.isInfix_trimChars part).trans (infix_join hparts hpart))
  rw [Text.contains, ← Bool.not_eq_true, Text.findTail?_isSome_iff] at hs
  exact hs hinfix

lemma toList_updateVersions (h : parts? value.toList = some clauses)
    (hc : ∀ parts ∈ clauses, isClause (parts.map Part.ofText) = true) :
    (header.updateVersions value).toList = join (clauses.map header.revise) := by
  rw [updateVersions]
  split
  · rw [updateClauses_eq_some_iff.2 ⟨clauses, h, hc, rfl⟩, Option.getD_some, String.toList_ofList]
  next hs =>
    have hjoin := (parts?_eq_some_iff.1 h).2.1
    rw [Bool.not_eq_true, ← hjoin] at hs
    rw [List.map_congr_left fun parts hparts => revise_eq_self hs hparts, List.map_id', hjoin]

/-- An update of a list that is well formed keeps its clauses and parts but for the versions of the servlet packages, and
a further one changes nothing. -/
theorem parts?_updateVersions (h : (header.updateClauses value.toList).isSome) :
    ∃ clauses updated, parts? value.toList = some clauses ∧ parts? (header.updateVersions value).toList = some updated ∧
      List.Forall₂ (fun parts new => List.Forall₂ (header.Revised parts) parts new) clauses updated ∧
      header.updateVersions (header.updateVersions value) = header.updateVersions value := by
  obtain ⟨t, ht⟩ := Option.isSome_iff_exists.1 h
  obtain ⟨clauses, hparts, hc, -⟩ := updateClauses_eq_some_iff.1 ht
  have hupdated := @toList_updateVersions header _ _ hparts hc
  have hagain : parts? (header.updateVersions value).toList = some (clauses.map header.revise) := by
    rw [hupdated]
    exact parts?_join_revise hparts
  refine ⟨clauses, clauses.map header.revise, hparts, hagain, ?_, ?_⟩
  · rw [List.forall₂_map_right_iff, List.forall₂_same]
    exact fun parts _ => forall₂_revise header parts
  · have hclause : ∀ parts ∈ clauses.map header.revise, isClause (parts.map Part.ofText) = true := by
      rw [List.forall_mem_map]
      exact fun parts hm => (isClause_revise header parts).trans (hc parts hm)
    rw [← String.toList_inj, toList_updateVersions hagain hclause, hupdated, List.map_map]
    simp only [Function.comp_def, revise_revise]

set_option maxRecDepth 10000 in
theorem forall₂_revised_of_quoted :
    let value := "jakarta.servlet;version=\"[4,5)\",e;version=1"
    let clauses := [["jakarta.servlet", "version=\"[4,5)\""], ["e", "version=1"]]
    let updated := [["jakarta.servlet", "version=\"[5.0.0,7.0.0)\""], ["e", "version=1"]]
    (importPackage.updateClauses value.toList).isSome ∧
      List.Forall₂ (fun parts new => List.Forall₂ (importPackage.Revised parts) parts new)
        (clauses.map (List.map String.toList)) (updated.map (List.map String.toList)) ∧
      importPackage.updateVersions (importPackage.updateVersions value) = importPackage.updateVersions value := by
  intro value clauses updated
  have hsome : (importPackage.updateClauses value.toList).isSome := by decide
  obtain ⟨cs, us, hc, hu, hrevised, hagain⟩ := parts?_updateVersions hsome
  have hclauses : parts? value.toList = some (clauses.map (List.map String.toList)) := by decide
  have hupdated : parts? (importPackage.updateVersions value).toList = some (updated.map (List.map String.toList)) := by
    decide
  obtain rfl := Option.some.inj (hc.symm.trans hclauses)
  obtain rfl := Option.some.inj (hu.symm.trans hupdated)
  exact ⟨hsome, hrevised, hagain⟩

end Revision

end NamespaceMigration.PackageHeader
