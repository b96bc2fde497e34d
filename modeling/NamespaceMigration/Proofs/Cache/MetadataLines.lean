import Mathlib.Data.List.Induction
import NamespaceMigration.Proofs.Cache.Key
import NamespaceMigration.Proofs.Cache.Metadata

/-! The lines of a metadata file. -/

namespace NamespaceMigration.Metadata

variable {m : Metadata} {key key' : CacheKey} {d d' : Date} {line before behind : List Char}

section Records

def Records (line : List Char) (key : CacheKey) (d : Date) : Prop :=
  ∃ before behind, '|' ∉ before ∧ line = before ++ '|' :: behind ∧
    Text.trimChars before = key.text.toList ∧ Date.Spells (Text.trimChars behind) d

lemma splitFirst?_bar_eq_some_iff :
    Text.splitFirst? (· == '|') line = some (before, behind) ↔ '|' ∉ before ∧ line = before ++ '|' :: behind := by
  rw [Text.splitFirst?_eq_some_iff]
  constructor
  · rintro ⟨hbefore, c, hc, hline⟩
    obtain rfl := beq_iff_eq.1 hc
    refine ⟨fun hbar => ?_, hline⟩
    exact absurd (hbefore '|' hbar) (by decide)
  · rintro ⟨hbar, hline⟩
    exact ⟨fun c hc => beq_false_of_ne (ne_of_mem_of_not_mem hc hbar), '|', by decide, hline⟩

lemma readLine?_eq_some_iff : readLine? line = some (key, d) ↔ Records line key d := by
  constructor
  · intro h
    obtain ⟨⟨before, behind⟩, hsplit, h⟩ := Option.bind_eq_some_iff.1 h
    obtain ⟨key', hkey, h⟩ := Option.bind_eq_some_iff.1 h
    obtain ⟨d', hd, h⟩ := Option.bind_eq_some_iff.1 h
    cases h
    obtain ⟨hbar, hline⟩ := splitFirst?_bar_eq_some_iff.1 hsplit
    have htext := CacheKey.parse?_eq_some_iff.1 hkey
    have hspells := Date.parse?_eq_some_iff.1 hd
    rw [String.toList_ofList] at hspells
    exact ⟨before, behind, hbar, hline, by rw [htext, String.toList_ofList], hspells⟩
  · rintro ⟨before, behind, hbar, hline, hkey, hd⟩
    have hparse : CacheKey.parse? key.text = some key := CacheKey.parse?_eq_some_iff.2 rfl
    have hday : Date.parse? (String.ofList (Text.trimChars behind)) = some d :=
      Date.parse?_eq_some_iff.2 (by rwa [String.toList_ofList])
    simp [readLine?, splitFirst?_bar_eq_some_iff.2 ⟨hbar, hline⟩, hkey, String.ofList_toList, hparse, hday]

lemma records_row (h : d.Written) : Records (row (key, d)) key d := by
  rw [← readLine?_eq_some_iff, readLine?_row, Date.parse?_toText h, Option.map_some]

lemma records_trimChars_iff : Records (Text.trimChars line) key d ↔ Records line key d := by
  constructor
  · rintro ⟨before, behind, hbar, hline, hkey, hd⟩
    obtain ⟨front, back, hfront, hback, he⟩ := Text.exists_trimChars line
    -- blanks at the ends of the line are blanks beside the hash and the day
    have hnot : '|' ∉ front := by
      intro hmem
      exact absurd (hfront '|' hmem) (by decide)
    refine ⟨front ++ before, behind ++ back, by simp [hnot, hbar], by rw [he, hline]; simp, ?_, ?_⟩
    · rwa [Text.trimChars_append_left hfront]
    · rwa [Text.trimChars_append_right hback]
  · rintro ⟨before, behind, hbar, rfl, hkey, hd⟩
    rw [Text.trimChars_append_cons (by decide)]
    refine ⟨_, _, ?_, rfl, ?_, ?_⟩
    · exact fun hmem => hbar ((List.dropWhile_suffix _).subset hmem)
    · rwa [Text.trimChars_trimStart]
    · rwa [Text.trimChars_trimEnd]

lemma isComment_of_records (h : Records line key d) : isComment (Text.trimChars line) = false := by
  obtain ⟨before, behind, -, rfl, hkey, -⟩ := h
  obtain ⟨back, -, hback⟩ := Text.exists_trimEnd (Text.trimStart before)
  -- the trimmed line begins with the hash
  rw [Text.trimChars_append_cons (by decide), hback, ← Text.trimChars, hkey, List.append_assoc]
  exact isComment_text_append key _

lemma addLine_of_records (h : Records line key d) : m.addLine line = m.set key d := by
  simp [addLine, isComment_of_records h, readLine?_eq_some_iff.2 (records_trimChars_iff.2 h)]

lemma addLine_of_forall_not_records (h : ∀ key d, ¬ Records line key d) : m.addLine line = m := by
  rw [addLine]
  split_ifs
  · rfl
  · split
    next key d hread => exact absurd (records_trimChars_iff.1 (readLine?_eq_some_iff.1 hread)) (h key d)
    next => rfl

lemma Records.unique (h : Records line key d) (h' : Records line key' d') : key = key' ∧ d = d' := by
  have he := (readLine?_eq_some_iff.2 h).symm.trans (readLine?_eq_some_iff.2 h')
  exact Prod.mk.inj (Option.some.inj he)

lemma get?_addLine_eq_some_iff : (m.addLine line).get? key = some d ↔
    Records line key d ∨ (∀ e, ¬ Records line key e) ∧ m.get? key = some d := by
  by_cases h : ∃ key' d', Records line key' d'
  · obtain ⟨key', d', h⟩ := h
    rw [addLine_of_records h, get?_set]
    split_ifs with hkey
    · subst hkey
      constructor
      · rintro ⟨⟩
        exact .inl h
      · rintro (h' | ⟨hno, -⟩)
        · rw [(h.unique h').2]
        · exact absurd h (hno d')
    · have hno : ∀ e, ¬ Records line key e := fun e he => hkey (he.unique h).1
      simp [hno]
  · have hno : ∀ key d, ¬ Records line key d := fun key d hd => h ⟨key, d, hd⟩
    rw [addLine_of_forall_not_records hno]
    simp [hno]

def LastRecord (ls : List (List Char)) (key : CacheKey) (d : Date) : Prop :=
  ∃ before line behind, ls = before ++ line :: behind ∧ Records line key d ∧ ∀ l ∈ behind, ∀ e, ¬ Records l key e

lemma lastRecord_concat {ls : List (List Char)} : LastRecord (ls ++ [line]) key d ↔
    Records line key d ∨ (∀ e, ¬ Records line key e) ∧ LastRecord ls key d := by
  constructor
  · rintro ⟨before, l, behind, hls, hrecord, hbehind⟩
    obtain rfl | ⟨behind, last, rfl⟩ := List.eq_nil_or_concat' behind
    · obtain ⟨-, rfl⟩ := List.append_singleton_inj.1 hls
      exact .inl hrecord
    · rw [← List.cons_append, ← List.append_assoc] at hls
      obtain ⟨rfl, rfl⟩ := List.append_singleton_inj.1 hls
      exact .inr ⟨hbehind line (by simp), before, l, behind, rfl, hrecord, fun x hx => hbehind x (by simp [hx])⟩
  · rintro (hrecord | ⟨hline, before, l, behind, rfl, hrecord, hbehind⟩)
    · exact ⟨ls, line, [], rfl, hrecord, by simp⟩
    · refine ⟨before, l, behind ++ [line], by simp, hrecord, fun x hx => ?_⟩
      rcases List.mem_append.1 hx with hx | hx
      · exact hbehind x hx
      · exact List.mem_singleton.1 hx ▸ hline

lemma get?_foldl_addLine_eq_some_iff {ls : List (List Char)} :
    (ls.foldl addLine empty).get? key = some d ↔ LastRecord ls key d := by
  -- from the end, since the last line that records an access decides
  induction ls using List.reverseRec with
  | nil =>
    constructor
    · intro h
      cases h
    · rintro ⟨before, line, behind, hls, -⟩
      simp at hls
  | append_singleton ls line ih =>
    rw [List.foldl_append, List.foldl_cons, List.foldl_nil, get?_addLine_eq_some_iff, ih, lastRecord_concat]

end Records

section Lines

def lines (text : String) : List (List Char) :=
  let pieces := text.toList.splitOnP (· == '\n')
  if pieces.getLast? = some [] then pieces.dropLast else pieces

lemma parse_eq_foldl_lines (text : String) : parse text = (lines text).foldl addLine empty := by
  rw [lines, parse]
  split_ifs with h
  -- the empty piece behind the last line end is a line that records nothing
  · conv_lhs => rw [← List.dropLast_append_getLast? [] h]
    rw [List.foldl_append, List.foldl_cons, List.foldl_nil, addLine_of_forall_not_records]
    rintro key d ⟨before, behind, -, hline, -⟩
    simp at hline
  · rfl

lemma get?_parse_eq_some_iff {text : String} : (parse text).get? key = some d ↔ LastRecord (lines text) key d := by
  rw [parse_eq_foldl_lines, get?_foldl_addLine_eq_some_iff]

lemma lines_intercalate {ls : List (List Char)} (h : ∀ l ∈ ls, '\n' ∉ l) (hls : ls ≠ []) (hlast : ls.getLast? ≠ some []) :
    lines (String.ofList (['\n'].intercalate ls)) = ls := by
  have hsplit := List.splitOn_intercalate '\n' h hls
  rw [List.splitOn_eq_splitOnP] at hsplit
  rw [lines, String.toList_ofList, hsplit, if_neg hlast]

lemma lines_toText (m : Metadata) : lines m.toText = header.toList :: m.entries.map row := by
  have hlast : (header.toList :: (m.entries.map row ++ [[]])).getLast? = some [] := by
    rw [← List.cons_append, List.getLast?_concat]
  rw [lines, splitOnP_toText, if_pos hlast, ← List.cons_append, List.dropLast_concat]

/-- The lines that record nothing: blank ones, comments, and those without a hash or a day beside a bar. -/
inductive Noise : List Char → Prop
  | blank {line : List Char} (h : Text.Blank line) : Noise line
  | comment (rest : List Char) : Noise ('#' :: rest)
  | unparted {line : List Char} (h : '|' ∉ line) : Noise line
  | nameless {before : List Char} (hbar : '|' ∉ before) (h : isHashText (String.ofList (Text.trimChars before)) = false)
      (behind : List Char) : Noise (before ++ '|' :: behind)
  | dayless {before behind : List Char} (hbar : '|' ∉ before) (h : ∀ d, ¬ Date.Spells (Text.trimChars behind) d) :
      Noise (before ++ '|' :: behind)

lemma Noise.not_records (h : Noise line) : ¬ Records line key d := by
  intro hrecords
  have hcomment := isComment_of_records hrecords
  obtain ⟨before, behind, hbar, hline, hkey, hd⟩ := hrecords
  cases h with
  | blank h => exact absurd (h '|' (by simp [hline])) (by decide)
  | comment rest =>
    have htrim : Text.trimChars ('#' :: rest) = '#' :: Text.trimEnd rest := Text.trimChars_append_cons (by decide) [] rest
    simp [htrim, isComment] at hcomment
  | unparted h => exact h (by simp [hline])
  | nameless hbar' h behind' =>
    obtain ⟨rfl, -⟩ := (Text.append_cons_inj_of_notMem_left hbar' hbar).1 hline
    rw [hkey, String.ofList_toList] at h
    exact absurd key.isHash (by simp [h])
  | dayless hbar' h =>
    obtain ⟨-, rfl⟩ := (Text.append_cons_inj_of_notMem_left hbar' hbar).1 hline
    exact h d hd

inductive Sprinkled : List (List Char) → List (List Char) → Prop
  | nil : Sprinkled [] []
  | keep {ls ls' : List (List Char)} (line : List Char) (h : Sprinkled ls ls') : Sprinkled (line :: ls) (line :: ls')
  | noise {ls ls' : List (List Char)} {line : List Char} (hline : Noise line) (h : Sprinkled ls ls') :
      Sprinkled ls (line :: ls')

lemma Sprinkled.foldl_addLine {ls ls' : List (List Char)} (h : Sprinkled ls ls') (m : Metadata) :
    ls'.foldl addLine m = ls.foldl addLine m := by
  induction h generalizing m with
  | nil => rfl
  | keep line _ ih => exact ih (m.addLine line)
  | noise hline _ ih => rw [List.foldl_cons, addLine_of_forall_not_records fun _ _ => hline.not_records, ih]

lemma reread_eq_self (h : ∀ e ∈ m.entries, e.2.Written) : m.reread = m := by
  have hentries : m.entries.filterMap (fun e => (Date.parse? e.2.toText).map (e.1, ·)) = m.entries.filterMap some := by
    refine List.filterMap_congr fun e he => ?_
    rw [Date.parse?_toText (h e he), Option.map_some]
  rw [reread, hentries, List.filterMap_some]

/-- Metadata in order, of days in the years 0 to 9999, are read back from what is written of them, and from any text
that has the written lines with such between them as record nothing. -/
theorem parse_sprinkled_toText (hm : m.Ordered) (hw : ∀ e ∈ m.entries, e.2.Written) :
    parse m.toText = m ∧ ∀ text, Sprinkled (lines m.toText) (lines text) → parse text = m := by
  have hread : parse m.toText = m := (parse_toText hm).trans (reread_eq_self hw)
  refine ⟨hread, fun text h => ?_⟩
  rw [parse_eq_foldl_lines, h.foldl_addLine, ← parse_eq_foldl_lines, hread]

theorem parse_sprinkled_toText_of_leap_day :
    let key : CacheKey := ⟨"0123456789abcdef0123456789abcdef0123456789abcdef0123456789abcdef", by decide⟩
    let m : Metadata := ⟨[(key, ⟨2024, 2, 29⟩)]⟩
    let text := String.ofList (['\n'].intercalate [" ".toList, header.toList, row (key, ⟨2024, 2, 29⟩),
      key.text.toList ++ '|' :: " 2023-02-29".toList, "0123".toList ++ '|' :: "2025-01-01".toList, "# none".toList, "no bar".toList])
    m.Ordered ∧ (∀ e ∈ m.entries, e.2.Written) ∧ Sprinkled (lines m.toText) (lines text) ∧ parse text = m := by
  intro key m text
  have hm : m.Ordered := List.pairwise_singleton _ _
  have hw : ∀ e ∈ m.entries, e.2.Written := by decide
  have hday : ∀ d, ¬ Date.Spells (Text.trimChars " 2023-02-29".toList) d := by
    intro d hd
    have hnone : Date.parse? "2023-02-29" = none := by decide +kernel
    cases hnone.symm.trans (Date.parse?_eq_some_iff.2 hd)
  have hsprinkled : Sprinkled (lines m.toText) (lines text) := by
    rw [lines_toText, lines_intercalate (by simp [lineEnd_notMem_row, header, key]) (by simp) (by simp)]
    refine .noise (.blank (by simp [Text.Blank, Text.isBlank])) (.keep _ (.keep _ (.noise (.dayless (by decide) hday) (.noise ?_
      (.noise (.comment _) (.noise (.unparted (by decide)) .nil))))))
    exact .nameless (by decide) (by decide) _
  exact ⟨hm, hw, hsprinkled, (parse_sprinkled_toText hm hw).2 text hsprinkled⟩

end Lines

end NamespaceMigration.Metadata
