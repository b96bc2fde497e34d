import Mathlib.Data.String.Basic
import Mathlib.Order.Bounds.Basic
import NamespaceMigration.Cache.Metadata
import NamespaceMigration.Proofs.Date
import NamespaceMigration.Proofs.Except
import NamespaceMigration.Proofs.Text.Search
import NamespaceMigration.Proofs.Text.Trimming

namespace NamespaceMigration.Metadata

variable {m other : Metadata} {key key' : CacheKey} {d e : Date} {entries : List (CacheKey × Date)} {s : List Char}

section Entries

lemma lookup_cons (key : CacheKey) (d : Date) (entries : List (CacheKey × Date)) (key' : CacheKey) :
    ((key, d) :: entries).lookup key' = if key' = key then some d else entries.lookup key' := by
  rw [List.lookup_cons]
  by_cases h : key' = key
  · simp [h]
  · simp [h, beq_eq_false_iff_ne.2 h]

lemma lookup_setIn (key : CacheKey) (d : Date) (entries : List (CacheKey × Date)) (key' : CacheKey) :
    (setIn key d entries).lookup key' = if key' = key then some d else entries.lookup key' := by
  induction entries with
  | nil => exact lookup_cons key d [] key'
  | cons e entries ih =>
    obtain ⟨k, x⟩ := e
    rw [setIn]
    split_ifs with hk h hlt h h
    · rw [lookup_cons, if_pos h]
    · rw [lookup_cons, lookup_cons, if_neg h, if_neg fun he => h (he.trans hk)]
    · rw [lookup_cons, if_pos h]
    · rw [lookup_cons, if_neg h]
    · rw [lookup_cons, ih, if_pos h, if_neg fun he => hk (he.symm.trans h)]
    · rw [lookup_cons, lookup_cons, ih, if_neg h]

lemma get?_set (m : Metadata) (key : CacheKey) (d : Date) (key' : CacheKey) :
    (m.set key d).get? key' = if key' = key then some d else m.get? key' := lookup_setIn key d m.entries key'

lemma get?_erase (m : Metadata) (key key' : CacheKey) :
    (m.erase key).get? key' = if key' = key then none else m.get? key' := by
  have hl := @lookup_filter _ _ _ _ key' m.entries fun k => decide (k ≠ key)
  rw [erase, get?, get?]
  refine hl.trans ?_
  by_cases h : key' = key <;> simp [h]

lemma mem_of_get? (h : m.get? key = some d) : (key, d) ∈ m.entries := by
  obtain ⟨before, behind, he, -⟩ := List.lookup_eq_some_iff.1 h
  simp [he]

def Ordered (m : Metadata) : Prop := m.entries.Pairwise fun e f => e.1.text < f.1.text

lemma text_inj : key.text = key'.text ↔ key = key' := by
  constructor
  · intro h
    cases key
    cases key'
    simpa using h
  · rintro rfl
    rfl

lemma mem_setIn {x : CacheKey × Date} (h : x ∈ setIn key d entries) : x = (key, d) ∨ x ∈ entries := by
  induction entries with
  | nil => simpa [setIn] using h
  | cons e entries ih =>
    rw [setIn] at h
    split_ifs at h <;> grind

lemma pairwise_setIn (h : entries.Pairwise fun e f => e.1.text < f.1.text) :
    (setIn key d entries).Pairwise fun e f => e.1.text < f.1.text := by
  induction entries with
  | nil => simp [setIn]
  | cons e entries ih =>
    obtain ⟨hhead, htail⟩ := List.pairwise_cons.1 h
    rw [setIn]
    split_ifs with hk hlt
    · subst hk
      exact List.pairwise_cons.2 ⟨hhead, htail⟩
    · refine List.pairwise_cons.2 ⟨?_, h⟩
      intro x hx
      rcases List.mem_cons.1 hx with rfl | hx
      · exact hlt
      · exact hlt.trans (hhead x hx)
    · have hgt : e.1.text < key.text := by
        rcases lt_trichotomy key.text e.1.text with hc | hc | hc
        · exact absurd hc hlt
        · exact absurd (text_inj.1 hc).symm hk
        · exact hc
      refine List.pairwise_cons.2 ⟨?_, ih htail⟩
      intro x hx
      rcases mem_setIn hx with rfl | hx
      · exact hgt
      · exact hhead x hx

lemma Ordered.set (h : m.Ordered) (key : CacheKey) (d : Date) : (m.set key d).Ordered := pairwise_setIn h

lemma Ordered.erase (h : m.Ordered) (key : CacheKey) : (m.erase key).Ordered := List.Pairwise.filter _ h

lemma Ordered.get?_eq_some_iff (h : m.Ordered) : m.get? key = some d ↔ (key, d) ∈ m.entries := by
  rw [get?, List.lookup_eq_some_iff]
  constructor
  · rintro ⟨before, after, he, -⟩
    simp [he]
  · intro hmem
    obtain ⟨before, after, he⟩ := List.append_of_mem hmem
    refine ⟨before, after, he, ?_⟩
    intro x hx
    rw [Ordered, he] at h
    have hlt := (List.pairwise_append.1 h).2.2 x hx (key, d) (by simp)
    simp only [bne_iff_ne]
    rintro rfl
    exact lt_irrefl _ hlt

end Entries

section Knowing

def Knows (m : Metadata) (key : CacheKey) (d : Date) : Prop := ∃ e, m.get? key = some e ∧ d ≤ e

lemma knows_empty : ¬ empty.Knows key d := by
  rintro ⟨e, he, -⟩
  cases he

lemma knows_erase : (m.erase key').Knows key d ↔ key ≠ key' ∧ m.Knows key d := by
  rw [Knows, get?_erase]
  split_ifs with h <;> simp [h, Knows]

lemma knows_touch : (m.touch key' e).Knows key d ↔ m.Knows key d ∨ key = key' ∧ d ≤ e := by
  rw [Knows, touch, get?_set, Knows]
  by_cases h : key = key'
  · subst h
    cases hm : m.get? key with
    | none => simp
    | some old => simp [Date.later_eq_max]
  · simp [h]

lemma knows_foldl_touch (keep : CacheKey → Bool) (entries : List (CacheKey × Date)) (m : Metadata) :
    (entries.foldl (fun m e => if keep e.1 then m.touch e.1 e.2 else m) m).Knows key d ↔
      m.Knows key d ∨ keep key = true ∧ ∃ e, (key, e) ∈ entries ∧ d ≤ e := by
  induction entries generalizing m with
  | nil => simp
  | cons x entries ih =>
    obtain ⟨k, e⟩ := x
    rw [List.foldl_cons, ih]
    split_ifs with hk
    · rw [knows_touch, or_assoc]
      refine or_congr_right ?_
      constructor
      · rintro (⟨rfl, hd⟩ | ⟨hkeep, e', he', hd⟩)
        · exact ⟨hk, e, by simp, hd⟩
        · exact ⟨hkeep, e', by simp [he'], hd⟩
      · rintro ⟨hkeep, e', he', hd⟩
        rcases List.mem_cons.1 he' with he' | he'
        · cases he'
          exact .inl ⟨rfl, hd⟩
        · exact .inr ⟨hkeep, e', he', hd⟩
    · refine or_congr_right (and_congr_right fun hkeep => ?_)
      have hne : key ≠ k := by
        rintro rfl
        exact hk hkeep
      simp [hne]

lemma get?_eq_some_iff_isGreatest {days : Set Date} (h : ∀ d, m.Knows key d ↔ ∃ e ∈ days, d ≤ e) :
    m.get? key = some d ↔ IsGreatest days d := by
  constructor
  · intro hd
    have hupper : d ∈ upperBounds days := by
      intro e he
      obtain ⟨e', he', hle⟩ := (h e).2 ⟨e, he, le_rfl⟩
      obtain rfl := Option.some.inj (hd.symm.trans he')
      exact hle
    obtain ⟨e, he, hle⟩ := (h d).1 ⟨d, hd, le_rfl⟩
    obtain rfl := le_antisymm hle (hupper he)
    exact ⟨he, hupper⟩
  · rintro ⟨hd, hupper⟩
    obtain ⟨e, he, hle⟩ := (h d).2 ⟨d, hd, le_rfl⟩
    obtain ⟨e', he', hle'⟩ := (h e).1 ⟨e, he, le_rfl⟩
    rwa [le_antisymm (hle'.trans (hupper he')) hle] at he

lemma Ordered.knows_iff (h : m.Ordered) : m.Knows key d ↔ ∃ e, (key, e) ∈ m.entries ∧ d ≤ e := by
  simp only [Knows, h.get?_eq_some_iff]

end Knowing

structure WellFormed (m : Metadata) : Prop where
  ordered : m.Ordered
  valid : ∀ key d, m.get? key = some d → d.isValid = true

namespace WellFormed

lemma empty : Metadata.empty.WellFormed := ⟨.nil, fun _ _ h => nomatch h⟩

lemma set (h : m.WellFormed) (hd : d.isValid = true) : (m.set key d).WellFormed where
  ordered := h.ordered.set key d
  valid key' e he := by
    rw [get?_set] at he
    split_ifs at he
    · cases he
      exact hd
    · exact h.valid key' e he

lemma erase (h : m.WellFormed) : (m.erase key).WellFormed where
  ordered := h.ordered.erase key
  valid key' e he := by
    rw [get?_erase] at he
    split_ifs at he
    exact h.valid key' e he

lemma touch (h : m.WellFormed) (hd : d.isValid = true) : (m.touch key d).WellFormed := by
  apply h.set
  cases hm : m.get? key with
  | none => exact hd
  | some old =>
    dsimp only
    rw [Date.later]
    split_ifs
    · exact hd
    · exact h.valid key old hm

lemma supply (h : m.WellFormed) (hd : d.isValid = true) : (m.supply key d).WellFormed := by
  rw [Metadata.supply]
  split_ifs
  · exact h
  · exact h.set hd

lemma addLine (h : m.WellFormed) (line : List Char) : (m.addLine line).WellFormed := by
  rw [Metadata.addLine]
  split_ifs
  · exact h
  · split
    next key d hread =>
      obtain ⟨⟨hash, date⟩, -, hread⟩ := Option.bind_eq_some_iff.1 hread
      obtain ⟨key', -, hread⟩ := Option.bind_eq_some_iff.1 hread
      obtain ⟨d', hd', hread⟩ := Option.bind_eq_some_iff.1 hread
      cases hread
      exact h.set (Date.isValid_of_parse? hd')
    next => exact h

lemma foldl_addLine (h : m.WellFormed) (lines : List (List Char)) : (lines.foldl Metadata.addLine m).WellFormed := by
  induction lines generalizing m with
  | nil => exact h
  | cons line lines ih => exact ih (h.addLine line)

lemma parse (text : String) : (Metadata.parse text).WellFormed := foldl_addLine .empty _

lemma foldl_touch (keep : CacheKey → Bool) (h : m.WellFormed) (ho : other.WellFormed) :
    (other.entries.foldl (fun m e => if keep e.1 then m.touch e.1 e.2 else m) m).WellFormed := by
  have hvalid : ∀ x ∈ other.entries, x.2.isValid = true :=
    fun x hx => ho.valid x.1 x.2 (ho.ordered.get?_eq_some_iff.2 hx)
  generalize other.entries = entries at hvalid
  induction entries generalizing m with
  | nil => exact h
  | cons x entries ih =>
    rw [List.foldl_cons]
    apply ih
    · split_ifs
      · exact h.touch (hvalid x (by simp))
      · exact h
    · exact fun y hy => hvalid y (by simp [hy])

end WellFormed

section Writing

def reread (m : Metadata) : Metadata := ⟨m.entries.filterMap fun e => (Date.parse? e.2.toText).map (e.1, ·)⟩

lemma setIn_of_lt (h : ∀ e ∈ entries, e.1.text < key.text) : setIn key d entries = entries ++ [(key, d)] := by
  induction entries with
  | nil => rfl
  | cons e entries ih =>
    have he := h e (by simp)
    have hne : e.1 ≠ key := by
      rintro rfl
      exact lt_irrefl _ he
    rw [setIn, if_neg hne, if_neg he.not_gt, ih fun x hx => h x (by simp [hx]), List.cons_append]

def row (e : CacheKey × Date) : List Char := e.1.text.toList ++ '|' :: e.2.toText.toList

lemma toNat_of_isHashDigit {c : Char} (h : isHashDigit c = true) :
    48 ≤ c.toNat ∧ c.toNat ≤ 57 ∨ 97 ≤ c.toNat ∧ c.toNat ≤ 102 := by
  simpa [isHashDigit, Char.le_def, UInt32.le_iff_toNat_le] using h

lemma isHashDigit_of_mem_text {c : Char} (h : c ∈ key.text.toList) : isHashDigit c = true := by
  have hkey := key.isHash
  rw [isHashText, Bool.and_eq_true, List.all_eq_true] at hkey
  exact hkey.2 c h

lemma toNat_of_mem_row {c : Char} {e : CacheKey × Date} (h : c ∈ row e) : 33 ≤ c.toNat ∧ c.toNat ≤ 126 := by
  rcases List.mem_append.1 h with h | h
  · have := toNat_of_isHashDigit (isHashDigit_of_mem_text h)
    omega
  · rcases List.mem_cons.1 h with rfl | h
    · decide
    · rcases Date.of_mem_toText h with rfl | h
      · decide
      · simp only [Char.isDigit, ge_iff_le, Bool.and_eq_true, decide_eq_true_eq, UInt32.le_iff_toNat_le] at h
        change 48 ≤ c.toNat ∧ c.toNat ≤ 57 at h
        omega

lemma isBlank_of_mem_row {c : Char} {e : CacheKey × Date} (h : c ∈ row e) : Text.isBlank c = false := by
  have := toNat_of_mem_row h
  simp [Text.isBlank]
  omega

lemma readLine?_row (e : CacheKey × Date) : readLine? (row e) = (Date.parse? e.2.toText).map (e.1, ·) := by
  have hbar : '|' ∉ e.1.text.toList := by
    intro h
    exact absurd (isHashDigit_of_mem_text h) (by decide)
  have hsplit : Text.splitFirst? (· == '|') (row e) = some (e.1.text.toList, e.2.toText.toList) := by
    refine Text.splitFirst?_eq_some_iff.2 ⟨?_, '|', by decide, rfl⟩
    intro c hc
    exact beq_false_of_ne (ne_of_mem_of_not_mem hc hbar)
  have hhash : Text.trimChars e.1.text.toList = e.1.text.toList :=
    Text.trimChars_eq_self fun c hc => isBlank_of_mem_row (e := e) (List.mem_append_left _ hc)
  have hdate : Text.trimChars e.2.toText.toList = e.2.toText.toList :=
    Text.trimChars_eq_self fun c hc => isBlank_of_mem_row (e := e) (List.mem_append_right _ (List.mem_cons_of_mem _ hc))
  have hkey : CacheKey.parse? e.1.text = some e.1 := dif_pos e.1.isHash
  simp only [readLine?, hsplit, Option.bind_eq_bind, Option.bind_some, hhash, hdate, String.ofList_toList, hkey]
  cases Date.parse? e.2.toText <;> rfl

lemma length_text (key : CacheKey) : key.text.toList.length = 64 := by
  have h := key.isHash
  rw [isHashText, Bool.and_eq_true, beq_iff_eq] at h
  exact h.1

lemma isComment_text_append (key : CacheKey) (s : List Char) : isComment (key.text.toList ++ s) = false := by
  cases htext : key.text.toList with
  | nil =>
    have hlen := length_text key
    simp [htext] at hlen
  | cons c rest =>
    have hc : isHashDigit c = true := isHashDigit_of_mem_text (show c ∈ key.text.toList by simp [htext])
    have hne : c ≠ '#' := by
      rintro rfl
      exact absurd hc (by decide)
    simp [isComment, hne]

lemma addLine_row (m : Metadata) (e : CacheKey × Date) :
    m.addLine (row e) = match Date.parse? e.2.toText with
      | some d => m.set e.1 d
      | none => m := by
  rw [addLine, Text.trimChars_eq_self fun c hc => isBlank_of_mem_row hc, row, isComment_text_append, ← row, readLine?_row]
  cases Date.parse? e.2.toText <;> rfl

lemma foldl_addLine_rows (h : (m.entries ++ entries).Pairwise fun e f => e.1.text < f.1.text) :
    (entries.map row).foldl addLine m =
      ⟨m.entries ++ entries.filterMap fun e => (Date.parse? e.2.toText).map (e.1, ·)⟩ := by
  induction entries generalizing m with
  | nil => simp
  | cons e entries ih =>
    obtain ⟨hm, hentries, hlt⟩ := List.pairwise_append.1 h
    rw [List.map_cons, List.foldl_cons, addLine_row]
    cases hd : Date.parse? e.2.toText with
    | none =>
      dsimp only
      rw [ih, List.filterMap_cons_none (by simp [hd])]
      exact List.pairwise_append.2 ⟨hm, (List.pairwise_cons.1 hentries).2, fun a ha b hb => hlt a ha b (by simp [hb])⟩
    | some d =>
      have hset : m.set e.1 d = ⟨m.entries ++ [(e.1, d)]⟩ := by
        rw [set, setIn_of_lt fun x hx => hlt x hx e (by simp)]
      have hkeys : ((m.entries ++ e :: entries).map fun e => e.1.text) =
          (m.entries ++ [(e.1, d)] ++ entries).map fun e => e.1.text := by simp
      have hnew : (m.entries ++ [(e.1, d)] ++ entries).Pairwise fun e f => e.1.text < f.1.text :=
        List.pairwise_map.1 (hkeys ▸ List.pairwise_map.2 h)
      dsimp only
      rw [hset, ih hnew]
      simp [hd]

lemma lineEnd_notMem_row (e : CacheKey × Date) : '\n' ∉ row e := by
  intro h
  exact absurd (toNat_of_mem_row h).1 (by decide)

lemma splitOnP_rows (entries : List (CacheKey × Date)) :
    (entries.flatMap fun e => row e ++ ['\n']).splitOnP (· == '\n') = entries.map row ++ [[]] := by
  induction entries with
  | nil => rfl
  | cons e entries ih =>
    have hrow : ∀ c ∈ row e, (c == '\n') = false := fun c hc =>
      beq_false_of_ne (ne_of_mem_of_not_mem hc (lineEnd_notMem_row e))
    rw [List.flatMap_cons, List.append_assoc, List.singleton_append, List.splitOnP_append_cons _ _ (by decide),
      List.splitOnP_eq_singleton hrow, ih, List.map_cons]
    rfl

lemma splitOnP_toText (m : Metadata) :
    m.toText.toList.splitOnP (· == '\n') = header.toList :: (m.entries.map row ++ [[]]) := by
  have hline : ∀ e, (line e).toList = row e ++ ['\n'] := by
    intro e
    simp [line, row, String.toList_append]
  have htext : m.toText.toList = header.toList ++ '\n' :: m.entries.flatMap fun e => row e ++ ['\n'] := by
    simp [toText, String.toList_append, String.toList_join, List.flatMap_map, hline]
  rw [htext, List.splitOnP_append_cons _ _ (by decide), List.splitOnP_eq_singleton (by simp [header]), splitOnP_rows]
  rfl

lemma parse_toText (h : m.Ordered) : parse m.toText = m.reread := by
  have hheader : empty.addLine header.toList = empty := by decide
  rw [parse, splitOnP_toText, List.foldl_cons, hheader, List.foldl_append, @foldl_addLine_rows empty m.entries h]
  rfl

lemma get?_parse_toText (h : m.Ordered) (key : CacheKey) :
    (parse m.toText).get? key = (m.get? key).bind fun d => Date.parse? d.toText := by
  have hread : (parse m.toText).Ordered := (WellFormed.parse m.toText).ordered
  apply Option.ext
  intro d
  rw [hread.get?_eq_some_iff, parse_toText h, reread, List.mem_filterMap, Option.bind_eq_some_iff]
  constructor
  · rintro ⟨⟨k, e⟩, hmem, he⟩
    obtain ⟨d', hd', he⟩ := Option.map_eq_some_iff.1 he
    cases he
    exact ⟨e, h.get?_eq_some_iff.2 hmem, hd'⟩
  · rintro ⟨e, he, hd⟩
    exact ⟨(key, e), h.get?_eq_some_iff.1 he, by rw [hd, Option.map_some]⟩

lemma get?_parse_toText_of_written (h : m.Ordered) (hw : ∀ key d, m.get? key = some d → d.Written) (key : CacheKey) :
    (parse m.toText).get? key = m.get? key := by
  rw [get?_parse_toText h]
  cases hd : m.get? key with
  | none => rfl
  | some d => exact Date.parse?_toText (hw key d hd)

lemma knows_parse_toText (hm : m.WellFormed) (hd : d.Written) (h : m.Knows key d) : (parse m.toText).Knows key d := by
  obtain ⟨e, he, hle⟩ := h
  refine ⟨e, ?_, hle⟩
  rw [get?_parse_toText hm.ordered, he]
  exact Date.parse?_toText (hd.of_le hle (hm.valid key e he))

end Writing

end NamespaceMigration.Metadata
