import Mathlib.Algebra.Group.Nat.Defs
import Mathlib.Data.Prod.Lex
import NamespaceMigration.Date

namespace NamespaceMigration.Date

variable {d e : Date} {width n : ℕ} {s : List Char}

section Order

def rank (d : Date) : ℤ ×ₗ ℕ ×ₗ ℕ := toLex (d.year, toLex (d.month, d.day))

lemma rank_injective : Function.Injective rank := by
  intro d e h
  cases d
  cases e
  simpa [rank] using h

instance : LinearOrder Date := LinearOrder.lift' rank rank_injective

lemma lt_iff : d < e ↔
    d.year < e.year ∨ d.year = e.year ∧ (d.month < e.month ∨ d.month = e.month ∧ d.day < e.day) := by
  change rank d < rank e ↔ _
  simp only [rank, Prod.Lex.toLex_lt_toLex]

lemma isBefore_iff : d.isBefore e = true ↔ d < e := by
  simp [isBefore, lt_iff]

lemma later_eq_max (d e : Date) : later d e = max d e := by
  rw [later]
  split
  next h => exact (max_eq_right (isBefore_iff.1 h).le).symm
  next h => exact (max_eq_left (not_lt.1 (mt isBefore_iff.2 h))).symm

lemma year_mono (h : d ≤ e) : d.year ≤ e.year := by
  rcases h.lt_or_eq with h | rfl
  · rcases lt_iff.1 h with h | ⟨h, -⟩
    · exact h.le
    · exact h.le
  · exact le_rfl

end Order

section Writing

def Written (d : Date) : Prop := d.isValid = true ∧ 0 ≤ d.year

instance : DecidablePred Written := fun d => inferInstanceAs (Decidable (d.isValid = true ∧ 0 ≤ d.year))

lemma Written.of_le (h : d.Written) (hde : d ≤ e) (he : e.isValid = true) : e.Written :=
  ⟨he, h.2.trans (year_mono hde)⟩

lemma digitsValue_eq (s : List Char) : digitsValue s = Nat.ofDigitChars 10 s 0 := Nat.ofDigitChars_eq_foldl.symm

lemma toList_padded (width n : ℕ) :
    (padded width n).toList = List.replicate (width - (Nat.toDigits 10 n).length) '0' ++ Nat.toDigits 10 n := by
  rw [padded, String.toList_ofList]

lemma isDigit_of_mem_padded {c : Char} (h : c ∈ (padded width n).toList) : c.isDigit = true := by
  rw [toList_padded] at h
  rcases List.mem_append.1 h with h | h
  · rw [List.eq_of_mem_replicate h]
    decide
  · exact Nat.isDigit_of_mem_toDigits (by decide) (by decide) h

lemma of_mem_toText {c : Char} (h : c ∈ d.toText.toList) : c = '-' ∨ c.isDigit = true := by
  have hyear : c ∈ (if d.year < 0 then "-" ++ padded 3 d.year.natAbs else padded 4 d.year.natAbs).toList →
      c = '-' ∨ c.isDigit = true := by
    intro hc
    split_ifs at hc
    · rw [String.toList_append] at hc
      rcases List.mem_append.1 hc with hc | hc
      · exact .inl (List.mem_singleton.1 hc)
      · exact .inr (isDigit_of_mem_padded hc)
    · exact .inr (isDigit_of_mem_padded hc)
  have hdash : c ∈ "-".toList → c = '-' := List.mem_singleton.1
  simp only [toText, String.toList_append, List.mem_append] at h
  rcases h with (((h | h) | h) | h) | h
  · exact hyear h
  · exact .inl (hdash h)
  · exact .inr (isDigit_of_mem_padded h)
  · exact .inl (hdash h)
  · exact .inr (isDigit_of_mem_padded h)

lemma readDigits_padded (hw : 0 < width) (hn : n < 10 ^ width) (s : List Char) :
    readDigits width ((padded width n).toList ++ s) = some (n, s) := by
  have hlen : (padded width n).toList.length = width := by
    have h := (Nat.length_toDigits_le_iff (by decide) hw).2 hn
    rw [toList_padded, List.length_append, List.length_replicate]
    omega
  have hdigits : (padded width n).toList.all Char.isDigit = true :=
    List.all_eq_true.2 fun c hc => isDigit_of_mem_padded hc
  have hvalue : digitsValue (padded width n).toList = n := by
    rw [digitsValue_eq, toList_padded, Nat.ofDigitChars_append, Nat.ofDigitChars_replicate_zero, Nat.mul_zero,
      Nat.ofDigitChars_toDigits (by decide) (by decide)]
  simp [readDigits, List.take_left' hlen, List.drop_left' hlen, hlen, hdigits, hvalue]

lemma readYear_of_readDigits {y : ℕ} {rest : List Char} (h : readDigits 4 s = some (y, rest)) :
    readYear s = some ((y : ℤ), rest) := by
  cases s with
  | nil => simp [readDigits] at h
  | cons c s =>
    have hc : c.isDigit = true := by
      rw [readDigits] at h
      split at h
      next hd =>
        simp only [List.take_succ_cons, List.all_cons, Bool.and_eq_true] at hd
        exact hd.2.1
      next => cases h
    unfold readYear
    split
    next he =>
      obtain rfl := (List.cons.inj he).1
      exact absurd hc (by decide)
    next he =>
      obtain rfl := (List.cons.inj he).1
      exact absurd hc (by decide)
    next => rw [h, Option.map_some]

lemma bounds_of_isValid (h : d.isValid = true) : d.year ≤ 9999 ∧ d.month < 100 ∧ d.day < 100 := by
  simp only [isValid, Bool.and_eq_true, decide_eq_true_eq] at h
  obtain ⟨⟨⟨⟨-, hy⟩, hm⟩, hd⟩, hlen⟩ := h
  have hlengths : ∀ m, (monthLengths d.year).getD m 0 ≤ 31 ∧ (12 ≤ m → (monthLengths d.year).getD m 0 = 0) := by
    intro m
    rw [monthLengths]
    rcases m with _ | _ | _ | _ | _ | _ | _ | _ | _ | _ | _ | _ | m <;> simp
    split <;> decide
  have hmonth := hlengths (d.month - 1)
  refine ⟨hy, ?_, by omega⟩
  by_contra hbig
  have := hmonth.2 (by omega)
  omega

lemma toList_toText (h : 0 ≤ d.year) : d.toText.toList =
    (padded 4 d.year.natAbs).toList ++ '-' :: ((padded 2 d.month).toList ++ '-' :: (padded 2 d.day).toList) := by
  simp [toText, h.not_gt, String.toList_append]

lemma parse?_toText (h : d.Written) : parse? d.toText = some d := by
  obtain ⟨hvalid, hyear⟩ := h
  obtain ⟨hy, hm, hd⟩ := bounds_of_isValid hvalid
  have hyears := readYear_of_readDigits (@readDigits_padded 4 d.year.natAbs (by decide) (by omega)
    ('-' :: ((padded 2 d.month).toList ++ '-' :: (padded 2 d.day).toList)))
  have hmonths := @readDigits_padded 2 d.month (by decide) (by omega) ('-' :: (padded 2 d.day).toList)
  have hdays := @readDigits_padded 2 d.day (by decide) (by omega) []
  rw [Int.natAbs_of_nonneg hyear] at hyears
  rw [List.append_nil] at hdays
  simp [parse?, toList_toText hyear, hyears, hmonths, hdays, hvalid]

end Writing

section Reading

variable {rest : List Char} {y : ℤ}

structure Digits (width : ℕ) (s : List Char) (n : ℕ) : Prop where
  length : s.length = width
  digits : ∀ c ∈ s, c.isDigit = true
  value : Nat.ofDigitChars 10 s 0 = n

inductive SpellsYear : List Char → ℤ → Prop
  | plain {s : List Char} {n : ℕ} (h : Digits 4 s n) : SpellsYear s n
  | plus {s : List Char} {n : ℕ} (h : Digits 4 s n) : SpellsYear ('+' :: s) n
  | minus {s : List Char} {n : ℕ} (h : Digits 4 s n) : SpellsYear ('-' :: s) (-n)

def Spells (s : List Char) (d : Date) : Prop :=
  d.isValid = true ∧ ∃ year month day, s = year ++ '-' :: (month ++ '-' :: day) ∧
    SpellsYear year d.year ∧ Digits 2 month d.month ∧ Digits 2 day d.day

lemma readDigits_eq_some_iff :
    readDigits width s = some (n, rest) ↔ ∃ digits, s = digits ++ rest ∧ Digits width digits n := by
  rw [readDigits, digitsValue_eq]
  constructor
  · intro h
    split at h
    next hd =>
      simp only [Bool.and_eq_true, decide_eq_true_eq, List.all_eq_true] at hd
      cases h
      exact ⟨s.take width, (List.take_append_drop width s).symm, hd.1, hd.2, rfl⟩
    next => cases h
  · rintro ⟨digits, rfl, hlen, hdigits, hvalue⟩
    rw [List.take_left' hlen, List.drop_left' hlen, hvalue]
    exact if_pos (by simp [hlen, List.all_eq_true.2 hdigits])

lemma Digits.read (h : Digits width s n) (rest : List Char) : readDigits width (s ++ rest) = some (n, rest) :=
  readDigits_eq_some_iff.2 ⟨s, rfl, h⟩

lemma readYear_eq_some_iff : readYear s = some (y, rest) ↔ ∃ year, s = year ++ rest ∧ SpellsYear year y := by
  constructor
  · intro h
    unfold readYear at h
    split at h <;> obtain ⟨⟨n, rest'⟩, hn, h⟩ := Option.map_eq_some_iff.1 h <;> cases h <;>
      obtain ⟨digits, rfl, hdigits⟩ := readDigits_eq_some_iff.1 hn
    · exact ⟨'-' :: digits, rfl, .minus hdigits⟩
    · exact ⟨'+' :: digits, rfl, .plus hdigits⟩
    · exact ⟨digits, rfl, .plain hdigits⟩
  · rintro ⟨year, rfl, hyear⟩
    cases hyear with
    | plain h => exact readYear_of_readDigits (h.read rest)
    | plus h => exact congrArg (Option.map _) (h.read rest)
    | minus h => exact congrArg (Option.map _) (h.read rest)

lemma parse?_eq_some_iff {text : String} : parse? text = some d ↔ Spells text.toList d := by
  constructor
  · intro h
    obtain ⟨⟨year, s⟩, hyear, h⟩ := Option.bind_eq_some_iff.1 h
    dsimp only at h
    split at h
    next s =>
      obtain ⟨⟨month, s⟩, hmonth, h⟩ := Option.bind_eq_some_iff.1 h
      dsimp only at h
      split at h
      next s =>
        obtain ⟨⟨day, s⟩, hday, h⟩ := Option.bind_eq_some_iff.1 h
        dsimp only at h
        split at h
        next hv =>
          obtain ⟨hs, hv⟩ := Bool.and_eq_true_iff.1 hv
          obtain rfl := List.isEmpty_iff.1 hs
          obtain rfl := Option.some.inj h
          obtain ⟨yearText, htext, hyears⟩ := readYear_eq_some_iff.1 hyear
          obtain ⟨monthText, rfl, hmonths⟩ := readDigits_eq_some_iff.1 hmonth
          obtain ⟨dayText, rfl, hdays⟩ := readDigits_eq_some_iff.1 hday
          exact ⟨hv, yearText, monthText, dayText, by simpa using htext, hyears, hmonths, hdays⟩
        next => cases h
      next => cases h
    next => cases h
  · rintro ⟨hv, yearText, monthText, dayText, htext, hyear, hmonth, hday⟩
    have hread := readYear_eq_some_iff.2 ⟨yearText, htext, hyear⟩
    have hend := hday.read []
    rw [List.append_nil] at hend
    simp [parse?, hread, hmonth.read, hend, hv]

lemma isValid_of_parse? {text : String} (h : parse? text = some d) : d.isValid = true := (parse?_eq_some_iff.1 h).1

end Reading

end NamespaceMigration.Date
