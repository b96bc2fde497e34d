import Mathlib.Algebra.BigOperators.Group.List.Basic
import Mathlib.Algebra.Order.BigOperators.Group.List
import Mathlib.Algebra.Order.Ring.Nat
import NamespaceMigration.Proofs.Date

namespace NamespaceMigration.Date

variable {d e day : Date} {year : ℤ} {i n : ℕ} {number : ℤ}

section Years

lemma sum_monthLengths (year : ℤ) : (monthLengths year).sum = if isLeap year then 366 else 365 := by
  rw [monthLengths]
  split <;> rfl

lemma daysBeforeYear_succ (year : ℤ) : daysBeforeYear (year + 1) = daysBeforeYear year + ((monthLengths year).sum : ℕ) := by
  rw [sum_monthLengths]
  simp only [daysBeforeYear, isLeap, Bool.and_eq_true, Bool.or_eq_true, beq_iff_eq, bne_iff_ne]
  split <;> omega

lemma daysBeforeYear_le_daysBeforeYear {year' : ℤ} (h : year ≤ year') : daysBeforeYear year ≤ daysBeforeYear year' := by
  refine monotone_int_of_le_succ (fun year => ?_) h
  rw [daysBeforeYear_succ]
  omega

lemma daysBeforeYear_le_iff {first : ℤ} (hlow : daysBeforeYear year ≤ number) (hhigh : number < daysBeforeYear (year + 1)) :
    daysBeforeYear first ≤ number ↔ first ≤ year := by
  constructor
  · intro h
    by_contra hlt
    have hle := daysBeforeYear_le_daysBeforeYear (show year + 1 ≤ first by omega)
    omega
  · intro h
    exact (daysBeforeYear_le_daysBeforeYear h).trans hlow

end Years

section Months

variable {lengths : List ℕ}

lemma sum_take_succ (lengths : List ℕ) (i : ℕ) : (lengths.take (i + 1)).sum = (lengths.take i).sum + lengths.getD i 0 := by
  rw [List.take_add_one, List.sum_append, List.getD_eq_getElem?_getD]
  cases lengths[i]? <;> simp

lemma sum_take_le_sum_take {j : ℕ} (h : i ≤ j) (lengths : List ℕ) : (lengths.take i).sum ≤ (lengths.take j).sum :=
  (List.take_prefix_take_left h).sublist.sum_le_sum fun _ _ => Nat.zero_le _

lemma sum_take_le_sum (lengths : List ℕ) (i : ℕ) : (lengths.take i).sum ≤ lengths.sum :=
  (List.take_sublist i lengths).sum_le_sum fun _ _ => Nat.zero_le _

lemma inMonths_eq (month : ℕ) (h : n < lengths.sum) : ∃ i, inMonths month lengths n = (month + i, n - (lengths.take i).sum + 1) ∧
    (lengths.take i).sum ≤ n ∧ n < (lengths.take (i + 1)).sum := by
  induction lengths generalizing month n with
  | nil => simp at h
  | cons length lengths ih =>
    rw [inMonths]
    split
    next hlt => exact ⟨0, by simp, by simp, by simpa using hlt⟩
    next hge =>
      rw [List.sum_cons] at h
      obtain ⟨i, hi, hlow, hhigh⟩ := ih (month + 1) (show n - length < lengths.sum by omega)
      refine ⟨i + 1, ?_, ?_, ?_⟩
      · rw [hi, List.take_succ_cons, List.sum_cons, Nat.sub_sub]
        congr 1
        omega
      · rw [List.take_succ_cons, List.sum_cons]
        omega
      · rw [List.take_succ_cons, List.sum_cons]
        omega

end Months

section Numbers

def dayOfYear (d : Date) : ℕ := ((monthLengths d.year).take (d.month - 1)).sum + d.day - 1

lemma isValid_iff : d.isValid = true ↔ (-9999 ≤ d.year ∧ d.year ≤ 9999) ∧ 1 ≤ d.month ∧ 1 ≤ d.day ∧
    d.day ≤ (monthLengths d.year).getD (d.month - 1) 0 := by
  simp only [isValid, Bool.and_eq_true, decide_eq_true_eq, and_assoc]

lemma dayNumber_eq (h : 1 ≤ d.day) : d.dayNumber = daysBeforeYear d.year + (d.dayOfYear : ℕ) := by
  rw [dayNumber, dayOfYear, ← List.sum_eq_foldr]
  omega

lemma dayOfYear_lt (h : d.isValid = true) : d.dayOfYear < ((monthLengths d.year).take d.month).sum := by
  obtain ⟨-, hm, hd, hle⟩ := isValid_iff.1 h
  have hsum := sum_take_succ (monthLengths d.year) (d.month - 1)
  rw [Nat.sub_add_cancel hm] at hsum
  rw [dayOfYear]
  omega

lemma year_bounds (h : d.isValid = true) : daysBeforeYear d.year ≤ d.dayNumber ∧ d.dayNumber < daysBeforeYear (d.year + 1) := by
  have hlt := (dayOfYear_lt h).trans_le (sum_take_le_sum _ _)
  rw [dayNumber_eq (isValid_iff.1 h).2.2.1, daysBeforeYear_succ]
  omega

lemma dayNumber_lt_dayNumber (hd : d.isValid = true) (he : e.isValid = true) (h : d < e) : d.dayNumber < e.dayNumber := by
  rcases lt_iff.1 h with hy | ⟨hy, hm | ⟨hm, hday⟩⟩
  · have hle := daysBeforeYear_le_daysBeforeYear (show d.year + 1 ≤ e.year by omega)
    have h1 := (year_bounds hd).2
    have h2 := (year_bounds he).1
    omega
  · have hlt := dayOfYear_lt hd
    have hle := sum_take_le_sum_take (show d.month ≤ e.month - 1 by omega) (monthLengths d.year)
    obtain ⟨-, -, hd1, -⟩ := isValid_iff.1 hd
    obtain ⟨-, -, he1, -⟩ := isValid_iff.1 he
    have hbefore : d.dayOfYear < e.dayOfYear := by
      rw [hy] at hlt hle
      rw [dayOfYear.eq_def e]
      omega
    rw [dayNumber_eq hd1, dayNumber_eq he1, hy]
    omega
  · obtain ⟨-, -, hd1, -⟩ := isValid_iff.1 hd
    rw [dayNumber, dayNumber, hy, hm]
    omega

lemma dayNumber_lt_iff (hd : d.isValid = true) (he : e.isValid = true) : d.dayNumber < e.dayNumber ↔ d < e := by
  refine ⟨fun h => ?_, dayNumber_lt_dayNumber hd he⟩
  rcases lt_trichotomy d e with hlt | rfl | hlt
  · exact hlt
  · exact absurd h (lt_irrefl _)
  · exact absurd (dayNumber_lt_dayNumber he hd hlt) h.not_gt

end Numbers

section Counting

lemma length_takeWhile_range' (p : ℕ → Bool) (first count : ℕ) :
    (∀ i < ((List.range' first count).takeWhile p).length, p (first + i) = true) ∧
      (((List.range' first count).takeWhile p).length < count →
        p (first + ((List.range' first count).takeWhile p).length) = false) := by
  induction count generalizing first with
  | zero => simp
  | succ count ih =>
    obtain ⟨hall, hend⟩ := ih (first + 1)
    rw [List.range'_succ, List.takeWhile_cons]
    cases hp : p first with
    | false => simpa using hp
    | true =>
      rw [if_pos rfl, List.length_cons]
      refine ⟨fun i hi => ?_, fun hlt => ?_⟩
      · cases i with
        | zero => exact hp
        | succ i =>
          rw [← Nat.add_assoc, Nat.add_right_comm]
          exact hall i (Nat.lt_of_succ_lt_succ hi)
      · rw [← Nat.add_assoc, Nat.add_right_comm]
        exact hend (Nat.lt_of_succ_lt_succ hlt)

lemma yearOf_bounds {first : ℤ} (hlow : daysBeforeYear first ≤ number) (hhigh : number < daysBeforeYear (first + 400)) :
    daysBeforeYear (yearOf first number) ≤ number ∧ number < daysBeforeYear (yearOf first number + 1) := by
  obtain ⟨hall, hend⟩ := length_takeWhile_range' (fun (n : ℕ) => decide (daysBeforeYear (first + 1 + n) ≤ number)) 0 400
  rw [yearOf, List.range_eq_range']
  generalize ((List.range' 0 400).takeWhile _).length = years at hall hend ⊢
  simp only [Nat.zero_add, decide_eq_true_eq, decide_eq_false_iff_not] at hall hend
  have hbegun : daysBeforeYear (first + years) ≤ number := by
    cases years with
    | zero => simpa using hlow
    | succ years =>
      have h := hall years (Nat.lt_succ_self years)
      rwa [show first + ((years + 1 : ℕ) : ℤ) = first + 1 + years by omega]
  refine ⟨hbegun, ?_⟩
  -- the year 400 years later has not begun, so the count ends before its bound
  have hfew : years < 400 := by
    by_contra hmany
    have hle := daysBeforeYear_le_daysBeforeYear (show first + 400 ≤ first + years by omega)
    omega
  have h := hend hfew
  rw [show first + (years : ℤ) + 1 = first + 1 + years by omega]
  omega

lemma yearOf_bounds_of_number (number : ℤ) : daysBeforeYear (yearOf (400 * (number / 146097) + 1) number) ≤ number ∧
    number < daysBeforeYear (yearOf (400 * (number / 146097) + 1) number + 1) := by
  -- the calendar repeats after 400 years
  have hcycle : ∀ q : ℤ, daysBeforeYear (400 * q + 1) = 146097 * q := by
    intro q
    rw [daysBeforeYear]
    omega
  apply yearOf_bounds
  · rw [hcycle]
    omega
  · rw [show 400 * (number / 146097) + 1 + 400 = 400 * (number / 146097 + 1) + 1 by omega, hcycle]
    omega

lemma dayNumber_earliest : earliest.dayNumber = daysBeforeYear (-9999) := rfl

lemma dayNumber_ofDayNumber (hlow : earliest.dayNumber ≤ number) (hhigh : number < daysBeforeYear 10000) :
    (ofDayNumber number).isValid = true ∧ (ofDayNumber number).dayNumber = number := by
  obtain ⟨hbegun, hrunning⟩ := yearOf_bounds_of_number number
  rw [ofDayNumber]
  dsimp only
  generalize yearOf (400 * (number / 146097) + 1) number = year at hbegun hrunning ⊢
  have hyear : -9999 ≤ year ∧ year ≤ 9999 := by
    refine ⟨(daysBeforeYear_le_iff hbegun hrunning).1 hlow, ?_⟩
    have hnot := (@daysBeforeYear_le_iff year number 10000 hbegun hrunning).not.1 (by omega)
    omega
  have hdays : (number - daysBeforeYear year).toNat < (monthLengths year).sum := by
    rw [daysBeforeYear_succ] at hrunning
    omega
  obtain ⟨i, hi, hlow, hhigh⟩ := inMonths_eq 1 hdays
  rw [hi]
  dsimp only
  generalize hn : (number - daysBeforeYear year).toNat = n at hlow hhigh ⊢
  have hsum := sum_take_succ (monthLengths year) i
  have hvalid : (⟨year, 1 + i, n - ((monthLengths year).take i).sum + 1⟩ : Date).isValid = true := by
    rw [isValid_iff, Nat.add_sub_cancel_left]
    dsimp only
    omega
  refine ⟨hvalid, ?_⟩
  rw [dayNumber_eq (by simp), dayOfYear]
  dsimp only
  rw [Nat.add_sub_cancel_left]
  omega

lemma dayNumber_earliest_le (hd : d.isValid = true) : earliest.dayNumber ≤ d.dayNumber := by
  rw [dayNumber_earliest]
  exact (daysBeforeYear_le_daysBeforeYear (isValid_iff.1 hd).1.1).trans (year_bounds hd).1

lemma lt_back_iff (hd : d.isValid = true) (hday : day.isValid = true) (n : ℕ) :
    d < day.back n ↔ d.dayNumber + n < day.dayNumber := by
  have hfirst := dayNumber_earliest_le hd
  rw [back]
  split
  next hlt =>
    rw [← dayNumber_lt_iff hd (by decide)]
    omega
  next hge =>
    have hlast := daysBeforeYear_le_daysBeforeYear (show day.year + 1 ≤ 10000 by have := (isValid_iff.1 hday).1.2; omega)
    have hbounds := year_bounds hday
    obtain ⟨hvalid, hnumber⟩ := @dayNumber_ofDayNumber (day.dayNumber - n) (by omega) (by omega)
    rw [← dayNumber_lt_iff hd hvalid, hnumber]
    omega

end Counting

end NamespaceMigration.Date
