import Mathlib.Data.List.Basic
import NamespaceMigration.Glob.Basic

namespace NamespaceMigration.Glob

def Spans : Glob → Bytes → Prop
  | empty, w => w = []
  | octet c, w => ∃ b, w = [b] ∧ (lowerOctet b == lowerOctet c) = true
  | oneOf negated ranges, w => ∃ b, w = [b] ∧ (inRanges ranges b != negated) = true
  | anyOctet, w => ∃ b, w = [b]
  | anyOctets, _ => True
  | anyDirectories, w => w = [] ∨ ∃ u, w = u ++ [slash]
  | descendants, w => ∃ u, w = slash :: u
  | between, w => w = [slash] ∨ ∃ u, w = slash :: (u ++ [slash])
  | append a b, w => ∃ u v, w = u ++ v ∧ a.Spans u ∧ b.Spans v
  | either a b, w => a.Spans w ∨ b.Spans w
  | group g, w => g.Spans w

/-- Whether marks move over just the parts of a subject that are in `L`. -/
structure Moves (s : Bytes) (F : List Bool → List Bool) (L : Bytes → Prop) : Prop where
  length : ∀ marks, marks.length = s.length + 1 → (F marks).length = s.length + 1
  iff : ∀ marks, marks.length = s.length + 1 → ∀ u v, s = u ++ v →
    ((F marks)[u.length]? = some true ↔ ∃ a w, u = a ++ w ∧ marks[a.length]? = some true ∧ L w)

namespace Moves

variable {s : Bytes} {F G : List Bool → List Bool} {L M : Bytes → Prop}

lemma congr (h : Moves s F L) (hl : ∀ w, L w ↔ M w) : Moves s F M :=
  ⟨h.length, fun marks hm u v hs => (h.iff marks hm u v hs).trans (by simp only [hl])⟩

lemma refl (s : Bytes) : Moves s id (· = []) := by
  refine ⟨fun marks hm => hm, fun marks hm u v hs => ?_⟩
  constructor
  · intro h
    exact ⟨u, [], by simp, h, rfl⟩
  · rintro ⟨a, w, rfl, h, rfl⟩
    rwa [List.append_nil]

lemma comp (hf : Moves s F L) (hg : Moves s G M) : Moves s (G ∘ F) fun w => ∃ x y, w = x ++ y ∧ L x ∧ M y := by
  refine ⟨fun marks hm => hg.length _ (hf.length marks hm), fun marks hm u v hs => ?_⟩
  rw [Function.comp_apply, hg.iff _ (hf.length marks hm) u v hs]
  constructor
  · rintro ⟨b, y, rfl, hb, hy⟩
    obtain ⟨a, x, rfl, ha, hx⟩ := (hf.iff marks hm b (y ++ v) (by simp [hs])).1 hb
    exact ⟨a, x ++ y, by simp, ha, x, y, rfl, hx, hy⟩
  · rintro ⟨a, _, rfl, ha, x, y, rfl, hx, hy⟩
    exact ⟨a ++ x, y, by simp, (hf.iff marks hm (a ++ x) (y ++ v) (by simp [hs])).2 ⟨a, x, rfl, ha, hx⟩, hy⟩

lemma join (hf : Moves s F L) (hg : Moves s G M) : Moves s (fun marks => Glob.join (F marks) (G marks)) fun w => L w ∨ M w := by
  refine ⟨fun marks hm => by simp [Glob.join, hf.length marks hm, hg.length marks hm], fun marks hm u v hs => ?_⟩
  have hlen : u.length < s.length + 1 := by rw [hs, List.length_append]; omega
  have hor : (Glob.join (F marks) (G marks))[u.length]? = some true ↔
      (F marks)[u.length]? = some true ∨ (G marks)[u.length]? = some true := by
    rw [Glob.join, List.getElem?_zipWith, List.getElem?_eq_getElem (by rw [hf.length marks hm]; exact hlen),
      List.getElem?_eq_getElem (by rw [hg.length marks hm]; exact hlen)]
    simp
  rw [hor, hf.iff marks hm u v hs, hg.iff marks hm u v hs]
  constructor
  · rintro (⟨a, w, hu, ha, hw⟩ | ⟨a, w, hu, ha, hw⟩)
    · exact ⟨a, w, hu, ha, .inl hw⟩
    · exact ⟨a, w, hu, ha, .inr hw⟩
  · rintro ⟨a, w, hu, ha, hw | hw⟩
    · exact .inl ⟨a, w, hu, ha, hw⟩
    · exact .inr ⟨a, w, hu, ha, hw⟩

lemma advance (s : Bytes) (p : UInt8 → Bool) : Moves s (Glob.advance p s) fun w => ∃ b, w = [b] ∧ p b = true := by
  refine ⟨fun marks hm => by simp [Glob.advance, hm], fun marks hm u v hs => ?_⟩
  rcases List.eq_nil_or_concat u with rfl | ⟨a, b, rfl⟩
  · simp [Glob.advance]
  · rw [List.concat_eq_append] at hs ⊢
    have hb : s[a.length]? = some b := by simp [hs]
    have ha : a.length < marks.length := by grind
    have hadvance : (Glob.advance p s marks)[(a ++ [b]).length]? = some true ↔ marks[a.length]? = some true ∧ p b = true := by
      rw [Glob.advance, List.length_append, List.length_singleton, List.getElem?_cons_succ, List.getElem?_zipWith, hb,
        List.getElem?_eq_getElem ha]
      simp
    rw [hadvance]
    constructor
    · rintro ⟨hm, hp⟩
      exact ⟨a, [b], rfl, hm, b, rfl, hp⟩
    · rintro ⟨a', _, he, hm, b', rfl, hp⟩
      obtain ⟨rfl, hbb⟩ := List.append_inj' he rfl
      obtain rfl := List.singleton_inj.1 hbb
      exact ⟨hm, hp⟩

lemma getElem?_flood (seen : Bool) (marks : List Bool) (j : ℕ) :
    (Glob.flood seen marks)[j]? = some true ↔ j < marks.length ∧ (seen = true ∨ ∃ i ≤ j, marks[i]? = some true) := by
  induction marks generalizing seen j with
  | nil => simp [Glob.flood]
  | cons on marks ih =>
    cases j with
    | zero => simp [Glob.flood]
    | succ j =>
      rw [Glob.flood, List.getElem?_cons_succ, ih, List.length_cons, Nat.succ_lt_succ_iff, Bool.or_eq_true, or_assoc]
      refine and_congr_right fun _ => or_congr_right ?_
      constructor
      · rintro (rfl | ⟨i, hi, h⟩)
        · exact ⟨0, by omega, rfl⟩
        · exact ⟨i + 1, by omega, h⟩
      · rintro ⟨i, hi, h⟩
        cases i with
        | zero => exact .inl (by simpa using h)
        | succ i => exact .inr ⟨i, by omega, h⟩

lemma length_flood (seen : Bool) (marks : List Bool) : (Glob.flood seen marks).length = marks.length := by
  induction marks generalizing seen with
  | nil => rfl
  | cons on marks ih => simp [Glob.flood, ih]

lemma flood (s : Bytes) : Moves s (Glob.flood false) fun _ => True := by
  refine ⟨fun marks hm => by rw [length_flood, hm], fun marks hm u v hs => ?_⟩
  have hlen : u.length < marks.length := by rw [hm, hs, List.length_append]; omega
  rw [getElem?_flood]
  constructor
  · rintro ⟨-, hseen | ⟨i, hi, h⟩⟩
    · cases hseen
    · exact ⟨u.take i, u.drop i, (List.take_append_drop i u).symm, by simpa [hi] using h, trivial⟩
  · rintro ⟨a, w, rfl, h, -⟩
    exact ⟨hlen, .inr ⟨a.length, by simp, h⟩⟩

lemma overDirectories (s : Bytes) : Moves s (Glob.overDirectories s) fun w => w = [] ∨ ∃ u, w = u ++ [slash] := by
  have hslash : Moves s (Glob.overSlash s) fun w => ∃ b, w = [b] ∧ (b == slash) = true := advance s (· == slash)
  refine ((refl s).join ((flood s).comp hslash)).congr fun w => or_congr_right ?_
  simp only [true_and, beq_iff_eq]
  constructor
  · rintro ⟨u, _, rfl, b, rfl, rfl⟩
    exact ⟨u, rfl⟩
  · rintro ⟨u, rfl⟩
    exact ⟨u, [slash], rfl, slash, rfl, rfl⟩

lemma reach (s : Bytes) (g : Glob) : Moves s (Glob.reach s g) g.Spans := by
  have hslash : Moves s (Glob.overSlash s) (· = [slash]) := (advance s (· == slash)).congr fun w => by simp
  induction g with
  | empty => exact refl s
  | octet c => exact advance s _
  | oneOf negated ranges => exact advance s _
  | anyOctet => exact (advance s _).congr fun w => by simp [Spans]
  | anyOctets => exact flood s
  | anyDirectories => exact overDirectories s
  | descendants => exact (hslash.comp (flood s)).congr fun w => by simp [Spans]
  | between =>
    refine (hslash.comp (overDirectories s)).congr fun w => ?_
    constructor
    · rintro ⟨_, _, rfl, rfl, rfl | ⟨u, rfl⟩⟩
      · exact .inl rfl
      · exact .inr ⟨u, rfl⟩
    · rintro (rfl | ⟨u, rfl⟩)
      · exact ⟨[slash], [], rfl, rfl, .inl rfl⟩
      · exact ⟨[slash], u ++ [slash], rfl, rfl, .inr ⟨u, rfl⟩⟩
  | append a b iha ihb => exact iha.comp ihb
  | either a b iha ihb => exact iha.join ihb
  | group g ih => exact ih

end Moves

theorem matchesBytes_iff {g : Glob} {s : Bytes} : g.matchesBytes s = true ↔ g.Spans s := by
  have hm : (true :: s.map fun _ => false).length = s.length + 1 := by simp
  have hlen := (Moves.reach s g).length _ hm
  have hlast : (Glob.reach s g (true :: s.map fun _ => false)).getLastD false = true ↔
      (Glob.reach s g (true :: s.map fun _ => false))[s.length]? = some true := by
    rw [List.getLastD_eq_getLast?, List.getLast?_eq_getElem?, hlen, Nat.add_sub_cancel]
    cases (Glob.reach s g (true :: s.map fun _ => false))[s.length]? <;> simp
  rw [matchesBytes, hlast, (Moves.reach s g).iff _ hm s [] (by simp)]
  constructor
  · rintro ⟨a, w, hs, ha, hw⟩
    cases a with
    | nil => exact hs ▸ hw
    | cons b a => simp [List.getElem?_replicate] at ha
  · intro h
    exact ⟨[], s, rfl, rfl, h⟩

end NamespaceMigration.Glob
