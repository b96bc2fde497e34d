import NamespaceMigration.Proofs.Profile.Tokens

namespace NamespaceMigration.Profile

open Text (Apart Clear)

section Kept

variable {α : Type} [BEq α] [Alphabet α]

def agrees : List String → List α → Bool
  | [], _ => true
  | _ :: _, [] => true
  | word :: path, c :: s =>
    Alphabet.isSeparator c &&
      match Text.strip? (Alphabet.spell word) s with
      | some rest => agrees path rest
      | none => (Text.strip? s (Alphabet.spell word)).isSome

def keeps (p : Profile) (w : List α) : Bool :=
  w.tails.all fun u => u.isEmpty ||
    match Text.strip? (Alphabet.spell p.source) u with
    | some after => p.rules.all fun r => !agrees r.path after
    | none => (Text.strip? u (Alphabet.spell p.source)).isNone

variable [LawfulBEq α] {p : Profile} {s t w x : List α}

lemma agrees_of_stripSegments {path : List String} (h : (Rule.stripSegments path (s ++ x)).isSome) :
    agrees path s = true := by
  induction path generalizing s with
  | nil => rfl
  | cons word path ih =>
    cases s with
    | nil => rfl
    | cons c s =>
      simp only [List.cons_append, Rule.stripSegments] at h
      split at h
      next hc =>
        rw [agrees, hc, Bool.true_and]
        cases hs : Text.strip? (Alphabet.spell word) s with
        | some rest =>
          obtain rfl := Text.strip?_eq_some_iff.1 hs
          rw [List.append_assoc, Text.strip?_append, Option.bind_some] at h
          exact ih h
        | none =>
          obtain ⟨rest, hrest⟩ := Option.isSome_iff_exists.1 h
          obtain ⟨y, hy, -⟩ := Option.bind_eq_some_iff.1 hrest
          have hword : Alphabet.spell word <+: s ++ x := ⟨y, (Text.strip?_eq_some_iff.1 hy).symm⟩
          rcases List.prefix_or_prefix_of_prefix hword (List.prefix_append s x) with hp | hp
          · rw [← Text.strip?_isSome_iff, hs] at hp
            cases hp
          · exact Text.strip?_isSome_iff.2 hp
      next => cases h

lemma Moved.of_keeps (hw : p.keeps w = true) (h : Moved p (Leads p.rules) (w ++ s) t) :
    ∃ t', t = w ++ t' ∧ Moved p (Leads p.rules) s t' := by
  refine of_append (fun u hu hne x after he hl => ?_) h
  have hu := List.all_eq_true.1 hw u hu
  rw [List.isEmpty_eq_false_iff.2 hne, Bool.false_or] at hu
  have hsource : Alphabet.spell p.source <+: u ++ x := ⟨after, he.symm⟩
  cases hs : Text.strip? (Alphabet.spell p.source) u with
  | some rest =>
    obtain ⟨r, hr, hstrip⟩ := hl
    obtain rfl := Text.strip?_eq_some_iff.1 hs
    rw [List.append_assoc, List.append_cancel_left_eq] at he
    have hagrees : agrees r.path rest = true := agrees_of_stripSegments (he ▸ hstrip)
    rw [hs] at hu
    simpa [hagrees] using List.all_eq_true.1 hu r hr
  | none =>
    rw [hs] at hu
    rcases List.prefix_or_prefix_of_prefix hsource (List.prefix_append u x) with hp | hp
    · rw [← Text.strip?_isSome_iff, hs] at hp
      cases hp
    · rw [← Text.strip?_isSome_iff] at hp
      simp [Option.isNone_iff_eq_none.1 hu] at hp

end Kept

section Symbols

variable {α : Type} [Alphabet α] {p : Profile} {ok : List α → Prop} {a b c : List α} {d : α} {s t : List α}

lemma Moved.of_cons (hp : p.Distinct α) (hd : (Alphabet.spell p.source : List α).head? ≠ some d)
    (h : Moved p ok (d :: s) t) : ∃ t', t = d :: t' ∧ Moved p ok s t' :=
  of_clear_append (w := [d]) (Text.clear_nil.cons hd hp.source_ne_nil) h

lemma Moved.append (ha : Moved p ok a s) (hb : Moved p ok b t) (hok : ∀ a, ok a → ok (a ++ b)) : Moved p ok (a ++ b) (s ++ t) := by
  induction ha with
  | nil => exact hb
  | keep c _ ih => exact .keep c ih
  | move hs _ ih =>
    rw [List.append_assoc, List.append_assoc]
    exact .move (hok _ hs) ih

lemma Moved.of_append_cons {ok' : List α → Prop} (hd : d ∉ (Alphabet.spell p.source : List α))
    (hok : ∀ a, ok (a ++ d :: b) → ok' a) (h : Moved p ok (a ++ d :: b) t) :
    ∃ a' b', t = a' ++ d :: b' ∧ Moved p ok' a a' ∧ Moved p ok b b' := by
  generalize hx : a ++ d :: b = x at h
  induction h generalizing a with
  | nil => simp at hx
  | keep e h ih =>
    cases a with
    | nil =>
      obtain ⟨rfl, rfl⟩ := List.cons.inj hx
      exact ⟨[], _, rfl, .nil, h⟩
    | cons f a =>
      obtain ⟨rfl, hrest⟩ := List.cons.inj hx
      obtain ⟨a', b', rfl, ha, hb⟩ := ih hrest
      exact ⟨f :: a', b', rfl, .keep f ha, hb⟩
  | move hs h ih =>
    rcases List.append_eq_append_iff.1 hx with ⟨m, hm, hrest⟩ | ⟨m, rfl, hrest⟩
    · -- the symbol is not in the token
      cases m with
      | nil =>
        obtain ⟨a', b', rfl, ha, hb⟩ := ih (a := []) hrest
        rw [List.append_nil] at hm
        refine ⟨Alphabet.spell p.target ++ a', b', by simp, ?_, hb⟩
        have := Moved.move (p := p) (hok [] (hrest ▸ hs)) ha
        rwa [List.append_nil, hm] at this
      | cons f m =>
        obtain ⟨rfl, -⟩ := List.cons.inj hrest
        exact absurd (hm ▸ List.mem_append_right a List.mem_cons_self) hd
    · obtain ⟨a', b', rfl, ha, hb⟩ := ih hrest.symm
      exact ⟨Alphabet.spell p.target ++ a', b', by simp, .move (hok m (hrest ▸ hs)) ha, hb⟩

lemma Moved.mem_iff (hs : d ∉ (Alphabet.spell p.source : List α)) (ht : d ∉ (Alphabet.spell p.target : List α))
    (h : Moved p ok s t) : d ∈ s ↔ d ∈ t := by
  induction h with
  | nil => rfl
  | keep c _ ih => rw [List.mem_cons, List.mem_cons, ih]
  | move _ _ ih => simp [hs, ht, ih]

end Symbols

section Avoided

variable {α : Type} [BEq α] [LawfulBEq α] [Alphabet α] {p : Profile} {c : α} {a b : List α}

lemma Avoids.leads_append_cons (h : p.Avoids c) : Leads p.rules (a ++ c :: b) ↔ Leads p.rules a := by
  refine exists_congr fun r => and_congr_right fun hr => ?_
  rw [stripSegments_append_cons h.separator fun word hm => h.words r hr word (by simp [hm]), Option.isSome_map]

lemma Avoids.matches_append_cons (h : p.Avoids c) : Matches p.rules (a ++ c :: b) ↔ Matches p.rules a := by
  have hm : ∀ s : List α, Matches p.rules s ↔
      (matchLength? p.rules (Alphabet.spell p.source) (Alphabet.spell p.source ++ s)).isSome := by
    intro s
    rw [matchLength?_isSome_iff]
    exact ⟨fun h => ⟨s, rfl, h⟩, fun ⟨t, he, h⟩ => List.append_cancel_left he ▸ h⟩
  rw [hm, hm, ← List.append_assoc, h.matchLength?_append_cons]

end Avoided

section Dotted

def Alphanumeric (p : Profile) : Prop :=
  ∀ word ∈ p.source :: p.target :: p.words, ∀ c ∈ word.toList, c.isAlphanum = true

def dotted (c : Char) : Char := if c == '/' then '.' else c

variable {p : Profile} {s t w : List Char}

lemma isSeparator_of_isAlphanum {c : Char} (hc : c.isAlphanum = true) : Alphabet.isSeparator c = false := by
  have hdot : c ≠ '.' := by
    rintro rfl
    cases hc
  have hslash : c ≠ '/' := by
    rintro rfl
    cases hc
  simp [Alphabet.isSeparator, hdot, hslash]

lemma toNat_lt_of_isAlphanum {c : Char} (h : c.isAlphanum = true) : c.toNat < 0x80 := by
  have hval : c.val.toNat = c.toNat := rfl
  have hends : 'Z'.val.toNat = 90 ∧ 'z'.val.toNat = 122 ∧ '9'.val.toNat = 57 := by decide
  change ((decide ('A'.val ≤ c.val ∧ c.val ≤ 'Z'.val) || decide ('a'.val ≤ c.val) && decide (c.val ≤ 'z'.val)) ||
    decide ('0'.val ≤ c.val) && decide (c.val ≤ '9'.val)) = true at h
  simp only [Bool.or_eq_true, Bool.and_eq_true, decide_eq_true_eq, UInt32.le_iff_toNat_le, hval, hends] at h
  omega

lemma dotted_eq_iff {c d : Char} (hc : Alphabet.isSeparator c = false) : c = dotted d ↔ c = d := by
  have hc' : c ≠ '.' ∧ c ≠ '/' := by simpa [Alphabet.isSeparator] using hc
  unfold dotted
  split
  next h =>
    obtain rfl : d = '/' := by simpa using h
    simp [hc'.1, hc'.2]
  next => rfl

lemma isSeparator_dotted (c : Char) : Alphabet.isSeparator (dotted c) = Alphabet.isSeparator c := by
  unfold dotted
  split
  next h =>
    obtain rfl : c = '/' := by simpa using h
    rfl
  next => rfl

lemma map_dotted_eq_self (hw : ∀ c ∈ w, c.isAlphanum = true) : w.map dotted = w := by
  have hd : ∀ c ∈ w, dotted c = c := fun c hc =>
    ((dotted_eq_iff (isSeparator_of_isAlphanum (hw c hc))).2 rfl).symm
  simpa using List.map_congr_left hd

lemma strip?_map_dotted (hw : ∀ c ∈ w, c.isAlphanum = true) :
    Text.strip? w (s.map dotted) = (Text.strip? w s).map (List.map dotted) := by
  induction w generalizing s with
  | nil => rfl
  | cons c w ih =>
    cases s with
    | nil => rfl
    | cons d s =>
      have hcd := @dotted_eq_iff c d (isSeparator_of_isAlphanum (hw c (by simp)))
      simp only [List.map_cons, Text.strip?, beq_iff_eq, hcd]
      split
      · exact ih fun e he => hw e (by simp [he])
      · rfl

lemma strip?_spell_map_dotted {word : String} (hw : ∀ c ∈ word.toList, c.isAlphanum = true) :
    Text.strip? (Alphabet.spell word) (s.map dotted) = (Text.strip? (Alphabet.spell word) s).map (List.map dotted) :=
  strip?_map_dotted hw

lemma rel_map {β γ : Type} (f : β → γ) (x : Option β) : Option.Rel (fun a b => f a = b) x (x.map f) := by
  cases x with
  | none => exact .none
  | some a => exact .some rfl

lemma stripSegments_map_dotted {path : List String} (hp : ∀ word ∈ path, ∀ c ∈ word.toList, c.isAlphanum = true) :
    Rule.stripSegments path (s.map dotted) = (Rule.stripSegments path s).map (List.map dotted) := by
  induction path generalizing s with
  | nil => rfl
  | cons word path ih =>
    cases s with
    | nil => rfl
    | cons c s =>
      simp only [List.map_cons, Rule.stripSegments, isSeparator_dotted]
      split
      · rw [strip?_spell_map_dotted (hp word (by simp))]
        cases Text.strip? (Alphabet.spell word) s with
        | none => rfl
        | some rest => exact ih fun w hw => hp w (by simp [hw])
      · rfl

namespace Alphanumeric

variable (hp : p.Alphanumeric)

include hp

lemma of_mem {r : Rule} (hr : r ∈ p.rules) : ∀ word ∈ r.path ++ r.leaves.flatten ++ r.exceptions,
    ∀ c ∈ word.toList, c.isAlphanum = true :=
  fun word hw => hp word (List.mem_cons_of_mem _ (List.mem_cons_of_mem _ (List.mem_flatMap.2 ⟨r, hr, hw⟩)))

lemma reversedAs (name : String) : (p.reversedAs name).Alphanumeric := by
  intro word hw
  refine hp word ?_
  simp only [Profile.reversedAs, words, List.mem_cons] at hw ⊢
  tauto

lemma avoids {c : Char} (hc : c.isAlphanum = false) (hs : Alphabet.isSeparator c = false) : p.Avoids c := by
  have hword : ∀ word ∈ p.source :: p.target :: p.words, c ∉ word.toList := by
    intro word hw hm
    have := hp word hw c hm
    simp [hc] at this
  refine ⟨hword _ (by simp), hword _ (by simp), hs, fun r hr word hw => ?_⟩
  exact hword word (List.mem_cons_of_mem _ (List.mem_cons_of_mem _ (List.mem_flatMap.2 ⟨r, hr, hw⟩)))

lemma respects_dotted {r : Rule} (hr : r ∈ p.rules) : Respects r fun s t : List Char => s.map dotted = t := by
  rintro path hw s _ rfl
  rw [stripSegments_map_dotted fun word hm => hp.of_mem hr word (hw word hm)]
  exact rel_map _ _

lemma leads_map_dotted : Leads p.rules (s.map dotted) ↔ Leads p.rules s :=
  exists_congr fun r => and_congr_right fun hr => by rw [← (hp.respects_dotted hr).isSome_eq rfl]

lemma matchLength?_rule_map_dotted {r : Rule} (hr : r ∈ p.rules) : r.matchLength? (s.map dotted) = r.matchLength? s :=
  ((hp.respects_dotted hr).matchLength?_eq (fun _ _ => rfl) rfl).symm

lemma matches_map_dotted : Matches p.rules (s.map dotted) ↔ Matches p.rules s :=
  exists_congr fun r => and_congr_right fun hr => by rw [hp.matchLength?_rule_map_dotted hr]

lemma free_map_dotted : p.Free (s.map dotted) ↔ p.Free s := by
  have hmatch : ∀ s : List Char, matchLength? p.rules (Alphabet.spell p.source) (s.map dotted) =
      matchLength? p.rules (Alphabet.spell p.source) s := by
    intro s
    refine (matchLength?_eq_of_rel (R := fun s t : List Char => s.map dotted = t) ?_ rfl ?_).symm
    · rintro r hr s _ rfl
      exact (hp.matchLength?_rule_map_dotted hr).symm
    · rw [strip?_spell_map_dotted (hp p.source (by simp))]
      exact rel_map _ _
  induction s with
  | nil => rfl
  | cons c s ih =>
    have hc := hmatch (c :: s)
    rw [List.map_cons] at hc
    rw [List.map_cons, free_cons, free_cons, hc]
    exact and_congr_right fun _ => ih

lemma moved_map_dotted {ok : List Char → Prop} (hok : ∀ s, ok s → ok (s.map dotted)) (h : Moved p ok s t) :
    Moved p ok (s.map dotted) (t.map dotted) := by
  induction h with
  | nil => exact .nil
  | keep c _ ih => exact .keep (dotted c) ih
  | move hs _ ih =>
    have hsource : (Alphabet.spell p.source : List Char).map dotted = Alphabet.spell p.source :=
      map_dotted_eq_self (hp p.source (by simp))
    have htarget : (Alphabet.spell p.target : List Char).map dotted = Alphabet.spell p.target :=
      map_dotted_eq_self (hp p.target (by simp))
    rw [List.map_append, List.map_append, hsource, htarget]
    exact .move (hok _ hs) ih

end Alphanumeric

end Dotted

/-- A profile whose tokens stand apart in texts and octets alike, in letters and digits, none with a capital first. -/
structure Regular (p : Profile) : Prop where
  chars : p.Distinct Char
  octets : p.Distinct UInt8
  alphanumeric : p.Alphanumeric
  heads : ∀ token ∈ p.tokens Char, ∀ c ∈ token.head?, c.isUpper = false

lemma Regular.reversedAs {p : Profile} (h : p.Regular) (name : String) : (p.reversedAs name).Regular := by
  refine ⟨h.chars.reversedAs name, h.octets.reversedAs name, h.alphanumeric.reversedAs name, fun token ht => h.heads token ?_⟩
  simp only [tokens, Profile.reversedAs, List.mem_cons, List.not_mem_nil, or_false] at ht ⊢
  exact ht.symm

lemma alphanumeric_builtIn (b : BuiltIn) : b.profile.Alphanumeric := by
  intro word hw
  rcases List.mem_append.1 (show word ∈ [b.profile.source, b.profile.target] ++ b.profile.words from hw) with hw | hw
  · exact alphanum_tokens_builtIn b word hw
  · obtain ⟨r, hr, hword⟩ := List.mem_flatMap.1 hw
    exact (alphanum_builtIn b r hr).2 word hword

lemma regular_builtIn (b : BuiltIn) : b.profile.Regular := by
  refine ⟨distinct_builtIn_char b, distinct_builtIn_octet b, alphanumeric_builtIn b, ?_⟩
  have hheads : (b.profile.tokens Char).all (fun token => token.head?.all fun c => !c.isUpper) = true := by
    cases b <;> decide +kernel
  simpa only [List.all_eq_true, Option.all_eq_true, Bool.not_eq_true', Option.mem_def] using hheads

end NamespaceMigration.Profile
