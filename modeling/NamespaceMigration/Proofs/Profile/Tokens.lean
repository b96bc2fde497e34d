import Mathlib.Data.List.Infix
import Mathlib.Data.Option.Basic
import NamespaceMigration.Proofs.Profile.Migration

/-! Tokens that stand apart from one another and from the words of the rules. -/

namespace NamespaceMigration

namespace Text

variable {α : Type} {a b x y token u w : List α}

def Apart (a b : List α) : Prop := ¬ a <+: b ∧ ¬ b <+: a

instance [DecidableEq α] : Decidable (Apart a b) := inferInstanceAs (Decidable (_ ∧ _))

lemma Apart.symm (h : Apart a b) : Apart b a := ⟨h.2, h.1⟩

lemma Apart.append_ne (h : Apart a b) : a ++ x ≠ b ++ y := by
  intro he
  have ha : a <+: b ++ y := ⟨x, he⟩
  rcases List.prefix_or_prefix_of_prefix ha (List.prefix_append b y) with hab | hba
  · exact h.1 hab
  · exact h.2 hba

lemma Apart.append (h : Apart a b) (x : List α) : Apart (a ++ x) b := by
  constructor
  · intro hp
    exact h.1 ((List.prefix_append a x).trans hp)
  · rintro ⟨y, hy⟩
    exact h.append_ne hy.symm

def Clear (token w : List α) : Prop := ∀ u ∈ w.tails, u ≠ [] → Apart u token

instance [DecidableEq α] : Decidable (Clear token w) := List.decidableBAll _ _

lemma clear_nil : Clear token ([] : List α) := by
  intro u hu hne
  simp [hne] at hu

lemma clear_cons {c : α} : Clear token (c :: w) ↔ Apart (c :: w) token ∧ Clear token w := by
  simp [Clear, List.tails]

lemma Clear.tail {c : α} (h : Clear token (c :: w)) : Clear token w := (clear_cons.1 h).2

lemma Clear.ne_append {c : α} (h : Clear token (c :: w)) : c :: w ++ x ≠ token ++ y := (clear_cons.1 h).1.append_ne

lemma Clear.append (ha : Clear token a) (hb : Clear token b) : Clear token (a ++ b) := by
  induction a with
  | nil => exact hb
  | cons c a ih => exact clear_cons.2 ⟨(clear_cons.1 ha).1.append b, ih ha.tail⟩

lemma Clear.cons {c : α} (hc : token.head? ≠ some c) (hn : token ≠ []) (hw : Clear token w) : Clear token (c :: w) := by
  obtain ⟨d, token, rfl⟩ := List.exists_cons_of_ne_nil hn
  have hdc : ¬ d = c := by simpa using hc
  refine clear_cons.2 ⟨⟨?_, ?_⟩, hw⟩
  · rw [List.cons_prefix_cons]
    exact fun h => hdc h.1.symm
  · rw [List.cons_prefix_cons]
    exact fun h => hdc h.1

end Text

namespace Profile

open Text (Apart Clear)

variable {α : Type} [Alphabet α]

def words (p : Profile) : List String := p.rules.flatMap fun r => r.path ++ r.leaves.flatten ++ r.exceptions

def tokens (α : Type) [Alphabet α] (p : Profile) : List (List α) := [Alphabet.spell p.source, Alphabet.spell p.target]

variable (p : Profile) in
lemma source_mem_tokens : (Alphabet.spell p.source : List α) ∈ p.tokens α := by simp [tokens]

variable (p : Profile) in
lemma target_mem_tokens : (Alphabet.spell p.target : List α) ∈ p.tokens α := by simp [tokens]

/-- Whether the tokens of a profile begin only where they are meant to: neither inside a word nor inside one another. -/
structure Distinct (α : Type) [Alphabet α] (p : Profile) : Prop where
  apart : Apart (Alphabet.spell p.source : List α) (Alphabet.spell p.target)
  heads : ∀ token ∈ p.tokens α, ∀ c ∈ token.head?, Alphabet.isSeparator c = false
  tails : ∀ token ∈ p.tokens α, ∀ other ∈ p.tokens α, Clear token other.tail
  words : ∀ token ∈ p.tokens α, ∀ word ∈ p.words, Clear token (Alphabet.spell word)
  paths : ∀ r ∈ p.rules, r.path ≠ []

instance [DecidableEq α] (p : Profile) : Decidable (p.Distinct α) :=
  decidable_of_iff
    (Apart (Alphabet.spell p.source : List α) (Alphabet.spell p.target) ∧
      (∀ token ∈ p.tokens α, ∀ c ∈ token.head?, Alphabet.isSeparator c = false) ∧
      (∀ token ∈ p.tokens α, ∀ other ∈ p.tokens α, Clear token other.tail) ∧
      (∀ token ∈ p.tokens α, ∀ word ∈ p.words, Clear token (Alphabet.spell word)) ∧ ∀ r ∈ p.rules, r.path ≠ [])
    ⟨fun ⟨ha, hh, ht, hw, hr⟩ => ⟨ha, hh, ht, hw, hr⟩, fun h => ⟨h.apart, h.heads, h.tails, h.words, h.paths⟩⟩

namespace Distinct

variable {p : Profile} {token : List α}

lemma ne_nil (h : p.Distinct α) (ht : token ∈ p.tokens α) : token ≠ [] := by
  rintro rfl
  simp only [tokens, List.mem_cons, List.not_mem_nil, or_false] at ht
  rcases ht with ht | ht
  · exact h.apart.1 (ht ▸ List.nil_prefix)
  · exact h.apart.2 (ht ▸ List.nil_prefix)

lemma source_ne_nil (h : p.Distinct α) : (Alphabet.spell p.source : List α) ≠ [] := h.ne_nil p.source_mem_tokens

lemma clear_target (h : p.Distinct α) : Clear (Alphabet.spell p.source : List α) (Alphabet.spell p.target) := by
  obtain ⟨c, tail, htarget⟩ := List.exists_cons_of_ne_nil (h.ne_nil p.target_mem_tokens)
  have htail := h.tails _ p.source_mem_tokens _ p.target_mem_tokens
  have hapart := h.apart.symm
  rw [htarget] at htail hapart ⊢
  exact Text.clear_cons.2 ⟨hapart, htail⟩

lemma isTrivial_eq_false (h : p.Distinct α) : p.isTrivial = false := by
  rw [isTrivial, beq_eq_false_iff_ne]
  intro he
  exact h.apart.1 (he ▸ List.prefix_rfl)

lemma reversedAs (h : p.Distinct α) (name : String) : (p.reversedAs name).Distinct α := by
  have hm : ∀ token, token ∈ (p.reversedAs name).tokens α ↔ token ∈ p.tokens α := fun token => by
    simp only [tokens, Profile.reversedAs, List.mem_cons, List.not_mem_nil, or_false]
    exact or_comm
  exact ⟨h.apart.symm, fun token ht => h.heads token ((hm token).1 ht),
    fun token ht other ho => h.tails token ((hm token).1 ht) other ((hm other).1 ho),
    fun token ht => h.words token ((hm token).1 ht), h.paths⟩

lemma clear_separator (h : p.Distinct α) (ht : token ∈ p.tokens α) {c : α} (hc : Alphabet.isSeparator c = true)
    {w : List α} (hw : Clear token w) : Clear token (c :: w) := by
  refine hw.cons (fun he => ?_) (h.ne_nil ht)
  simp [h.heads token ht c he] at hc

end Distinct

structure Narrows (p q : Profile) : Prop where
  source : p.source = q.source
  target : p.target = q.target
  rules : p.rules ⊆ q.rules

lemma Narrows.distinct {p q : Profile} (h : p.Narrows q) (hq : q.Distinct α) : p.Distinct α := by
  have htokens : p.tokens α = q.tokens α := by
    rw [tokens, tokens, h.source, h.target]
  constructor
  · rw [h.source, h.target]
    exact hq.apart
  · rw [htokens]
    exact hq.heads
  · rw [htokens]
    exact hq.tails
  · rw [htokens]
    intro token ht word hw
    apply hq.words token ht
    obtain ⟨r, hr, hword⟩ := List.mem_flatMap.1 hw
    exact List.mem_flatMap.2 ⟨r, h.rules hr, hword⟩
  · intro r hr
    exact hq.paths r (h.rules hr)

def Leads [BEq α] (rules : List Rule) (s : List α) : Prop := ∃ r ∈ rules, (Rule.stripSegments r.path s).isSome

def Matches [BEq α] (rules : List Rule) (s : List α) : Prop := ∃ r ∈ rules, (r.matchLength? s).isSome

/-- A text and what it becomes when some source tokens are replaced, all of them before texts that are `ok`. -/
inductive Moved (p : Profile) (ok : List α → Prop) : List α → List α → Prop
  | nil : Moved p ok [] []
  | keep (c : α) {s t : List α} (h : Moved p ok s t) : Moved p ok (c :: s) (c :: t)
  | move {s t : List α} (hs : ok s) (h : Moved p ok s t) :
    Moved p ok (Alphabet.spell p.source ++ s) (Alphabet.spell p.target ++ t)

namespace Moved

variable {p : Profile} {ok ok' : List α → Prop} {s t w : List α}

lemma refl (s : List α) : Moved p ok s s := by
  induction s with
  | nil => exact .nil
  | cons c s ih => exact .keep c ih

lemma mono (h : Moved p ok s t) (hok : ∀ s, ok s → ok' s) : Moved p ok' s t := by
  induction h with
  | nil => exact .nil
  | keep c _ ih => exact .keep c ih
  | move hs _ ih => exact .move (hok _ hs) ih

lemma symm (h : Moved p ok s t) (hok : ∀ s t, Moved p ok s t → ok s → ok' t) (name : String) :
    Moved (p.reversedAs name) ok' t s := by
  induction h with
  | nil => exact .nil
  | keep c _ ih => exact .keep c ih
  | move hs h ih => exact @Moved.move _ _ (p.reversedAs name) ok' _ _ (hok _ _ h hs) ih

lemma of_append (hw : ∀ u ∈ w.tails, u ≠ [] → ∀ x after, u ++ x = Alphabet.spell p.source ++ after → ¬ ok after)
    (h : Moved p ok (w ++ s) t) : ∃ t', t = w ++ t' ∧ Moved p ok s t' := by
  induction w generalizing t with
  | nil => exact ⟨t, rfl, h⟩
  | cons c w ih =>
    generalize hx : c :: w ++ s = x at h
    cases h with
    | nil => cases hx
    | keep d h =>
      obtain ⟨rfl, rfl⟩ := List.cons.inj hx
      obtain ⟨t', rfl, ht⟩ := ih (fun u hu => hw u (by simp only [List.tails, List.mem_cons, hu, or_true])) h
      exact ⟨t', rfl, ht⟩
    | move hs h => exact absurd hs (hw (c :: w) (by simp [List.tails]) (List.cons_ne_nil _ _) _ _ hx)

lemma of_clear_append (hw : Clear (Alphabet.spell p.source) w) (h : Moved p ok (w ++ s) t) :
    ∃ t', t = w ++ t' ∧ Moved p ok s t' :=
  of_append (fun u hu hne _ _ he => absurd he (hw u hu hne).append_ne) h

lemma eq_nil (hp : p.Distinct α) (h : Moved p ok [] t) : t = [] := by
  generalize hs : ([] : List α) = s at h
  cases h with
  | nil => rfl
  | keep => cases hs
  | move _ _ => exact absurd (List.append_eq_nil_iff.1 hs.symm).1 hp.source_ne_nil

variable [BEq α] [LawfulBEq α]

lemma strip? (hs : Clear (Alphabet.spell p.source) w) (ht : Clear (Alphabet.spell p.target) w) (h : Moved p ok s t) :
    Option.Rel (Moved p ok) (Text.strip? w s) (Text.strip? w t) := by
  induction w generalizing s t with
  | nil => exact .some h
  | cons c w ih =>
    cases h with
    | nil => exact .none
    | keep d h =>
      simp only [Text.strip?]
      split
      · exact ih hs.tail ht.tail h
      · exact .none
    | move _ h =>
      have hno : ∀ token x : List α, Clear token (c :: w) → Text.strip? (c :: w) (token ++ x) = none := by
        intro token x hc
        by_contra hn
        obtain ⟨y, hy⟩ := Option.ne_none_iff_exists'.1 hn
        exact hc.ne_append (Text.strip?_eq_some_iff.1 hy).symm
      rw [hno _ _ hs, hno _ _ ht]
      exact .none

end Moved

section Related

variable {β : Type} {R : List α → List β → Prop} {s : List α} {t : List β}

omit [Alphabet α] in
lemma isSome_eq_of_rel {γ : Type} {R : γ → β → Prop} {x : Option γ} {y : Option β} (h : Option.Rel R x y) : x.isSome = y.isSome := by
  cases h with
  | none => rfl
  | some => rfl

omit [Alphabet α] in
lemma bind_eq_of_rel {γ δ : Type} {R : γ → β → Prop} {x : Option γ} {y : Option β} {f : γ → Option δ} {g : β → Option δ}
    (h : Option.Rel R x y) (hfg : ∀ a b, R a b → f a = g b) : x.bind f = y.bind g := by
  cases h with
  | none => rfl
  | some hab => exact hfg _ _ hab

omit [Alphabet α] in
lemma rel_bind {x : Option (List α)} {y : Option (List β)} {f : List α → Option (List α)} {g : List β → Option (List β)}
    (h : Option.Rel R x y) (hfg : ∀ a b, R a b → Option.Rel R (f a) (g b)) : Option.Rel R (x.bind f) (y.bind g) := by
  cases h with
  | none => exact .none
  | some hab => exact hfg _ _ hab

variable [BEq α] [BEq β] [Alphabet β]

lemma goesOnWith_eq (child : String) (s : List α) : Rule.goesOnWith child s = (Rule.stripSegments [child] s).isSome := by
  cases s with
  | nil => rfl
  | cons c s =>
    simp only [Rule.goesOnWith, Rule.stripSegments]
    cases Alphabet.isSeparator c with
    | false => rfl
    | true => cases Text.strip? (Alphabet.spell child) s <;> rfl

def Respects (r : Rule) (R : List α → List β → Prop) : Prop :=
  ∀ path : List String, (∀ word ∈ path, word ∈ r.path ++ r.leaves.flatten ++ r.exceptions) → ∀ s t, R s t →
    Option.Rel R (Rule.stripSegments path s) (Rule.stripSegments path t)

namespace Respects

variable {r : Rule} (hr : Respects r R)

include hr

lemma isSome_eq (h : R s t) : (Rule.stripSegments r.path s).isSome = (Rule.stripSegments r.path t).isSome :=
  isSome_eq_of_rel (hr r.path (fun word hw => by simp [hw]) s t h)

lemma goesOnWith {child : String} (hc : child ∈ r.exceptions) (h : R s t) :
    Rule.goesOnWith child s = Rule.goesOnWith child t := by
  rw [goesOnWith_eq, goesOnWith_eq]
  exact isSome_eq_of_rel (hr [child] (by simp [hc]) s t h)

lemma matchLength?_eq (hw : ∀ path : List String, (∀ word ∈ path, word ∈ r.path ++ r.leaves.flatten ++ r.exceptions) →
    Rule.width α path = Rule.width β path) (h : R s t) : r.matchLength? s = r.matchLength? t := by
  have hpath : ∀ word ∈ r.path, word ∈ r.path ++ r.leaves.flatten ++ r.exceptions := fun word hm => by simp [hm]
  unfold Rule.matchLength?
  refine bind_eq_of_rel (hr r.path hpath s t h) fun rest rest' h => ?_
  have hexc : r.exceptions.any (Rule.goesOnWith · rest) = r.exceptions.any (Rule.goesOnWith · rest') := by
    rw [Bool.eq_iff_iff, List.any_eq_true, List.any_eq_true]
    exact exists_congr fun child => and_congr_right fun hc => by rw [hr.goesOnWith hc h]
  have hleaf : ∀ leaf ∈ r.leaves, (Rule.stripSegments leaf rest).map (fun _ => Rule.width α r.path + Rule.width α leaf) =
      (Rule.stripSegments leaf rest').map fun _ => Rule.width β r.path + Rule.width β leaf := by
    intro leaf hl
    have hwords : ∀ word ∈ leaf, word ∈ r.path ++ r.leaves.flatten ++ r.exceptions := fun word hm => by
      simp [List.mem_flatten.2 ⟨leaf, hl, hm⟩]
    rw [hw r.path hpath, hw leaf hwords, Option.map_eq_bind, Option.map_eq_bind]
    exact bind_eq_of_rel (hr leaf hwords rest rest' h) fun _ _ _ => rfl
  rw [hexc, findSome?_congr hleaf, hw r.path hpath]

end Respects

lemma matchLength?_eq_of_rel {rules : List Rule} {token : List α} {token' : List β}
    (hrules : ∀ r ∈ rules, ∀ s t, R s t → r.matchLength? s = r.matchLength? t) (hl : token.length = token'.length)
    (h : Option.Rel R (Text.strip? token s) (Text.strip? token' t)) : matchLength? rules token s = matchLength? rules token' t := by
  refine bind_eq_of_rel h fun after after' h => ?_
  rw [findSome?_congr fun r hr => hrules r hr after after' h, hl]

end Related

section Rules

variable [BEq α] {p : Profile} {ok : List α → Prop} {s t after rest : List α} {token : List α} {r : Rule}

omit [BEq α] in
lemma Distinct.clear_spell (h : p.Distinct α) (ht : token ∈ p.tokens α) (hr : r ∈ p.rules) {word : String}
    (hw : word ∈ r.path ++ r.leaves.flatten ++ r.exceptions) : Clear token (Alphabet.spell word) :=
  h.words token ht word (List.mem_flatMap.2 ⟨r, hr, hw⟩)

variable [LawfulBEq α]

lemma Distinct.stripSegments (h : p.Distinct α) (hr : r ∈ p.rules) (path : List String)
    (hp : ∀ word ∈ path, word ∈ r.path ++ r.leaves.flatten ++ r.exceptions) (hm : Moved p ok s t) :
    Option.Rel (Moved p ok) (Rule.stripSegments path s) (Rule.stripSegments path t) := by
  induction path generalizing s t with
  | nil => exact .some hm
  | cons word path ih =>
    cases hm with
    | nil => exact .none
    | @keep c s t hm =>
      simp only [Rule.stripSegments]
      split
      · have hw := hp word (by simp)
        have hrel := hm.strip? (h.clear_spell p.source_mem_tokens hr hw) (h.clear_spell p.target_mem_tokens hr hw)
        exact rel_bind hrel fun _ _ hm => ih (fun w hw => hp w (by simp [hw])) hm
      · exact .none
    | move _ hm =>
      have hno : ∀ token ∈ p.tokens α, ∀ x, Rule.stripSegments (word :: path) (token ++ x) = none := by
        intro token ht x
        obtain ⟨c, token, rfl⟩ := List.exists_cons_of_ne_nil (h.ne_nil ht)
        simp [Rule.stripSegments, h.heads _ ht c rfl]
      rw [hno _ p.source_mem_tokens, hno _ p.target_mem_tokens]
      exact .none

lemma Distinct.respects (h : p.Distinct α) (hr : r ∈ p.rules) : Respects r (Moved p ok) :=
  fun path hp _ _ hm => h.stripSegments hr path hp hm

lemma Distinct.matchLength?_rule (h : p.Distinct α) (hr : r ∈ p.rules) (hm : Moved p ok s t) :
    r.matchLength? s = r.matchLength? t :=
  (h.respects hr).matchLength?_eq (fun _ _ => rfl) hm

lemma Distinct.leads_iff (h : p.Distinct α) (hm : Moved p ok s t) : Leads p.rules s ↔ Leads p.rules t := by
  refine exists_congr fun r => and_congr_right fun hr => ?_
  rw [(h.respects hr).isSome_eq hm]

lemma Distinct.matches_iff (h : p.Distinct α) (hm : Moved p ok s t) : Matches p.rules s ↔ Matches p.rules t :=
  exists_congr fun r => and_congr_right fun hr => by rw [h.matchLength?_rule hr hm]

omit [LawfulBEq α] in
lemma Matches.leads {rules : List Rule} (h : Matches rules s) : Leads rules s := by
  obtain ⟨r, hr, hm⟩ := h
  obtain ⟨n, hn⟩ := Option.isSome_iff_exists.1 hm
  simp only [Rule.matchLength?, Option.bind_eq_bind, Option.bind_eq_some_iff] at hn
  obtain ⟨rest, hrest, -⟩ := hn
  exact ⟨r, hr, by simp [hrest]⟩

lemma matchLength?_isSome_iff {rules : List Rule} : (matchLength? rules token s).isSome ↔
    ∃ after, s = token ++ after ∧ Matches rules after := by
  have hsome : ∀ after : List α, (rules.findSome? (·.matchLength? after)).isSome ↔ Matches rules after := fun after =>
    List.findSome?_isSome_iff
  simp only [matchLength?, Option.bind_eq_bind]
  constructor
  · intro h
    cases ht : Text.strip? token s with
    | none => simp [ht] at h
    | some after =>
      refine ⟨after, Text.strip?_eq_some_iff.1 ht, (hsome after).1 ?_⟩
      cases hf : rules.findSome? (·.matchLength? after) with
      | none => simp [ht, hf] at h
      | some n => rfl
  · rintro ⟨after, rfl, hm⟩
    obtain ⟨n, hn⟩ := Option.isSome_iff_exists.1 ((hsome after).2 hm)
    simp [Text.strip?_append, hn]

lemma matchLength?_eq_none_iff {rules : List Rule} : matchLength? rules token s = none ↔
    ∀ after, s = token ++ after → ¬ Matches rules after := by
  rw [← Option.not_isSome_iff_eq_none, matchLength?_isSome_iff]
  exact ⟨fun h after hs hm => h ⟨after, hs, hm⟩, fun h ⟨after, hs, hm⟩ => h after hs hm⟩

end Rules

section Passes

variable [BEq α] [LawfulBEq α] {p : Profile} {s t after rest w x : List α} {token : List α} {r : Rule}

omit [BEq α] [LawfulBEq α] in
structure Woven (r : Rule) (P : List α → Prop) : Prop where
  nil : P []
  append : ∀ a b, P a → P b → P (a ++ b)
  separator : ∀ c, Alphabet.isSeparator c = true → P [c]
  word : ∀ word ∈ r.path ++ r.leaves.flatten ++ r.exceptions, P (Alphabet.spell word)

namespace Woven

variable {P : List α → Prop} {path : List String} {n : ℕ}

lemma exists_of_stripSegments (h : Woven r P) (hp : ∀ word ∈ path, word ∈ r.path ++ r.leaves.flatten ++ r.exceptions)
    (hs : Rule.stripSegments path s = some rest) : ∃ w, s = w ++ rest ∧ w.length = Rule.width α path ∧ P w := by
  induction path generalizing s with
  | nil => exact ⟨[], Option.some.inj hs, rfl, h.nil⟩
  | cons word path ih =>
    cases s with
    | nil => cases hs
    | cons c s =>
      simp only [Rule.stripSegments] at hs
      split at hs
      next hc =>
        obtain ⟨x, hx, hs⟩ := Option.bind_eq_some_iff.1 hs
        obtain ⟨w, rfl, hlen, hw⟩ := ih (fun word hm => hp word (by simp [hm])) hs
        obtain rfl := Text.strip?_eq_some_iff.1 hx
        refine ⟨[c] ++ (Alphabet.spell word ++ w), by simp, ?_, ?_⟩
        · have hwidth : Rule.width α (word :: path) = (Alphabet.spell word : List α).length + 1 + Rule.width α path := by
            simp [Rule.width]
          simp only [hwidth, ← hlen, List.length_append, List.length_singleton]
          omega
        · exact h.append _ _ (h.separator c hc) (h.append _ _ (h.word word (hp word (by simp))) hw)
      next => cases hs

lemma exists_of_matchLength? (h : Woven r P) (hn : r.matchLength? s = some n) :
    ∃ w rest, s = w ++ rest ∧ w.length = n ∧ P w := by
  simp only [Rule.matchLength?, Option.bind_eq_bind, Option.bind_eq_some_iff] at hn
  obtain ⟨rest, hs, hn⟩ := hn
  obtain ⟨w, rfl, hlen, hw⟩ := h.exists_of_stripSegments (fun word hm => by simp [hm]) hs
  split at hn
  · cases hn
  · split at hn
    · exact ⟨w, rest, rfl, hlen.trans (Option.some.inj hn), hw⟩
    · obtain ⟨leaf, hl, hn⟩ := List.exists_of_findSome?_eq_some hn
      obtain ⟨rest', hs, rfl⟩ := Option.map_eq_some_iff.1 hn
      obtain ⟨v, rfl, hlen', hv⟩ := h.exists_of_stripSegments
        (fun word hm => by simp [List.mem_flatten.2 ⟨leaf, hl, hm⟩]) hs
      exact ⟨w ++ v, rest', by simp, by simp [hlen, hlen'], h.append _ _ hw hv⟩

end Woven

omit [BEq α] [LawfulBEq α] in
lemma Distinct.woven (h : p.Distinct α) (hr : r ∈ p.rules) (ht : token ∈ p.tokens α) : Woven r (Clear token) where
  nil := Text.clear_nil
  append _ _ ha hb := ha.append hb
  separator _ hc := h.clear_separator ht hc Text.clear_nil
  word _ hw := h.clear_spell ht hr hw

omit [LawfulBEq α] in
lemma pass_cons {c : α} (hn : matchLength? p.rules (Alphabet.spell p.source) (c :: s) = none) :
    p.pass 0 0 (c :: s) = c :: p.pass 0 0 s := by
  rw [pass, replaceTokens, hn]

lemma pass_append_of_clear (hw : Clear (Alphabet.spell p.source) w) (x : List α) :
    p.pass 0 w.length (w ++ x) = w ++ p.pass 0 0 x ∧ p.pass 0 0 (w ++ x) = w ++ p.pass 0 0 x := by
  induction w with
  | nil => exact ⟨rfl, rfl⟩
  | cons c w ih =>
    obtain ⟨hkeep, hpass⟩ := ih hw.tail
    have hn : matchLength? p.rules (Alphabet.spell p.source) (c :: (w ++ x)) = none :=
      matchLength?_eq_none_iff.2 fun after he => absurd he hw.ne_append
    refine ⟨congrArg (c :: ·) hkeep, ?_⟩
    rw [List.cons_append, pass_cons hn, hpass, List.cons_append]

lemma Distinct.pass_source_append (h : p.Distinct α) (hm : Matches p.rules after) :
    p.pass 0 0 (Alphabet.spell p.source ++ after) = Alphabet.spell p.target ++ p.pass 0 0 after := by
  obtain ⟨c, token, htoken⟩ := List.exists_cons_of_ne_nil h.source_ne_nil
  have hsome : (matchLength? p.rules (Alphabet.spell p.source) (Alphabet.spell p.source ++ after)).isSome :=
    matchLength?_isSome_iff.2 ⟨after, rfl, hm⟩
  obtain ⟨n, hn⟩ := Option.isSome_iff_exists.1 hsome
  obtain ⟨r, hr, after', m, hsplit, hlen, rfl⟩ := matchLength?_eq_some hn
  obtain rfl := List.append_cancel_left hsplit
  obtain ⟨w, rest, rfl, rfl, hw⟩ := (h.woven hr p.source_mem_tokens).exists_of_matchLength? hlen
  obtain ⟨hkeep, hpass⟩ := pass_append_of_clear hw rest
  rw [hpass, ← hkeep, pass]
  rw [htoken] at hn ⊢
  rw [List.cons_append] at hn ⊢
  rw [replaceTokens, hn]
  dsimp only
  rw [replaceTokens_drop, Nat.add_sub_cancel_left]
  simp

lemma Distinct.pass_induction (h : p.Distinct α) {motive : List α → List α → Prop} (nil : motive [] [])
    (keep : ∀ c s, matchLength? p.rules (Alphabet.spell p.source) (c :: s) = none → motive s (p.pass 0 0 s) →
      motive (c :: s) (c :: p.pass 0 0 s))
    (move : ∀ s, Matches p.rules s → motive s (p.pass 0 0 s) →
      motive (Alphabet.spell p.source ++ s) (Alphabet.spell p.target ++ p.pass 0 0 s)) (s : List α) :
    motive s (p.pass 0 0 s) := by
  induction hn : s.length using Nat.strongRecOn generalizing s with
  | ind n ih =>
    cases s with
    | nil => exact nil
    | cons c s =>
      cases hm : matchLength? p.rules (Alphabet.spell p.source) (c :: s) with
      | none =>
        rw [pass_cons hm]
        exact keep c s hm (ih s.length (by simp [← hn]) s rfl)
      | some m =>
        obtain ⟨after, he, hmatch⟩ := matchLength?_isSome_iff.1 (Option.isSome_iff_exists.2 ⟨m, hm⟩)
        have hpos := List.length_pos_iff.2 h.source_ne_nil
        have hlen := congrArg List.length he
        rw [List.length_append] at hlen
        rw [he, h.pass_source_append hmatch]
        exact move after hmatch (ih after.length (by omega) after rfl)

lemma Distinct.moved_pass (h : p.Distinct α) (s : List α) : Moved p (Matches p.rules) s (p.pass 0 0 s) :=
  h.pass_induction .nil (fun c _ _ hm => .keep c hm) (fun _ hs hm => .move hs hm) s

end Passes

section Free

variable [BEq α]

def Free (p : Profile) (s : List α) : Prop := ∀ t, t <:+ s → matchLength? p.rules (Alphabet.spell p.source) t = none

variable {p : Profile} {c : α} {s t w : List α}

lemma free_cons : p.Free (c :: s) ↔ matchLength? p.rules (Alphabet.spell p.source) (c :: s) = none ∧ p.Free s := by
  simp only [Free, List.suffix_cons_iff, forall_eq_or_imp]

lemma Free.of_suffix (h : p.Free s) (ht : t <:+ s) : p.Free t := fun u hu => h u (hu.trans ht)

variable [LawfulBEq α]

lemma free_nil (h : p.Distinct α) : p.Free ([] : List α) := by
  intro t ht
  obtain rfl := List.suffix_nil.1 ht
  refine matchLength?_eq_none_iff.2 fun after he => ?_
  exact absurd (List.append_eq_nil_iff.1 he.symm).1 h.source_ne_nil

lemma free_append_of_clear (hw : Clear (Alphabet.spell p.source) w) : p.Free (w ++ s) ↔ p.Free s := by
  induction w with
  | nil => rfl
  | cons c w ih =>
    rw [List.cons_append, free_cons, ih hw.tail, and_iff_right_iff_imp]
    intro _
    exact matchLength?_eq_none_iff.2 fun after he => absurd he hw.ne_append

lemma positions_eq_nil_iff (h : p.Distinct α) : p.positions s = [] ↔ p.Free s := by
  have hscan : ∀ pos, scan (matchLength? p.rules (Alphabet.spell p.source)) 0 pos s = [] ↔ p.Free s := by
    induction s with
    | nil => simp [scan, free_nil h]
    | cons c s ih =>
      intro pos
      rw [scan, free_cons]
      split
      next n hn => simp [hn]
      next hn => simp [hn, ih]
  rw [positions_eq_scan h.source_ne_nil, hscan]

lemma changed_migrateSymbols_iff (h : p.Distinct α) : (p.migrateSymbols s).changed = true ↔ ¬ p.Free s := by
  rw [← positions_eq_nil_iff h, migrateSymbols]
  split
  next hf => simpa [h.isTrivial_eq_false] using hf
  next hf => simpa [h.isTrivial_eq_false] using hf

lemma Distinct.value_migrateSymbols (h : p.Distinct α) (s : List α) : (p.migrateSymbols s).value = p.pass 0 0 s :=
  Profile.value_migrateSymbols p h.source_ne_nil h.isTrivial_eq_false s

omit [LawfulBEq α] in
lemma pass_eq_self_of_free (h : p.Free s) : p.pass 0 0 s = s := by
  induction s with
  | nil => rfl
  | cons c s ih =>
    rw [free_cons] at h
    rw [pass_cons h.1, ih h.2]

lemma Distinct.matchLength?_cons (h : p.Distinct α) {token : List α} (ht : token ∈ p.tokens α) {ok : List α → Prop}
    (hm : Moved p ok s t) (c : α) : matchLength? p.rules token (c :: s) = matchLength? p.rules token (c :: t) := by
  obtain ⟨d, tail, rfl⟩ := List.exists_cons_of_ne_nil (h.ne_nil ht)
  have hrel := hm.strip? (h.tails _ p.source_mem_tokens _ ht) (h.tails _ p.target_mem_tokens _ ht)
  rw [List.tail_cons] at hrel
  refine matchLength?_eq_of_rel (R := Moved p ok) (fun r hr _ _ hm => h.matchLength?_rule hr hm) rfl ?_
  simp only [Text.strip?]
  split
  · exact hrel
  · exact .none

theorem Distinct.free_pass (h : p.Distinct α) (s : List α) : p.Free (p.pass 0 0 s) := by
  refine h.pass_induction (motive := fun _ t => p.Free t) (free_nil h) ?_ ?_ s
  · intro c s hn hf
    rw [free_cons, ← h.matchLength?_cons p.source_mem_tokens (h.moved_pass s) c]
    exact ⟨hn, hf⟩
  · intro s _ hf
    exact (free_append_of_clear h.clear_target).2 hf

theorem Moved.pass_eq (h : p.Distinct α) (hm : Moved p (Matches p.rules) s t) : p.pass 0 0 t = p.pass 0 0 s := by
  induction hm with
  | nil => rfl
  | @keep c s t hm ih =>
    have hcons := h.matchLength?_cons p.source_mem_tokens hm c
    cases hn : matchLength? p.rules (Alphabet.spell p.source) (c :: s) with
    | none => rw [pass_cons hn, pass_cons (hcons.symm.trans hn), ih]
    | some n =>
      -- a token stands here on both sides, and after it the two texts go on alike
      obtain ⟨after, hsplit, hmatch⟩ := matchLength?_isSome_iff.1 (Option.isSome_iff_exists.2 ⟨n, hn⟩)
      obtain ⟨d, tail, hsource⟩ := List.exists_cons_of_ne_nil h.source_ne_nil
      have htail := h.tails _ p.source_mem_tokens _ p.source_mem_tokens
      rw [hsource, List.cons_append, List.cons.injEq] at hsplit
      obtain ⟨rfl, rfl⟩ := hsplit
      rw [congrArg List.tail hsource, List.tail_cons] at htail
      obtain ⟨after', rfl, hafter⟩ := Moved.of_clear_append htail hm
      rw [(pass_append_of_clear htail after').2, (pass_append_of_clear htail after).2] at ih
      rw [← List.cons_append, ← List.cons_append, ← hsource, h.pass_source_append hmatch,
        h.pass_source_append ((h.matches_iff hafter).1 hmatch), List.append_cancel_left ih]
  | move hs _ ih => rw [(pass_append_of_clear h.clear_target _).2, h.pass_source_append hs, ih]

theorem Distinct.pass_reversedAs (h : p.Distinct α) (name : String) (s : List α) :
    (p.reversedAs name).pass 0 0 (p.pass 0 0 s) = (p.reversedAs name).pass 0 0 s := by
  have hback : Moved (p.reversedAs name) (Matches p.rules) (p.pass 0 0 s) s :=
    (h.moved_pass s).symm (fun _ _ hm hs => (h.matches_iff hm).1 hs) name
  exact (hback.pass_eq (h.reversedAs name)).symm

theorem Distinct.pass_reversedAs_pass (h : p.Distinct α) (name : String) (s : List α) (hf : (p.reversedAs name).Free s) :
    (p.reversedAs name).pass 0 0 (p.pass 0 0 s) = s := by
  rw [h.pass_reversedAs name s, pass_eq_self_of_free hf]

lemma Moved.eq_of_free (hm : Moved p (Matches p.rules) s t) (hf : p.Free s) : s = t := by
  induction hm with
  | nil => rfl
  | keep c _ ih => rw [ih (hf.of_suffix (List.suffix_cons _ _))]
  | @move s t hs _ _ => exact absurd hs (matchLength?_eq_none_iff.1 (hf _ List.suffix_rfl) s rfl)

lemma Avoids.free_append_cons (h : p.Avoids c) (hp : p.Distinct α) : p.Free (s ++ c :: t) ↔ p.Free s ∧ p.Free t := by
  induction s with
  | nil =>
    have hc : matchLength? p.rules (Alphabet.spell p.source) (c :: t) = none :=
      (h.matchLength?_append_cons []).trans (free_nil hp _ List.suffix_rfl)
    simp [free_cons, hc, free_nil hp]
  | cons d s ih =>
    have hd : matchLength? p.rules (Alphabet.spell p.source) (d :: (s ++ c :: t)) =
      matchLength? p.rules (Alphabet.spell p.source) (d :: s) := h.matchLength?_append_cons (d :: s)
    rw [List.cons_append, free_cons, free_cons, ih, hd, and_assoc]

end Free

section Strings

variable {p : Profile} {s : String}

lemma Distinct.toList_migrate (h : p.Distinct Char) (s : String) : (p.migrate s).value.toList = p.pass 0 0 s.toList := by
  rw [migrate, String.toList_ofList, h.value_migrateSymbols]

lemma Distinct.changed_migrate_iff (h : p.Distinct Char) : (p.migrate s).changed = true ↔ ¬ p.Free s.toList :=
  changed_migrateSymbols_iff h

lemma Distinct.free_migrate (h : p.Distinct Char) (s : String) : p.Free (p.migrate s).value.toList :=
  h.toList_migrate s ▸ h.free_pass _

end Strings

section Octets

variable {p : Profile} {s : Bytes}

lemma Distinct.value_migrateBytes (h : p.Distinct UInt8) (s : Bytes) : (p.migrateBytes s).value = p.pass 0 0 s :=
  h.value_migrateSymbols s

lemma Distinct.changed_migrateBytes_iff (h : p.Distinct UInt8) : (p.migrateBytes s).changed = true ↔ ¬ p.Free s :=
  changed_migrateSymbols_iff h

end Octets

section BuiltIn

lemma narrows_tomcat_ee : BuiltIn.tomcatProfile.Narrows BuiltIn.eeProfile := ⟨rfl, rfl, containerRules_subset⟩

lemma distinct_builtIn_char (b : BuiltIn) : b.profile.Distinct Char := by
  have hee : BuiltIn.eeProfile.Distinct Char := by decide +kernel
  cases b with
  | tomcat => exact narrows_tomcat_ee.distinct hee
  | ee => exact hee
  | jee8 => exact hee.reversedAs "JEE8"

lemma distinct_builtIn_octet (b : BuiltIn) : b.profile.Distinct UInt8 := by
  have hee : BuiltIn.eeProfile.Distinct UInt8 := by decide +kernel
  cases b with
  | tomcat => exact narrows_tomcat_ee.distinct hee
  | ee => exact hee
  | jee8 => exact hee.reversedAs "JEE8"

end BuiltIn

end Profile

end NamespaceMigration
