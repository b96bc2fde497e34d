import NamespaceMigration.Proofs.Profile.Scanning
import NamespaceMigration.Proofs.Text.Octets

/-! Texts and their octets migrate alike. -/

namespace NamespaceMigration

open Bytes (ofChars)

namespace Text

lemma strip?_ofChars (word s : List Char) : strip? (ofChars word) (ofChars s) = (strip? word s).map ofChars := by
  cases h : strip? word s with
  | some rest =>
    obtain rfl := strip?_eq_some_iff.1 h
    rw [Bytes.ofChars_append, strip?_append, Option.map_some]
  | none =>
    have hno : ¬ word <+: s := by
      rw [← strip?_isSome_iff, h]
      exact Bool.false_ne_true
    rwa [Option.map_none, ← Option.not_isSome_iff_eq_none, strip?_isSome_iff, Bytes.ofChars_prefix_iff]

end Text

namespace Rule

section After

variable {α : Type} [BEq α] [Alphabet α]

def after? (r : Rule) (s : List α) : Option (List α) := do
  let rest ← stripSegments r.path s
  if r.exceptions.any (goesOnWith · rest) then none
  else if r.leaves.isEmpty then some rest
  else r.leaves.findSome? (stripSegments · rest)

variable [LawfulBEq α] {r : Rule} {path : List String} {s rest : List α}

lemma suffix_of_stripSegments (h : stripSegments path s = some rest) : rest <:+ s := by
  induction path generalizing s with
  | nil =>
    obtain rfl := Option.some.inj h
    exact List.suffix_rfl
  | cons word path ih =>
    cases s with
    | nil => cases h
    | cons c s =>
      rw [stripSegments] at h
      split at h
      next =>
        obtain ⟨t, ht, htail⟩ := Option.bind_eq_some_iff.1 h
        obtain rfl := Text.strip?_eq_some_iff.1 ht
        exact (ih htail).trans ((List.suffix_append _ _).trans (List.suffix_cons _ _))
      next => cases h

lemma suffix_of_after? (h : r.after? s = some rest) : rest <:+ s := by
  obtain ⟨t, ht, h⟩ := Option.bind_eq_some_iff.1 h
  have hsuffix := suffix_of_stripSegments ht
  split at h
  next => cases h
  next =>
    split at h
    next =>
      obtain rfl := Option.some.inj h
      exact hsuffix
    next =>
      obtain ⟨leaf, -, hleaf⟩ := List.exists_of_findSome?_eq_some h
      exact (suffix_of_stripSegments hleaf).trans hsuffix

lemma matchLength?_eq_map_after? (r : Rule) (s : List α) :
    r.matchLength? s = (r.after? s).map fun rest => s.length - rest.length := by
  rw [matchLength?, after?]
  cases hpath : stripSegments r.path s with
  | none => rfl
  | some rest =>
    have hlength := length_of_stripSegments hpath
    have hwidth : width α r.path = s.length - rest.length := by omega
    have hleaf : ∀ leaf, (stripSegments leaf rest).map (fun _ => width α r.path + width α leaf) =
        (stripSegments leaf rest).map fun rest' => s.length - rest'.length := by
      intro leaf
      refine Option.map_congr fun rest' hl => ?_
      have hlength' := length_of_stripSegments hl
      omega
    simp only [Option.bind_eq_bind, Option.bind_some]
    split
    next => rfl
    next =>
      split
      next => rw [hwidth, Option.map_some]
      next => rw [List.map_findSome?, funext hleaf]; rfl

end After

lemma exists_cons_utf8EncodeChar (c : Char) : ∃ b rest, String.utf8EncodeChar c = b :: rest ∧
    (Alphabet.isSeparator b = Alphabet.isSeparator c) ∧ (Alphabet.isSeparator c = true → rest = []) := by
  obtain ⟨b, hb, -⟩ := Bytes.head?_utf8EncodeChar c
  obtain ⟨rest, hrest⟩ := List.head?_eq_some_iff.1 hb
  refine ⟨b, rest, hrest, ?_⟩
  by_cases hc : Alphabet.isSeparator c = true
  · obtain rfl | rfl : c = '.' ∨ c = '/' := by simpa [Alphabet.isSeparator] using hc
    · obtain ⟨rfl, rfl⟩ := List.cons.inj hrest
      decide
    · obtain ⟨rfl, rfl⟩ := List.cons.inj hrest
      decide
  · have hmem : b ∈ String.utf8EncodeChar c := List.mem_of_head? hb
    have hne : ∀ d : Char, d.toNat < 128 → Alphabet.isSeparator d = true → b ≠ UInt8.ofNat d.toNat := by
      rintro d hd hsep rfl
      exact hc (Bytes.eq_of_mem_utf8EncodeChar hd hmem ▸ hsep)
    have hdot : b ≠ 0x2E := hne '.' (by decide) (by decide)
    have hslash : b ≠ 0x2F := hne '/' (by decide) (by decide)
    refine ⟨?_, fun h => absurd h hc⟩
    rw [Bool.not_eq_true] at hc
    rw [hc]
    simp [Alphabet.isSeparator, hdot, hslash]

lemma stripSegments_ofChars (path : List String) (s : List Char) :
    stripSegments path (ofChars s) = (stripSegments path s).map ofChars := by
  induction path generalizing s with
  | nil => rfl
  | cons word path ih =>
    cases s with
    | nil => rfl
    | cons c s =>
      obtain ⟨b, rest, hencode, hsep, hrest⟩ := exists_cons_utf8EncodeChar c
      rw [Bytes.ofChars_cons, hencode, List.cons_append, stripSegments, stripSegments, hsep]
      split
      next hc =>
        have hspell : (Alphabet.spell word : Bytes) = ofChars (Alphabet.spell word) := Bytes.utf8_eq_ofChars word
        rw [hrest hc, List.nil_append, hspell, Text.strip?_ofChars, Option.bind_map, Option.map_bind]
        exact congrArg _ (funext ih)
      next => rfl

lemma goesOnWith_ofChars (child : String) (s : List Char) : goesOnWith child (ofChars s) = goesOnWith child s := by
  rw [Profile.goesOnWith_eq, Profile.goesOnWith_eq, stripSegments_ofChars, Option.isSome_map]

lemma after?_ofChars (r : Rule) (s : List Char) : r.after? (ofChars s) = (r.after? s).map ofChars := by
  rw [after?, after?, stripSegments_ofChars]
  cases stripSegments r.path s with
  | none => rfl
  | some rest =>
    simp only [Option.map_some, Option.bind_eq_bind, Option.bind_some, goesOnWith_ofChars, stripSegments_ofChars]
    split
    next => rfl
    next =>
      split
      next => rfl
      next => rw [List.map_findSome?]; rfl

end Rule

namespace Profile

section After

variable {α : Type} [BEq α] [Alphabet α]

def after? (p : Profile) (s : List α) : Option (List α) :=
  (Text.strip? (Alphabet.spell p.source) s).bind fun t => p.rules.findSome? (·.after? t)

variable [LawfulBEq α] {p : Profile} {s rest : List α} {i e : ℕ}

lemma suffix_of_after? (h : p.after? s = some rest) : rest <:+ s := by
  obtain ⟨t, ht, hrules⟩ := Option.bind_eq_some_iff.1 h
  obtain rfl := Text.strip?_eq_some_iff.1 ht
  obtain ⟨r, -, hr⟩ := List.exists_of_findSome?_eq_some hrules
  exact (Rule.suffix_of_after? hr).trans (List.suffix_append _ _)

lemma matchLength?_eq_map_after? (p : Profile) (s : List α) :
    matchLength? p.rules (Alphabet.spell p.source) s = (p.after? s).map fun rest => s.length - rest.length := by
  rw [matchLength?, after?]
  cases htoken : Text.strip? (Alphabet.spell p.source) s with
  | none => rfl
  | some t =>
    obtain rfl := Text.strip?_eq_some_iff.1 htoken
    have hrules : p.rules.findSome? (·.matchLength? t) =
        (p.rules.findSome? (·.after? t)).map fun rest => t.length - rest.length := by
      rw [List.map_findSome?, funext fun r => Rule.matchLength?_eq_map_after? r t]
      rfl
    simp only [Option.bind_eq_bind, Option.bind_some, hrules]
    cases hrest : p.rules.findSome? (·.after? t) with
    | none => rfl
    | some rest =>
      obtain ⟨r, -, hr⟩ := List.exists_of_findSome?_eq_some hrest
      have hle := (Rule.suffix_of_after? hr).length_le
      have hlength : (Alphabet.spell p.source : List α).length + (t.length - rest.length) =
          (Alphabet.spell p.source ++ t).length - rest.length := by
        rw [List.length_append]
        omega
      exact congrArg some hlength

lemma spans_iff_after? : p.Spans s i e ↔
    (Alphabet.spell p.source : List α) ≠ [] ∧ e ≤ s.length ∧ p.after? (s.drop i) = some (s.drop e) := by
  have hspans : p.Spans s i e ↔ (Alphabet.spell p.source : List α) ≠ [] ∧
      ∃ n ∈ (p.after? (s.drop i)).map fun rest => (s.drop i).length - rest.length, e = i + n := by
    rw [spans_iff, matchLength?_eq_map_after?]
  constructor
  · intro h
    obtain ⟨hs, n, hn, rfl⟩ := hspans.1 h
    obtain ⟨rest, hrest, rfl⟩ := Option.map_eq_some_iff.1 hn
    refine ⟨hs, h.bounds.2, ?_⟩
    rw [hrest, ← List.drop_drop, ← List.suffix_iff_eq_drop.1 (suffix_of_after? hrest)]
  · rintro ⟨hs, he, hrest⟩
    have hi : i < s.length := by
      by_contra hlong
      rw [List.drop_eq_nil_of_le (Nat.le_of_not_lt hlong)] at hrest
      have hnil := matchLength?_eq_map_after? p ([] : List α)
      rw [matchLength?_nil hs, hrest] at hnil
      cases hnil
    have hle := (suffix_of_after? hrest).length_le
    rw [List.length_drop, List.length_drop] at hle
    refine hspans.2 ⟨hs, _, Option.mem_map_of_mem _ hrest, ?_⟩
    rw [List.length_drop, List.length_drop]
    omega

end After

lemma after?_ofChars (p : Profile) (s : List Char) : p.after? (ofChars s) = (p.after? s).map ofChars := by
  have hspell : (Alphabet.spell p.source : Bytes) = ofChars (Alphabet.spell p.source) := Bytes.utf8_eq_ofChars p.source
  rw [after?, after?, hspell, Text.strip?_ofChars, Option.bind_map, Option.map_bind]
  refine congrArg _ (funext fun t => ?_)
  simp only [Function.comp_apply, Rule.after?_ofChars, List.map_findSome?]
  rfl

def place (s : List Char) (i : ℕ) : ℕ := (ofChars (s.take i)).length

section Places

variable {p : Profile} {s : List Char} {i j k e : ℕ}

lemma ofChars_take_append_drop (s : List Char) (i : ℕ) : ofChars (s.take i) ++ ofChars (s.drop i) = ofChars s := by
  rw [← Bytes.ofChars_append, List.take_append_drop]

lemma drop_place (s : List Char) (i : ℕ) : (ofChars s).drop (place s i) = ofChars (s.drop i) := by
  rw [place, ← ofChars_take_append_drop s i, List.drop_left]

lemma place_le_length (s : List Char) (i : ℕ) : place s i ≤ (ofChars s).length := by
  rw [place, ← ofChars_take_append_drop s i, List.length_append]
  exact Nat.le_add_right _ _

lemma place_length_append (a b : List Char) : place (a ++ b) a.length = (ofChars a).length := by rw [place, List.take_left]

lemma place_add (s : List Char) (i n : ℕ) : place s (i + n) = place s i + (ofChars ((s.drop i).take n)).length := by
  rw [place, place, List.take_add, Bytes.ofChars_append, List.length_append]

lemma place_mono (s : List Char) (h : i ≤ j) : place s i ≤ place s j := by
  obtain ⟨n, rfl⟩ := Nat.exists_eq_add_of_le h
  rw [place_add]
  exact Nat.le_add_right _ _

lemma place_lt_place (h : i < j) (hj : j ≤ s.length) : place s i < place s j := by
  obtain ⟨n, rfl⟩ := Nat.exists_eq_add_of_lt h
  have hi : i < s.length := by omega
  rw [Nat.add_assoc, place_add, List.drop_eq_getElem_cons hi, List.take_succ_cons, Text.length_ofChars_cons]
  have hc := s[i].utf8Size_pos
  omega

lemma spell_eq_ofChars (word : String) : (Alphabet.spell word : Bytes) = ofChars (Alphabet.spell word) :=
  Bytes.utf8_eq_ofChars word

lemma spell_eq_nil_iff (word : String) : (Alphabet.spell word : Bytes) = [] ↔ (Alphabet.spell word : List Char) = [] := by
  rw [spell_eq_ofChars]
  cases (Alphabet.spell word : List Char) with
  | nil => simp
  | cons c s =>
    have hc := c.utf8Size_pos
    rw [← List.length_eq_zero_iff, Text.length_ofChars_cons]
    simp
    omega

lemma spans_ofChars : p.Spans (ofChars s) k e ↔ ∃ i j, p.Spans s i j ∧ k = place s i ∧ e = place s j := by
  simp only [spans_iff_after?, ne_eq, spell_eq_nil_iff]
  constructor
  · rintro ⟨hs, he, h⟩
    obtain ⟨t, ht, -⟩ := Option.bind_eq_some_iff.1 h
    have hstands : ofChars (Alphabet.spell p.source) <+: (ofChars s).drop k := by
      rw [Text.strip?_eq_some_iff.1 ht, spell_eq_ofChars]
      exact List.prefix_append _ _
    obtain ⟨u, v, hu, rfl⟩ := Bytes.exists_of_ofChars_prefix_drop hs hstands
    have hk : (ofChars u).length = place s u.length := by rw [hu, place_length_append]
    rw [hk, drop_place, after?_ofChars] at h
    obtain ⟨rest, hrest, hdrop⟩ := Option.map_eq_some_iff.1 h
    obtain ⟨w, hw⟩ := (suffix_of_after? hrest).trans (List.drop_suffix _ _)
    refine ⟨u.length, w.length, ⟨hs, ?_, ?_⟩, hk, ?_⟩
    · simp [← hw]
    · rw [hrest, ← hw, List.drop_left]
    · have hlength := congrArg List.length hdrop
      rw [← hw] at he hlength ⊢
      rw [List.length_drop, Bytes.ofChars_append, List.length_append] at hlength
      rw [Bytes.ofChars_append, List.length_append] at he
      rw [place_length_append]
      omega
  · rintro ⟨i, j, ⟨hs, -, h⟩, rfl, rfl⟩
    refine ⟨hs, place_le_length s j, ?_⟩
    rw [drop_place, drop_place, after?_ofChars, h, Option.map_some]

lemma occurs_iff_exists_spans {α : Type} [BEq α] [LawfulBEq α] [Alphabet α] {s : List α} :
    p.Occurs s i ↔ ∃ e, p.Spans s i e := by
  simp only [occurs_iff, spans_iff, Option.isSome_iff_exists]
  constructor
  · rintro ⟨hs, n, hn⟩
    exact ⟨i + n, hs, n, hn, rfl⟩
  · rintro ⟨e, hs, n, hn, rfl⟩
    exact ⟨hs, n, hn⟩

lemma occurs_ofChars : p.Occurs (ofChars s) k ↔ ∃ i, p.Occurs s i ∧ k = place s i := by
  simp only [occurs_iff_exists_spans, spans_ofChars]
  constructor
  · rintro ⟨_, i, j, h, rfl, rfl⟩
    exact ⟨i, ⟨j, h⟩, rfl⟩
  · rintro ⟨i, ⟨j, h⟩, rfl⟩
    exact ⟨_, i, j, h, rfl, rfl⟩

lemma place_inj (hi : i ≤ s.length) (hj : j ≤ s.length) (h : place s i = place s j) : i = j := by
  rcases Nat.lt_trichotomy i j with hij | rfl | hij
  · exact absurd h (place_lt_place hij hj).ne
  · rfl
  · exact absurd h.symm (place_lt_place hij hi).ne

lemma Occurs.lt_length (h : p.Occurs s i) : i < s.length := by
  obtain ⟨e, he⟩ := occurs_iff_exists_spans.1 h
  exact he.bounds.1.trans_le he.bounds.2

lemma positions_ofChars (p : Profile) (s : List Char) : p.positions (ofChars s) = (p.positions s).map (place s) := by
  have h := leftmost_positions p s
  -- What a scan finds is determined by where tokens stand and how far their matches go, which is alike in both.
  refine (leftmost_positions p (ofChars s)).eq ⟨?_, ?_, ?_, ?_⟩
  · rw [List.pairwise_map]
    exact h.increasing.imp_of_mem fun hi hj hij => place_lt_place hij (h.occurs _ hj).lt_length.le
  · intro k hk
    obtain ⟨i, hi, rfl⟩ := List.mem_map.1 hk
    exact occurs_ofChars.2 ⟨i, h.occurs i hi, rfl⟩
  · rw [List.pairwise_map]
    refine h.apart.imp_of_mem fun {i j} hi _ hij e he => ?_
    obtain ⟨i', j', hspans, hplace, rfl⟩ := spans_ofChars.1 he
    have hi' : i = i' := place_inj (h.occurs i hi).lt_length.le (hspans.bounds.1.le.trans hspans.bounds.2) hplace
    exact place_mono s (hij j' (hi' ▸ hspans))
  · intro k hk hno
    obtain ⟨i, hi, rfl⟩ := occurs_ofChars.1 hk
    have hfound : i ∉ p.positions s := fun hm => hno (List.mem_map_of_mem hm)
    obtain ⟨j, hj, hji, e, he, hie⟩ := h.covered i hi hfound
    exact ⟨place s j, List.mem_map_of_mem hj, place_lt_place hji hi.lt_length.le, place s e,
      spans_ofChars.2 ⟨j, e, he, rfl, rfl⟩, place_lt_place hie he.bounds.2⟩

lemma take_place (h : i ≤ j) : (ofChars (s.drop i)).take (place s j - place s i) = ofChars ((s.drop i).take (j - i)) := by
  obtain ⟨n, rfl⟩ := Nat.exists_eq_add_of_le h
  rw [place_add, Nat.add_sub_cancel_left, Nat.add_sub_cancel_left, ← ofChars_take_append_drop (s.drop i) n, List.take_left]

lemma place_of_prefix {token : List Char} (h : token <+: s.drop i) :
    place s (i + token.length) = place s i + (ofChars token).length := by
  rw [place_add, ← List.prefix_iff_eq_take.1 h]

lemma drop_drop_of_le {α : Type} {s : List α} {start pos n : ℕ} (h : start ≤ pos) :
    (s.drop start).drop (pos - start + n) = s.drop (pos + n) := by
  rw [List.drop_drop, ← Nat.add_assoc, Nat.add_sub_cancel' h]

lemma Standing.of_cons_drop {α : Type} {token s : List α} {start pos : ℕ} {found : List ℕ}
    (h : Standing token start (pos :: found) (s.drop start)) :
    start ≤ pos ∧ token <+: s.drop pos ∧ Standing token (pos + token.length) found (s.drop (pos + token.length)) := by
  have hpos := h.le pos List.mem_cons_self
  have hstands := h.stands pos List.mem_cons_self
  rw [List.drop_drop, Nat.add_sub_cancel' hpos] at hstands
  exact ⟨hpos, hstands, drop_drop_of_le hpos ▸ h.tail⟩

lemma substitute_ofChars {token new : List Char} {start : ℕ} {found : List ℕ} (h : Standing token start found (s.drop start)) :
    substitute (ofChars token).length (ofChars new) (place s start) (found.map (place s)) (ofChars (s.drop start)) =
      ofChars (substitute token.length new start found (s.drop start)) := by
  induction found generalizing start with
  | nil => rfl
  | cons pos found ih =>
    obtain ⟨hpos, hstands, htail⟩ := h.of_cons_drop
    have hnext := place_of_prefix hstands
    have hdrop : (ofChars (s.drop start)).drop (place s pos - place s start + (ofChars token).length) =
        ofChars (s.drop (pos + token.length)) := by
      rw [← drop_place, drop_drop_of_le (place_mono s hpos), ← hnext, drop_place]
    rw [List.map_cons, substitute, substitute, take_place hpos, hdrop, drop_drop_of_le hpos, ← hnext, ih htail,
      Bytes.ofChars_append, Bytes.ofChars_append]

lemma migrateSymbols_ofChars (p : Profile) (s : List Char) :
    p.migrateSymbols (ofChars s) = ⟨ofChars (p.migrateSymbols s).value, (p.migrateSymbols s).changed⟩ := by
  rw [migrateSymbols, migrateSymbols, positions_ofChars, List.isEmpty_map]
  split
  next => rfl
  next h =>
    have hs : (Alphabet.spell p.source : List Char) ≠ [] := by
      intro hs
      rw [positions_of_source_eq_nil hs] at h
      exact h rfl
    have hstanding : Standing (Alphabet.spell p.source) 0 (p.positions s) (s.drop 0) := standing_positions s hs
    rw [spell_eq_ofChars, spell_eq_ofChars]
    exact congrArg (Migrated.mk · true) (substitute_ofChars hstanding)

end Places

end Profile

end NamespaceMigration
