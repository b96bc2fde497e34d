import NamespaceMigration.Proofs.Profile.Scanning
import NamespaceMigration.Proofs.Profile.Words

/-! Rules as conditions on the segments of names. -/

namespace NamespaceMigration

open Text (Clear)

section Segments

def isNamePart (c : Char) : Bool := c.isAlphanum || c == '_' || c == '$'

def segmentsAfter (s : List Char) : List (List Char) :=
  match s with
  | [] => []
  | c :: s => if Alphabet.isSeparator c then s.takeWhile isNamePart :: segmentsAfter (s.dropWhile isNamePart) else []
termination_by s.length
decreasing_by
  have hle := (s.dropWhile_suffix isNamePart).length_le
  rw [List.length_cons]
  omega

def StartsIn : List String → List (List Char) → Prop
  | [], _ => True
  | _ :: _, [] => False
  | [word], segment :: _ => word.toList <+: segment
  | word :: next :: path, segment :: segments => segment = word.toList ∧ StartsIn (next :: path) segments

def StandsIn (path : List String) (segments : List (List Char)) : Prop := path.map String.toList <+: segments

instance (path : List String) (segments : List (List Char)) : Decidable (StandsIn path segments) :=
  inferInstanceAs (Decidable (_ <+: _))

def Rule.paths (r : Rule) : List (List String) :=
  r.path :: r.exceptions.map (r.path ++ [·]) ++ r.leaves.map (r.path ++ ·)

/-- Whether a rule moves the names at a place, given which paths stand there. -/
def Rule.Selects (r : Rule) (stands : List String → Prop) : Prop :=
  stands r.path ∧ (∀ child ∈ r.exceptions, ¬ stands (r.path ++ [child])) ∧
    (r.leaves = [] ∨ ∃ leaf ∈ r.leaves, stands (r.path ++ leaf))

instance (r : Rule) (stands : List String → Prop) [DecidablePred stands] : Decidable (r.Selects stands) :=
  inferInstanceAs (Decidable (_ ∧ _ ∧ _))

variable {path path' : List String} {s rest : List Char} {stands : List String → Prop} {r : Rule} {c : Char}

lemma isSeparator_of_isNamePart (hc : isNamePart c = true) : Alphabet.isSeparator c = false := by
  have hdot : c ≠ '.' := by
    rintro rfl
    cases hc
  have hslash : c ≠ '/' := by
    rintro rfl
    cases hc
  simp [Alphabet.isSeparator, hdot, hslash]

lemma takeWhile_append_of_boundary {w : List Char} (hw : ∀ c ∈ w, isNamePart c = true)
    (hrest : ∀ c ∈ rest.head?, isNamePart c = false) : (w ++ rest).takeWhile isNamePart = w ∧
      (w ++ rest).dropWhile isNamePart = rest := by
  rw [List.takeWhile_append_of_pos hw, List.dropWhile_append_of_pos hw]
  cases rest with
  | nil => simp
  | cons c rest => simp [hrest c rfl]

lemma prefix_takeWhile_iff {w : List Char} (hw : ∀ c ∈ w, isNamePart c = true) : w <+: s.takeWhile isNamePart ↔ w <+: s := by
  constructor
  · exact fun h => h.trans (s.takeWhile_prefix isNamePart)
  · rintro ⟨rest, rfl⟩
    rw [List.takeWhile_append_of_pos hw]
    exact List.prefix_append _ _

lemma boundary_of_stripSegments {word : String} (h : (Rule.stripSegments (word :: path) s).isSome) :
    ∀ c ∈ s.head?, isNamePart c = false := by
  cases s with
  | nil => simp
  | cons d s =>
    rintro c hc
    obtain rfl := Option.some.inj hc
    by_contra hpart
    rw [Rule.stripSegments, isSeparator_of_isNamePart (by simpa using hpart)] at h
    cases h

lemma stripSegments_isSome_iff (hp : ∀ word ∈ path, ∀ c ∈ word.toList, isNamePart c = true) :
    (Rule.stripSegments path s).isSome ↔ StartsIn path (segmentsAfter s) := by
  induction path generalizing s with
  | nil => simp [Rule.stripSegments, StartsIn]
  | cons word path ih =>
    have hword := hp word (by simp)
    cases s with
    | nil => cases path <;> simp [Rule.stripSegments, segmentsAfter, StartsIn]
    | cons c s =>
      rw [Rule.stripSegments, segmentsAfter]
      split
      next =>
        cases path with
        | nil =>
          rw [StartsIn, prefix_takeWhile_iff hword, ← Text.strip?_isSome_iff]
          cases Text.strip? word.toList s <;> rfl
        | cons next path =>
          have ih := @ih (s.dropWhile isNamePart) fun w hw => hp w (by simp [hw])
          rw [StartsIn, ← ih]
          constructor
          · intro h
            obtain ⟨rest, hrest⟩ := Option.isSome_iff_exists.1 h
            obtain ⟨t, ht, htail⟩ := Option.bind_eq_some_iff.1 hrest
            obtain rfl : s = word.toList ++ t := Text.strip?_eq_some_iff.1 ht
            have hsome : (Rule.stripSegments (next :: path) t).isSome := Option.isSome_iff_exists.2 ⟨rest, htail⟩
            obtain ⟨htake, hdrop⟩ := takeWhile_append_of_boundary hword (boundary_of_stripSegments hsome)
            exact ⟨htake, hdrop.symm ▸ hsome⟩
          · rintro ⟨htake, hsome⟩
            have hs : Text.strip? (Alphabet.spell word) s = some (s.dropWhile isNamePart) := by
              refine Text.strip?_eq_some_iff.2 ?_
              nth_rewrite 1 [← List.takeWhile_append_dropWhile (l := s), htake]
              rfl
            rwa [hs]
      next => cases path <;> simp [StartsIn]

lemma StandsIn.startsIn {segments : List (List Char)} (h : StandsIn path segments) : StartsIn path segments := by
  induction path generalizing segments with
  | nil => trivial
  | cons word path ih =>
    obtain ⟨rest, rfl⟩ := h
    cases path with
    | nil => exact List.prefix_rfl
    | cons next path => exact ⟨rfl, ih (List.prefix_append _ rest)⟩

end Segments

namespace Rule

variable {r : Rule} {stands stands' : List String → Prop}

lemma selects_congr (h : ∀ path ∈ r.paths, stands path ↔ stands' path) : r.Selects stands ↔ r.Selects stands' := by
  have hpath := h r.path (by simp [paths])
  have hchild : ∀ child ∈ r.exceptions, stands (r.path ++ [child]) ↔ stands' (r.path ++ [child]) :=
    fun child hc => h _ (by simp [paths, hc])
  have hleaf : ∀ leaf ∈ r.leaves, stands (r.path ++ leaf) ↔ stands' (r.path ++ leaf) :=
    fun leaf hl => h _ (by simp [paths, hl])
  refine and_congr hpath (and_congr ?_ (or_congr_right ?_))
  · exact forall₂_congr fun child hc => not_congr (hchild child hc)
  · exact exists_congr fun leaf => and_congr_right fun hl => hleaf leaf hl

lemma mem_of_mem_paths {path : List String} (h : path ∈ r.paths) :
    ∀ word ∈ path, word ∈ r.path ++ r.leaves.flatten ++ r.exceptions := by
  simp only [paths, List.mem_append, List.mem_cons, List.mem_map] at h
  rcases h with (rfl | ⟨child, hc, rfl⟩) | ⟨leaf, hl, rfl⟩
  · intro word hw
    simp [hw]
  · intro word hw
    rcases List.mem_append.1 hw with hw | hw
    · simp [hw]
    · simp [List.mem_singleton.1 hw, hc]
  · intro word hw
    rcases List.mem_append.1 hw with hw | hw
    · simp [hw]
    · simp [List.mem_flatten.2 ⟨leaf, hl, hw⟩]

variable {α : Type} [BEq α] [Alphabet α]

lemma stripSegments_append (a b : List String) (s : List α) :
    stripSegments (a ++ b) s = (stripSegments a s).bind (stripSegments b) := by
  induction a generalizing s with
  | nil => rfl
  | cons word a ih =>
    cases s with
    | nil => rfl
    | cons c s =>
      rw [List.cons_append, stripSegments, stripSegments]
      split
      · rw [Option.bind_assoc]
        exact congrArg _ (funext ih)
      · rfl

lemma matchLength?_isSome_iff (r : Rule) (s : List α) :
    (r.matchLength? s).isSome ↔ r.Selects fun path => (stripSegments path s).isSome := by
  rw [matchLength?, Selects]
  simp only [stripSegments_append]
  cases stripSegments r.path s with
  | none => simp
  | some rest =>
    simp only [Option.bind_eq_bind, Option.bind_some, Option.isSome_some, true_and, ← Profile.goesOnWith_eq]
    split
    next h =>
      obtain ⟨child, hchild, hgoes⟩ := List.any_eq_true.1 h
      exact iff_of_false (by simp) fun hno => hno.1 child hchild hgoes
    next h =>
      have hno : ∀ child ∈ r.exceptions, ¬ goesOnWith child rest = true := fun child hc hgoes =>
        h (List.any_eq_true.2 ⟨child, hc, hgoes⟩)
      split
      next hleaves => exact iff_of_true rfl ⟨hno, .inl (List.isEmpty_iff.1 hleaves)⟩
      next hleaves =>
        rw [List.findSome?_isSome_iff]
        simp only [Option.isSome_map, List.isEmpty_iff] at hleaves ⊢
        exact (and_iff_right hno).trans (or_iff_right hleaves) |>.symm

end Rule

namespace Profile

section Occurrences

variable {α : Type} [BEq α] [LawfulBEq α] [Alphabet α] {p : Profile} {s : List α} {i : ℕ}

lemma Distinct.mem_positions_iff_occurs (h : p.Distinct α) : i ∈ p.positions s ↔ p.Occurs s i := by
  refine ⟨(leftmost_positions p s).occurs i, fun hi => ?_⟩
  by_contra hno
  have hcovered := (leftmost_positions p s).covered i hi hno
  obtain ⟨-, after, hafter, -⟩ := hi
  obtain ⟨j, -, hji, e, ⟨-, rest, earlier, r, later, n, hrest, hrules, -, hn, rfl⟩, hie⟩ := hcovered
  have hr : r ∈ p.rules := by simp [hrules]
  obtain ⟨w, rest, rfl, rfl, hw⟩ := (h.woven hr p.source_mem_tokens).exists_of_matchLength? hn
  have htail := h.tails _ p.source_mem_tokens _ p.source_mem_tokens
  obtain ⟨c, tail, hsource⟩ := List.exists_cons_of_ne_nil h.source_ne_nil
  rw [hsource] at hrest hie
  rw [hsource, List.tail_cons, ← hsource] at htail
  -- the later token begins in the tail of the earlier one or in the namespace after it
  obtain ⟨k, rfl⟩ : ∃ k, i = j + (k + 1) := ⟨i - j - 1, by omega⟩
  have hlength : k < (tail ++ w).length := by
    simp only [List.length_cons, List.length_append] at hie ⊢
    omega
  have hdrop : s.drop (j + (k + 1)) = (tail ++ w).drop k ++ rest := by
    rw [← List.drop_drop, hrest, List.cons_append, List.drop_succ_cons, ← List.append_assoc,
      List.drop_append_of_le_length hlength.le]
  refine (htail.append hw _ ((List.mem_tails _ _).2 (List.drop_suffix _ _)) ?_).append_ne (hdrop.symm.trans hafter)
  simpa using hlength

end Occurrences

/-- The source token is found just where some rule selects the segments after it, the last word of a path being at least
the head of its segment. Where no path ends inside a segment, words are whole segments, children excepted and leaves alike. -/
theorem mem_positions_iff_selects (b : BuiltIn) (s : List Char) (i : ℕ) :
    (i ∈ b.profile.positions s ↔ ∃ after, s.drop i = b.profile.source.toList ++ after ∧
      ∃ r ∈ b.profile.rules, r.Selects (StartsIn · (segmentsAfter after))) ∧
    ((∀ after, s.drop i = b.profile.source.toList ++ after → ∀ r ∈ b.profile.rules, ∀ path ∈ r.paths,
        StartsIn path (segmentsAfter after) → StandsIn path (segmentsAfter after)) →
      (i ∈ b.profile.positions s ↔ ∃ after, s.drop i = b.profile.source.toList ++ after ∧
        ∃ r ∈ b.profile.rules, r.Selects (StandsIn · (segmentsAfter after)))) := by
  have hselects : ∀ r ∈ b.profile.rules, ∀ after : List Char,
      (r.matchLength? after).isSome ↔ r.Selects (StartsIn · (segmentsAfter after)) := by
    intro r hr after
    rw [r.matchLength?_isSome_iff]
    refine Rule.selects_congr fun path hpath => stripSegments_isSome_iff fun word hword c hc => ?_
    simp [isNamePart, (alphanumeric_builtIn b).of_mem hr word (Rule.mem_of_mem_paths hpath word hword) c hc]
  have hheads : i ∈ b.profile.positions s ↔ ∃ after, s.drop i = b.profile.source.toList ++ after ∧
      ∃ r ∈ b.profile.rules, r.Selects (StartsIn · (segmentsAfter after)) := by
    rw [(distinct_builtIn_char b).mem_positions_iff_occurs, Occurs, and_iff_right (distinct_builtIn_char b).source_ne_nil]
    exact exists_congr fun after => and_congr_right fun _ => exists_congr fun r => and_congr_right fun hr => hselects r hr after
  refine ⟨hheads, fun hwhole => hheads.trans ?_⟩
  refine exists_congr fun after => and_congr_right fun hafter => exists_congr fun r => and_congr_right fun hr => ?_
  exact Rule.selects_congr fun path hpath => ⟨hwhole after hafter r hr path hpath, StandsIn.startsIn⟩

/-- A name with a leaf as the head of a segment is replaced, and one with a child excepted as the head of a segment is not. -/
theorem positions_of_longer_segments :
    BuiltIn.tomcat.profile.positions "javax.annotation.ResourceBundle".toList = [0] ∧
    (∀ r ∈ BuiltIn.tomcat.profile.rules, ¬ r.Selects (StandsIn · ["annotation".toList, "ResourceBundle".toList])) ∧
    BuiltIn.tomcat.profile.positions "javax.transaction.xarm.T".toList = [] ∧
    ∃ r ∈ BuiltIn.tomcat.profile.rules, r.Selects (StandsIn · ["transaction".toList, "xarm".toList, "T".toList]) := by
  decide +kernel

end Profile

end NamespaceMigration
