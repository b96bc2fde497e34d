import NamespaceMigration.Conversion.ClassFile
import NamespaceMigration.Proofs.Profile.Migration

/-! Texts as rows of fragments between delimiters. -/

namespace NamespaceMigration.Profile

def isDelimiter (c : Char) : Bool := c == ';' || c == '<'

def Whole (s : List Char) : Prop := ∀ c ∈ s, isDelimiter c = false

structure Fragmentwise (f : List Char → List Char) : Prop where
  whole : ∀ s, Whole s → Whole (f s)
  append_cons : ∀ a d b, isDelimiter d = true → f (a ++ d :: b) = f a ++ d :: f b

variable {s : List Char} {f g : List Char → List Char}

lemma fragments_of_whole (h : Whole s) : fragments s = [s] := List.splitOnP_eq_singleton h

lemma fragments_append_cons {d : Char} (hd : isDelimiter d = true) (a b : List Char) :
    fragments (a ++ d :: b) = fragments a ++ fragments b := List.splitOnP_append_cons a b hd

lemma fragments_induction {motive : List Char → Prop} (one : ∀ s, Whole s → motive s)
    (more : ∀ a d b, Whole a → isDelimiter d = true → motive b → motive (a ++ d :: b)) (s : List Char) : motive s := by
  suffices h : ∀ a s, Whole a → motive (a ++ s) from h [] s (by simp [Whole])
  intro a s
  induction s generalizing a with
  | nil =>
    intro ha
    exact one _ (by simpa using ha)
  | cons c s ih =>
    intro ha
    cases hc : isDelimiter c with
    | true => exact more a c s ha hc (ih [] (by simp [Whole]))
    | false =>
      rw [List.append_cons]
      refine ih (a ++ [c]) fun e he => ?_
      rcases List.mem_append.1 he with he | he
      · exact ha e he
      · rwa [List.mem_singleton.1 he]

lemma whole_of_mem_fragments : ∀ fragment ∈ fragments s, Whole fragment := by
  induction s using fragments_induction with
  | one s hs => simpa [fragments_of_whole hs] using hs
  | more a d b ha hd ih =>
    intro fragment hm
    rw [fragments_append_cons hd, fragments_of_whole ha, List.singleton_append, List.mem_cons] at hm
    rcases hm with rfl | hm
    · exact ha
    · exact ih fragment hm

namespace Fragmentwise

lemma fragments (hf : Fragmentwise f) (s : List Char) : Profile.fragments (f s) = (Profile.fragments s).map f := by
  induction s using fragments_induction with
  | one s hs => rw [fragments_of_whole hs, fragments_of_whole (hf.whole s hs), List.map_singleton]
  | more a d b ha hd ih =>
    rw [hf.append_cons a d b hd, fragments_append_cons hd, fragments_append_cons hd, ih, fragments_of_whole ha,
      fragments_of_whole (hf.whole a ha), List.map_append, List.map_singleton]

lemma eq_self (hf : Fragmentwise f) (h : ∀ fragment ∈ Profile.fragments s, f fragment = fragment) : f s = s := by
  induction s using fragments_induction with
  | one s hs => exact h s (by simp [fragments_of_whole hs])
  | more a d b ha hd ih =>
    rw [fragments_append_cons hd, fragments_of_whole ha, List.singleton_append] at h
    rw [hf.append_cons a d b hd, h a (by simp), ih fun fragment hm => h fragment (by simp [hm])]

lemma id : Fragmentwise id := ⟨fun _ hs => hs, fun _ _ _ _ => rfl⟩

lemma comp (hf : Fragmentwise f) (hg : Fragmentwise g) : Fragmentwise (f ∘ g) where
  whole s hs := hf.whole _ (hg.whole s hs)
  append_cons a d b hd := by
    rw [Function.comp_apply, hg.append_cons a d b hd, hf.append_cons _ d _ hd]
    rfl

lemma foldl {β : Type} {l : List β} {step : List Char → β → List Char}
    (h : ∀ x ∈ l, Fragmentwise (step · x)) : Fragmentwise (l.foldl step ·) := by
  induction l with
  | nil => exact id
  | cons x l ih => exact (ih fun y hy => h y (by simp [hy])).comp (h x (by simp))

end Fragmentwise

lemma fragmentwise_replaceAll {word new : List Char} (hne : word ≠ []) (hw : Whole word) (hn : Whole new) :
    Fragmentwise (Text.replaceAll word new) where
  whole _ hs c hm := (Text.mem_replaceAll hm).elim (hn c) (hs c)
  append_cons a d b hd := Text.replaceAll_append_cons hne (fun hm => by simp [hw d hm] at hd) a b

def moved (p : Profile) (s : List Char) : List Char := (p.migrateSymbols s).value

section BuiltIn

variable (b : BuiltIn)

lemma moved_eq_pass (s : List Char) : b.profile.moved s = b.profile.pass 0 0 s :=
  value_migrateSymbols b.profile (source_builtIn_ne_nil b) (isTrivial_builtIn b) s

lemma avoids_delimiter {d : Char} (hd : isDelimiter d = true) : b.profile.Avoids d := by
  have hd' : d = ';' ∨ d = '<' := by simpa [isDelimiter] using hd
  rcases hd' with rfl | rfl
  · exact avoids_builtIn b (by decide) (by decide)
  · exact avoids_builtIn b (by decide) (by decide)

lemma fragmentwise_moved : Fragmentwise b.profile.moved where
  whole s hs c hm := by
    rw [moved_eq_pass] at hm
    by_contra hd
    have hd : isDelimiter c = true := by simpa using hd
    refine (avoids_delimiter b hd).not_mem_pass (fun hs' => ?_) hm
    simp [hs c hs'] at hd
  append_cons a d t hd := by
    simp only [moved_eq_pass]
    exact (avoids_delimiter b hd).pass_append_cons (source_builtIn_ne_nil b) a

lemma whole_token_append (sep : Char) (hsep : isDelimiter sep = false) :
    ∀ token ∈ [b.profile.source, b.profile.target], Whole (token.toList ++ [sep]) := by
  intro token ht c hm
  rcases List.mem_append.1 hm with hm | hm
  · by_contra hd
    have hd : isDelimiter c = true := by simpa using hd
    have ha := avoids_delimiter b hd
    rcases List.mem_cons.1 ht with rfl | ht
    · exact ha.source hm
    · exact ha.target (List.mem_singleton.1 ht ▸ hm)
  · rwa [List.mem_singleton.1 hm]

lemma whole_revert (dotted : Bool) (hs : Whole s) : Whole (b.profile.revert dotted s) := by
  have hsep : isDelimiter (if dotted then '.' else '/') = false := by cases dotted <;> decide
  exact (fragmentwise_replaceAll (by simp) (whole_token_append b _ hsep _ (by simp))
    (whole_token_append b _ hsep _ (by simp))).whole s hs

lemma fragment_ne_nil {p : Profile} {name : List Char × Bool} (h : p.namedClass? s = some name) : s ≠ [] := by
  rintro rfl
  simp [namedClass?, Text.findTail?] at h

lemma fragmentwise_settle (exists? : Resolver) {fragment : List Char} (hf : Whole fragment) :
    Fragmentwise (b.profile.settle exists? · fragment) := by
  unfold settle
  split
  next => exact Fragmentwise.id
  next name dotted hn =>
    split
    next => exact Fragmentwise.id
    next => exact fragmentwise_replaceAll (fragment_ne_nil hn) hf (whole_revert b dotted hf)

lemma isSome_namedClass?_of_moved_ne (h : b.profile.moved s ≠ s) : (b.profile.namedClass? (b.profile.moved s)).isSome := by
  rw [moved_eq_pass] at h ⊢
  obtain ⟨c, hc, hi⟩ := exists_separator_of_pass_ne (source_builtIn_ne_nil b) (fun r hr => (alphanum_builtIn b r hr).1) h
  have hc' : c = '.' ∨ c = '/' := by simpa [Alphabet.isSeparator] using hc
  unfold namedClass?
  split
  next => rfl
  next hn =>
    rcases hc' with rfl | rfl
    · rw [Option.isSome_map]
      exact Text.findTail?_isSome_iff.2 hi
    · have hs := Text.findTail?_isSome_iff.2 hi
      exact absurd hn (Option.isSome_iff_ne_none.1 hs)

end BuiltIn

end NamespaceMigration.Profile
