import NamespaceMigration.Proofs.Profile.Tokens

/-! Migrations one after the other. -/

namespace NamespaceMigration.Profile

variable {α : Type} [BEq α] [LawfulBEq α] [Alphabet α] {p q : Profile} {s t : List α}

section Flag

lemma not_free_iff : ¬ p.Free s ↔ ∃ before after, s = before ++ (Alphabet.spell p.source ++ after) ∧ Matches p.rules after := by
  constructor
  · intro hf
    simp only [Free, not_forall] at hf
    obtain ⟨t, ⟨before, rfl⟩, hn⟩ := hf
    obtain ⟨after, rfl, hm⟩ := matchLength?_isSome_iff.1 (Option.isSome_iff_ne_none.2 hn)
    exact ⟨before, after, rfl, hm⟩
  · rintro ⟨before, after, rfl, hm⟩ hf
    exact matchLength?_eq_none_iff.1 (hf _ (List.suffix_append before _)) after rfl hm

lemma Distinct.value_migrateSymbols_eq_iff (h : p.Distinct α) : (p.migrateSymbols s).value = s ↔ p.positions s = [] := by
  rw [positions_eq_nil_iff h]
  constructor
  · intro hv
    have hfree := h.free_pass s
    rwa [← h.value_migrateSymbols, hv] at hfree
  · intro hf
    rw [h.value_migrateSymbols, pass_eq_self_of_free hf]

lemma Distinct.positions_value (h : p.Distinct α) (s : List α) : p.positions (p.migrateSymbols s).value = [] := by
  rw [positions_eq_nil_iff h, h.value_migrateSymbols]
  exact h.free_pass s

omit [LawfulBEq α] in
lemma migrateSymbols_of_positions_eq_nil (hs : p.positions s = []) : p.migrateSymbols s = ⟨s, false⟩ := by
  simp [migrateSymbols, hs]

end Flag

namespace Narrows

variable (h : p.Narrows q)

include h

omit [LawfulBEq α] in
lemma matches_of_matches (hs : Matches p.rules s) : Matches q.rules s := by
  obtain ⟨r, hr, hm⟩ := hs
  exact ⟨r, h.rules hr, hm⟩

lemma free_of_free (hf : q.Free s) : p.Free s := by
  by_contra hn
  obtain ⟨before, after, hs, hm⟩ := not_free_iff.1 hn
  rw [h.source] at hs
  exact not_free_iff.2 ⟨before, after, hs, h.matches_of_matches hm⟩ hf

omit [LawfulBEq α] in
lemma moved_of_moved (hm : Moved p (Matches p.rules) s t) : Moved q (Matches q.rules) s t := by
  induction hm with
  | nil => exact .nil
  | keep c _ ih => exact .keep c ih
  | move hs _ ih =>
    rw [h.source, h.target]
    exact .move (h.matches_of_matches hs) ih

theorem pass_pass (hp : p.Distinct α) (hq : q.Distinct α) (s : List α) : q.pass 0 0 (p.pass 0 0 s) = q.pass 0 0 s :=
  (h.moved_of_moved (hp.moved_pass s)).pass_eq hq

theorem pass_of_pass (hq : q.Distinct α) (s : List α) : p.pass 0 0 (q.pass 0 0 s) = q.pass 0 0 s :=
  pass_eq_self_of_free (h.free_of_free (hq.free_pass s))

end Narrows

section BuiltIn

open BuiltIn (tomcat ee jee8)

lemma value_migrateBytes_builtIn (b : BuiltIn) (s : Bytes) : (b.profile.migrateBytes s).value = b.profile.pass 0 0 s :=
  (distinct_builtIn_octet b).value_migrateBytes s

lemma value_eq_iff_builtIn (b : BuiltIn) (s : Bytes) : (b.profile.migrateBytes s).value = s ↔ b.profile.positions s = [] :=
  (distinct_builtIn_octet b).value_migrateSymbols_eq_iff

/-- A migration by a built-in profile leaves no match, so that another one changes nothing; and it reports a change just
if a token stands before a match, which is found, and the value differs. -/
theorem migrateBytes_migrateBytes (b : BuiltIn) (s : Bytes) :
    b.profile.positions (b.profile.migrateBytes s).value = [] ∧
    b.profile.migrateBytes (b.profile.migrateBytes s).value = ⟨(b.profile.migrateBytes s).value, false⟩ ∧
    ((b.profile.migrateBytes s).changed = true ↔ b.profile.positions s ≠ []) ∧
    ((b.profile.migrateBytes s).changed = true ↔ (b.profile.migrateBytes s).value ≠ s) ∧
    (b.profile.positions s ≠ [] ↔
      ∃ before after, s = before ++ (Alphabet.spell b.profile.source ++ after) ∧ Matches b.profile.rules after) := by
  have hd := distinct_builtIn_octet b
  have hchanged : (b.profile.migrateBytes s).changed = true ↔ b.profile.positions s ≠ [] := by
    rw [hd.changed_migrateBytes_iff, ne_eq, positions_eq_nil_iff hd]
  have hvalue := hd.positions_value s
  refine ⟨hvalue, migrateSymbols_of_positions_eq_nil hvalue, hchanged, ?_, ?_⟩
  · rw [hchanged, ne_eq, ne_eq, value_eq_iff_builtIn]
  · rw [ne_eq, positions_eq_nil_iff hd, not_free_iff]

/-- The way back makes the same of a text and of its migration, and so does the way there, so each undoes the other on
the texts in which it matches nothing; and migrating all specifications takes in migrating those of a container. -/
theorem migrateBytes_compose (s : Bytes) :
    (jee8.profile.migrateBytes (ee.profile.migrateBytes s).value).value = (jee8.profile.migrateBytes s).value ∧
    (ee.profile.migrateBytes (jee8.profile.migrateBytes s).value).value = (ee.profile.migrateBytes s).value ∧
    ((jee8.profile.migrateBytes (ee.profile.migrateBytes s).value).value = s ↔ jee8.profile.positions s = []) ∧
    ((ee.profile.migrateBytes (jee8.profile.migrateBytes s).value).value = s ↔ ee.profile.positions s = []) ∧
    (ee.profile.migrateBytes (tomcat.profile.migrateBytes s).value).value = (ee.profile.migrateBytes s).value ∧
    (tomcat.profile.migrateBytes (ee.profile.migrateBytes s).value).value = (ee.profile.migrateBytes s).value := by
  have hback : (jee8.profile.migrateBytes (ee.profile.migrateBytes s).value).value = (jee8.profile.migrateBytes s).value := by
    simp only [value_migrateBytes_builtIn]
    exact (distinct_builtIn_octet ee).pass_reversedAs "JEE8" s
  have hforth : (ee.profile.migrateBytes (jee8.profile.migrateBytes s).value).value = (ee.profile.migrateBytes s).value := by
    simp only [value_migrateBytes_builtIn]
    exact (distinct_builtIn_octet jee8).pass_reversedAs "EE" s
  refine ⟨hback, hforth, ?_, ?_, ?_, ?_⟩
  · rw [hback, value_eq_iff_builtIn]
  · rw [hforth, value_eq_iff_builtIn]
  · simp only [value_migrateBytes_builtIn]
    exact narrows_tomcat_ee.pass_pass (distinct_builtIn_octet tomcat) (distinct_builtIn_octet ee) s
  · simp only [value_migrateBytes_builtIn]
    exact narrows_tomcat_ee.pass_of_pass (distinct_builtIn_octet ee) s

end BuiltIn

end NamespaceMigration.Profile
