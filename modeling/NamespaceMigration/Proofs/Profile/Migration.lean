import NamespaceMigration.Profile.BuiltIn
import NamespaceMigration.Proofs.Text.Search

/-! Migration as one pass over a text, in place of a search for positions and a replacement at them. -/

namespace NamespaceMigration.Profile

variable {α : Type}

section Pass

def replaceTokens (lengthAt : List α → Option ℕ) (width : ℕ) (new : List α) : ℕ → ℕ → List α → List α
  | _, _, [] => []
  | drop + 1, keep, _ :: s => replaceTokens lengthAt width new drop keep s
  | 0, keep + 1, c :: s => c :: replaceTokens lengthAt width new 0 keep s
  | 0, 0, c :: s =>
    match lengthAt (c :: s) with
    | some n => new ++ replaceTokens lengthAt width new (width - 1) (n - width) s
    | none => c :: replaceTokens lengthAt width new 0 0 s

variable {lengthAt : List α → Option ℕ} {width : ℕ} {new : List α}

lemma add_le_of_mem_scan {skip pos q : ℕ} {s : List α} (h : q ∈ scan lengthAt skip pos s) : pos + skip ≤ q := by
  induction s generalizing skip pos with
  | nil => cases skip <;> simp [scan] at h
  | cons c s ih =>
    cases skip with
    | succ skip =>
      have hq := ih h
      omega
    | zero =>
      rw [scan] at h
      split at h
      · rcases List.mem_cons.1 h with rfl | h
        · exact Nat.le_refl _
        · have hq := ih h
          omega
      · have hq := ih h
        omega

lemma le_of_mem_scan {skip pos q : ℕ} {s : List α} (h : q ∈ scan lengthAt skip pos s) : pos ≤ q :=
  Nat.le_of_add_right_le (add_le_of_mem_scan h)

lemma substitute_cons {pos : ℕ} {positions : List ℕ} (h : ∀ q ∈ positions, pos < q) (c : α) (s : List α) :
    substitute width new pos positions (c :: s) = c :: substitute width new (pos + 1) positions s := by
  cases positions with
  | nil => rfl
  | cons q positions =>
    have hq := h q (by simp)
    obtain ⟨k, rfl⟩ := Nat.exists_eq_add_of_lt hq
    have hk : pos + k + 1 - pos = k + 1 := by omega
    have hk' : pos + k + 1 - (pos + 1) = k := by omega
    have hd : k + 1 + width = k + width + 1 := by omega
    simp only [substitute, hk, hk', hd, List.take_succ_cons, List.drop_succ_cons, List.cons_append]

lemma substitute_scan (hw : 0 < width) (hl : ∀ s n, lengthAt s = some n → width ≤ n) (drop keep pos : ℕ) (s : List α) :
    substitute width new (pos + drop) (scan lengthAt (drop + keep) pos s) (s.drop drop) =
      replaceTokens lengthAt width new drop keep s := by
  induction s generalizing drop keep pos with
  | nil => cases drop <;> cases keep <;> simp [scan, substitute, replaceTokens]
  | cons c s ih =>
    match drop, keep with
    | drop + 1, keep =>
      have h := ih drop keep (pos + 1)
      rw [replaceTokens, ← h, Nat.add_right_comm drop 1 keep, Nat.add_right_comm pos 1 drop]
      rfl
    | 0, keep + 1 =>
      have h := ih 0 keep (pos + 1)
      rw [Nat.zero_add, List.drop_zero] at h
      rw [replaceTokens, ← h]
      rw [Nat.zero_add, List.drop_zero]
      exact substitute_cons (fun q hq => le_of_mem_scan hq) c s
    | 0, 0 =>
      rw [Nat.zero_add, List.drop_zero, Nat.add_zero, scan, replaceTokens]
      cases hn : lengthAt (c :: s) with
      | some n =>
        have hn' := hl _ _ hn
        have h := ih (width - 1) (n - width) (pos + 1)
        have hp : pos + 1 + (width - 1) = pos + width := by omega
        have hs : width - 1 + (n - width) = n - 1 := by omega
        have hd : (c :: s).drop width = s.drop (width - 1) := by
          obtain ⟨w, rfl⟩ := Nat.exists_eq_add_of_lt hw
          simp
        rw [hp, hs] at h
        simp [substitute, hd, h]
      | none =>
        have h := ih 0 0 (pos + 1)
        rw [List.drop_zero] at h
        dsimp only
        rw [← h]
        exact substitute_cons (fun q hq => le_of_mem_scan hq) c s

lemma replaceTokens_drop (drop keep : ℕ) (s : List α) :
    replaceTokens lengthAt width new drop keep s = replaceTokens lengthAt width new 0 keep (s.drop drop) := by
  induction s generalizing drop with
  | nil => cases drop <;> cases keep <;> simp [replaceTokens]
  | cons c s ih =>
    cases drop with
    | zero => rfl
    | succ drop => exact ih drop

lemma mem_replaceTokens {drop keep : ℕ} {c : α} {s : List α} (h : c ∈ replaceTokens lengthAt width new drop keep s) :
    c ∈ new ∨ c ∈ s := by
  induction s generalizing drop keep with
  | nil => cases drop <;> cases keep <;> simp [replaceTokens] at h
  | cons d s ih =>
    match drop, keep with
    | drop + 1, keep => exact (ih h).imp_right (List.mem_cons_of_mem d)
    | 0, keep + 1 =>
      rcases List.mem_cons.1 h with rfl | h
      · simp
      · exact (ih h).imp_right (List.mem_cons_of_mem d)
    | 0, 0 =>
      rw [replaceTokens] at h
      split at h
      · rcases List.mem_append.1 h with h | h
        · exact .inl h
        · exact (ih h).imp_right (List.mem_cons_of_mem d)
      · rcases List.mem_cons.1 h with rfl | h
        · simp
        · exact (ih h).imp_right (List.mem_cons_of_mem d)

lemma length_replaceTokens (hw : 0 < width) (hl : ∀ s n, lengthAt s = some n → width ≤ n ∧ n ≤ s.length)
    {drop keep : ℕ} {s : List α} (h : drop + keep ≤ s.length) :
    ∃ count, (replaceTokens lengthAt width new drop keep s).length + drop + count * width =
      s.length + count * new.length := by
  induction s generalizing drop keep with
  | nil =>
    obtain ⟨rfl, rfl⟩ : drop = 0 ∧ keep = 0 := by simpa using h
    exact ⟨0, by simp [replaceTokens]⟩
  | cons c s ih =>
    rw [List.length_cons] at h
    match drop, keep with
    | drop + 1, keep =>
      obtain ⟨count, hc⟩ := @ih drop keep (by omega)
      exact ⟨count, by rw [replaceTokens, List.length_cons]; omega⟩
    | 0, keep + 1 =>
      obtain ⟨count, hc⟩ := @ih 0 keep (by omega)
      exact ⟨count, by rw [replaceTokens, List.length_cons, List.length_cons]; omega⟩
    | 0, 0 =>
      rw [replaceTokens]
      split
      next n hn =>
        have hb := hl _ _ hn
        rw [List.length_cons] at hb
        obtain ⟨count, hc⟩ := @ih (width - 1) (n - width) (by omega)
        refine ⟨count + 1, ?_⟩
        rw [List.length_append, List.length_cons, Nat.add_mul, Nat.add_mul]
        omega
      next =>
        obtain ⟨count, hc⟩ := @ih 0 0 (Nat.zero_le _)
        exact ⟨count, by rw [List.length_cons, List.length_cons]; omega⟩

lemma replaceTokens_append_cons (hw : 0 < width) (hl : ∀ s n, lengthAt s = some n → width ≤ n ∧ n ≤ s.length)
    {c : α} {b : List α} (hc : ∀ a, lengthAt (a ++ c :: b) = lengthAt a) {drop keep : ℕ} {a : List α}
    (h : drop + keep ≤ a.length) :
    replaceTokens lengthAt width new drop keep (a ++ c :: b) =
      replaceTokens lengthAt width new drop keep a ++ c :: replaceTokens lengthAt width new 0 0 b := by
  induction a generalizing drop keep with
  | nil =>
    obtain ⟨rfl, rfl⟩ : drop = 0 ∧ keep = 0 := by simpa using h
    have hn : lengthAt [] = none := by
      by_contra hn
      obtain ⟨n, hn⟩ := Option.ne_none_iff_exists'.1 hn
      have := hl _ _ hn
      simp at this
      omega
    have hcb : lengthAt (c :: b) = none := (hc []).trans hn
    simp [replaceTokens, hcb]
  | cons d a ih =>
    rw [List.length_cons] at h
    match drop, keep with
    | drop + 1, keep => exact ih (by omega)
    | 0, keep + 1 =>
      have hi := @ih 0 keep (by omega)
      simp only [List.cons_append, replaceTokens, hi]
    | 0, 0 =>
      have hd := hc (d :: a)
      rw [List.cons_append] at hd
      rw [List.cons_append, replaceTokens, replaceTokens, hd]
      split
      next n hn =>
        have hb := hl _ _ hn
        rw [List.length_cons] at hb
        rw [ih (by omega), List.append_assoc]
      next => rw [ih (Nat.zero_le _), List.cons_append]

end Pass

section Positions

variable [BEq α] [Alphabet α] {p : Profile} {s : List α}

lemma positions_eq_scan (hs : (Alphabet.spell p.source : List α) ≠ []) (s : List α) :
    p.positions s = scan (matchLength? p.rules (Alphabet.spell p.source)) 0 0 s := by
  rw [positions, if_neg (by simpa using hs)]

lemma positions_of_source_eq_nil (hs : (Alphabet.spell p.source : List α) = []) (s : List α) : p.positions s = [] := by
  rw [positions, if_pos (List.isEmpty_iff.2 hs)]

lemma migrateSymbols_of_source_eq_nil (hs : (Alphabet.spell p.source : List α) = []) (s : List α) :
    p.migrateSymbols s = ⟨s, false⟩ := by
  rw [migrateSymbols, positions_of_source_eq_nil hs]
  rfl

lemma migrateSymbols_of_isTrivial (hp : p.isTrivial = true) (s : List α) : p.migrateSymbols s = ⟨s, false⟩ := by
  rw [migrateSymbols, hp, Bool.or_true, if_pos rfl]

lemma migrateSymbols_of_not_changed (h : (p.migrateSymbols s).changed = false) : (p.migrateSymbols s).value = s := by
  rw [migrateSymbols] at h ⊢
  split
  next => rfl
  next hn => simp [hn] at h

lemma of_changed_migrateSymbols (h : (p.migrateSymbols s).changed = true) :
    (Alphabet.spell p.source : List α) ≠ [] ∧ p.isTrivial = false ∧ p.positions s ≠ [] := by
  rw [migrateSymbols] at h
  split at h
  next => cases h
  next hn =>
    rw [Bool.or_eq_true, not_or, Bool.not_eq_true, Bool.not_eq_true, List.isEmpty_eq_false_iff] at hn
    exact ⟨fun hs => hn.1 (positions_of_source_eq_nil hs s), hn.2, hn.1⟩

end Positions

section Matches

variable [BEq α] [Alphabet α] [LawfulBEq α] {p : Profile} {s t : List α}

lemma exists_of_matchLength?_rule {r : Rule} {n : ℕ} (h : r.matchLength? s = some n) :
    (∃ rest, Rule.stripSegments r.path s = some rest) ∧ n ≤ s.length ∧ Rule.width α r.path ≤ n := by
  simp only [Rule.matchLength?, Option.bind_eq_bind, Option.bind_eq_some_iff] at h
  obtain ⟨rest, hr, h⟩ := h
  have hl := Rule.length_of_stripSegments hr
  refine ⟨⟨rest, hr⟩, ?_⟩
  split at h
  · simp at h
  · split at h
    · obtain rfl := Option.some.inj h
      omega
    · obtain ⟨leaf, -, h⟩ := List.exists_of_findSome?_eq_some h
      obtain ⟨rest', hr', rfl⟩ := Option.map_eq_some_iff.1 h
      have := Rule.length_of_stripSegments hr'
      omega

lemma matchLength?_eq_some {rules : List Rule} {token : List α} {n : ℕ} (h : matchLength? rules token s = some n) :
    ∃ r ∈ rules, ∃ after m, s = token ++ after ∧ r.matchLength? after = some m ∧ n = token.length + m := by
  simp only [matchLength?, Option.bind_eq_bind, Option.bind_eq_some_iff, Option.pure_def, Option.some.injEq] at h
  obtain ⟨after, ha, m, hm, rfl⟩ := h
  obtain ⟨r, hr, hm⟩ := List.exists_of_findSome?_eq_some hm
  exact ⟨r, hr, after, m, Text.strip?_eq_some_iff.1 ha, hm, rfl⟩

lemma bounds_of_matchLength? {rules : List Rule} {token : List α} {n : ℕ}
    (h : matchLength? rules token s = some n) : token.length ≤ n ∧ n ≤ s.length := by
  obtain ⟨r, -, after, m, rfl, hm, rfl⟩ := matchLength?_eq_some h
  have := (exists_of_matchLength?_rule hm).2.1
  simpa using this

def pass (p : Profile) : ℕ → ℕ → List α → List α :=
  replaceTokens (matchLength? p.rules (Alphabet.spell p.source)) (Alphabet.spell p.source : List α).length
    (Alphabet.spell p.target)

variable (p) in
lemma value_migrateSymbols (hs : (Alphabet.spell p.source : List α) ≠ []) (hp : p.isTrivial = false) (s : List α) :
    (p.migrateSymbols s).value = p.pass 0 0 s := by
  have hw : 0 < (Alphabet.spell p.source : List α).length := List.length_pos_iff.2 hs
  have hscan := @substitute_scan _ (matchLength? p.rules (Alphabet.spell p.source)) _
    (Alphabet.spell p.target) hw (fun s n h => (bounds_of_matchLength? h).1) 0 0 0 s
  rw [Nat.zero_add, List.drop_zero, ← positions_eq_scan hs] at hscan
  rw [pass, ← hscan, migrateSymbols, hp, Bool.or_false]
  split
  next h => simp [List.isEmpty_iff.1 h, substitute]
  next => rfl

omit [LawfulBEq α] in
lemma pass_cons_of_match {c : α} {n : ℕ} (hn : matchLength? p.rules (Alphabet.spell p.source) (c :: s) = some n) :
    p.pass 0 0 (c :: s) = Alphabet.spell p.target ++
      p.pass ((Alphabet.spell p.source : List α).length - 1) (n - (Alphabet.spell p.source : List α).length) s := by
  rw [pass, replaceTokens, hn]

lemma pass_of_match (hs : (Alphabet.spell p.source : List α) ≠ []) {c : α} {n : ℕ}
    (hn : matchLength? p.rules (Alphabet.spell p.source) (c :: s) = some n) :
    ∃ after k, c :: s = Alphabet.spell p.source ++ after ∧ k ≤ after.length ∧
      p.pass 0 0 (c :: s) = Alphabet.spell p.target ++ p.pass 0 k after := by
  obtain ⟨r, -, after, m, hsplit, hlen, rfl⟩ := matchLength?_eq_some hn
  obtain ⟨w, token, htoken⟩ := List.exists_cons_of_ne_nil hs
  have hdrop : s.drop ((Alphabet.spell p.source : List α).length - 1) = after := by
    rw [htoken, List.cons_append, List.cons.injEq] at hsplit
    simp [htoken, hsplit.2]
  refine ⟨after, m, hsplit, (exists_of_matchLength?_rule hlen).2.1, ?_⟩
  rw [pass_cons_of_match hn, pass, replaceTokens_drop, hdrop, Nat.add_sub_cancel_left]

lemma length_pass (hs : (Alphabet.spell p.source : List α) ≠ []) {keep : ℕ} (h : keep ≤ s.length) :
    ∃ count, (p.pass 0 keep s).length + count * (Alphabet.spell p.source : List α).length =
      s.length + count * (Alphabet.spell p.target : List α).length := by
  have hw : 0 < (Alphabet.spell p.source : List α).length := List.length_pos_iff.2 hs
  exact @length_replaceTokens _ (matchLength? p.rules (Alphabet.spell p.source)) _ (Alphabet.spell p.target) hw
    (fun s n hn => bounds_of_matchLength? hn) 0 keep s (by omega)

lemma positions_eq_nil_of_pass_eq (hs : (Alphabet.spell p.source : List α) ≠ [])
    (hp : (Alphabet.spell p.source : List α) ≠ Alphabet.spell p.target) {keep : ℕ} (hk : keep ≤ s.length)
    (h : p.pass 0 keep s = s) (pos : ℕ) : scan (matchLength? p.rules (Alphabet.spell p.source)) keep pos s = [] := by
  induction s generalizing keep pos with
  | nil => cases keep <;> rfl
  | cons c s ih =>
    cases keep with
    | succ keep =>
      have hc : p.pass 0 (keep + 1) (c :: s) = c :: p.pass 0 keep s := rfl
      rw [hc, List.cons.injEq] at h
      exact ih (by simpa using hk) h.2 (pos + 1)
    | zero =>
      cases hn : matchLength? p.rules (Alphabet.spell p.source) (c :: s) with
      | some n =>
        obtain ⟨after, k, hsplit, hk, hpass⟩ := pass_of_match hs hn
        obtain ⟨count, hlen⟩ := length_pass (s := after) hs hk
        rw [hpass, hsplit] at h
        have htotal := congrArg List.length h
        rw [List.length_append, List.length_append] at htotal
        have hmul : (count + 1) * (Alphabet.spell p.target : List α).length =
            (count + 1) * (Alphabet.spell p.source : List α).length := by
          rw [Nat.add_mul, Nat.add_mul]
          omega
        have hwidth := Nat.eq_of_mul_eq_mul_left (Nat.succ_pos count) hmul
        exact absurd (List.append_inj_left h hwidth).symm hp
      | none =>
        have hc : p.pass 0 0 (c :: s) = c :: p.pass 0 0 s := by
          rw [pass, replaceTokens, hn]
        rw [hc, List.cons.injEq] at h
        rw [scan, hn]
        exact ih (Nat.zero_le _) h.2 (pos + 1)

lemma source_eq_of_cons_pass_eq (hs : (Alphabet.spell p.source : List α) ≠ []) {d : α} {keep : ℕ} (hk : keep ≤ s.length)
    (h : d :: p.pass 0 keep s = s) : (Alphabet.spell p.source : List α) = d :: Alphabet.spell p.target := by
  induction s generalizing keep with
  | nil => cases h
  | cons c s ih =>
    cases keep with
    | succ keep =>
      have hc : p.pass 0 (keep + 1) (c :: s) = c :: p.pass 0 keep s := rfl
      rw [hc, List.cons.injEq] at h
      obtain ⟨rfl, h⟩ := h
      exact ih (by simpa using hk) h
    | zero =>
      cases hn : matchLength? p.rules (Alphabet.spell p.source) (c :: s) with
      | some n =>
        obtain ⟨after, k, hsplit, hk, hpass⟩ := pass_of_match hs hn
        obtain ⟨count, hlen⟩ := length_pass (s := after) hs hk
        rw [hpass, hsplit, ← List.cons_append] at h
        have htotal := congrArg List.length h
        rw [List.length_append, List.length_append, List.length_cons] at htotal
        have hwidth : (d :: Alphabet.spell p.target : List α).length = (Alphabet.spell p.source : List α).length := by
          rw [List.length_cons]
          -- one symbol less in all, of which every token takes the same share
          have hmul : (count + 1) * (Alphabet.spell p.target : List α).length + 1 =
              (count + 1) * (Alphabet.spell p.source : List α).length := by
            rw [Nat.add_mul, Nat.add_mul]
            omega
          have hlt := Nat.lt_of_mul_lt_mul_left (Nat.lt_of_succ_le (Nat.le_of_eq hmul))
          have hle := Nat.mul_le_mul_left (count + 1) (Nat.succ_le_of_lt hlt)
          rw [Nat.mul_succ] at hle
          by_contra hne
          have hge := Nat.mul_le_mul_left (count + 1) (Nat.succ_le_of_lt (Nat.lt_of_le_of_ne hlt hne))
          rw [Nat.mul_succ, Nat.mul_succ] at hge
          omega
        exact (List.append_inj_left h hwidth).symm
      | none =>
        have hc : p.pass 0 0 (c :: s) = c :: p.pass 0 0 s := by
          rw [pass, replaceTokens, hn]
        rw [hc, List.cons.injEq] at h
        obtain ⟨rfl, h⟩ := h
        exact ih (Nat.zero_le _) h

lemma value_ne_of_changed (hp : (Alphabet.spell p.source : List α) = Alphabet.spell p.target → p.source = p.target)
    (h : (p.migrateSymbols s).changed = true) : (p.migrateSymbols s).value ≠ s := by
  obtain ⟨hs, ht, hpos⟩ := of_changed_migrateSymbols h
  intro he
  rw [value_migrateSymbols p hs ht] at he
  have hne : (Alphabet.spell p.source : List α) ≠ Alphabet.spell p.target := fun hc => by
    simp [isTrivial, hp hc] at ht
  refine hpos ?_
  rw [positions_eq_scan hs]
  exact positions_eq_nil_of_pass_eq hs hne (Nat.zero_le _) he 0

lemma changed_iff_value_ne (hp : (Alphabet.spell p.source : List α) = Alphabet.spell p.target → p.source = p.target) :
    (p.migrateSymbols s).changed = true ↔ (p.migrateSymbols s).value ≠ s := by
  refine ⟨value_ne_of_changed hp, fun h => ?_⟩
  by_contra hc
  exact h (migrateSymbols_of_not_changed (by simpa using hc))

lemma source_eq_of_cons_value_eq {d : α} (h : d :: (p.migrateSymbols s).value = s) :
    (Alphabet.spell p.source : List α) = d :: Alphabet.spell p.target := by
  cases hc : (p.migrateSymbols s).changed with
  | false =>
    rw [migrateSymbols_of_not_changed hc] at h
    simpa using congrArg List.length h
  | true =>
    obtain ⟨hs, ht, -⟩ := of_changed_migrateSymbols hc
    rw [value_migrateSymbols p hs ht] at h
    exact source_eq_of_cons_pass_eq hs (Nat.zero_le _) h

lemma exists_separator_of_pass_ne (hs : (Alphabet.spell p.source : List α) ≠ []) (hr : ∀ r ∈ p.rules, r.path ≠ []) {keep : ℕ}
    (h : p.pass 0 keep s ≠ s) : ∃ c, Alphabet.isSeparator c = true ∧ Alphabet.spell p.target ++ [c] <:+: p.pass 0 keep s := by
  induction s generalizing keep with
  | nil => cases keep <;> simp [pass, replaceTokens] at h
  | cons d s ih =>
    cases keep with
    | succ keep =>
      have hd : p.pass 0 (keep + 1) (d :: s) = d :: p.pass 0 keep s := rfl
      rw [hd] at h ⊢
      obtain ⟨c, hc, hi⟩ := ih (by simpa using h)
      exact ⟨c, hc, hi.trans (List.suffix_cons _ _).isInfix⟩
    | zero =>
      rw [pass, replaceTokens] at h
      rw [pass, replaceTokens]
      cases hn : matchLength? p.rules (Alphabet.spell p.source) (d :: s) with
      | some n =>
        obtain ⟨r, hm, after, m, hsplit, hlen, rfl⟩ := matchLength?_eq_some hn
        obtain ⟨⟨rest, hstrip⟩, -, hwidth⟩ := exists_of_matchLength?_rule hlen
        obtain ⟨word, path, hpath⟩ := List.exists_cons_of_ne_nil (hr r hm)
        obtain ⟨w, token, htoken⟩ := List.exists_cons_of_ne_nil hs
        rw [hpath] at hstrip hwidth
        cases after with
        | nil => simp [Rule.stripSegments] at hstrip
        | cons c after =>
          have hc : Alphabet.isSeparator c = true := by
            by_contra hc
            simp [Rule.stripSegments, hc] at hstrip
          obtain ⟨k, rfl⟩ : ∃ k, m = k + 1 := ⟨m - 1, by simp [Rule.width] at hwidth; omega⟩
          have hdrop : s.drop ((Alphabet.spell p.source : List α).length - 1) = c :: after := by
            rw [htoken, List.cons_append, List.cons.injEq] at hsplit
            simp [htoken, hsplit.2]
          refine ⟨c, hc, [], p.pass 0 k after, ?_⟩
          simp [replaceTokens_drop _ _ s, hdrop, replaceTokens, pass]
      | none =>
        obtain ⟨c, hc, hi⟩ := @ih 0 (by simpa [hn, pass] using h)
        exact ⟨c, hc, hi.trans (List.suffix_cons _ _).isInfix⟩

end Matches

section Cuts

variable [Alphabet α]

structure Avoids (p : Profile) (c : α) : Prop where
  source : c ∉ (Alphabet.spell p.source : List α)
  target : c ∉ (Alphabet.spell p.target : List α)
  separator : Alphabet.isSeparator c = false
  words : ∀ r ∈ p.rules, ∀ word ∈ r.path ++ r.leaves.flatten ++ r.exceptions, c ∉ (Alphabet.spell word : List α)

variable [BEq α] [LawfulBEq α] {p : Profile} {c : α} {b : List α}

lemma stripSegments_append_cons {path : List String} (hsep : Alphabet.isSeparator c = false)
    (hw : ∀ word ∈ path, c ∉ (Alphabet.spell word : List α)) (a : List α) :
    Rule.stripSegments path (a ++ c :: b) = (Rule.stripSegments path a).map (· ++ c :: b) := by
  induction path generalizing a with
  | nil => simp [Rule.stripSegments]
  | cons word path ih =>
    cases a with
    | nil => simp [Rule.stripSegments, hsep]
    | cons d a =>
      simp only [List.cons_append, Rule.stripSegments]
      split
      · rw [Text.strip?_append_cons (hw word (by simp))]
        cases Text.strip? (Alphabet.spell word) a with
        | none => rfl
        | some rest => exact ih (fun w hm => hw w (by simp [hm])) rest
      · rfl

lemma goesOnWith_append_cons {child : String} (hsep : Alphabet.isSeparator c = false)
    (hw : c ∉ (Alphabet.spell child : List α)) (a : List α) :
    Rule.goesOnWith child (a ++ c :: b) = Rule.goesOnWith child a := by
  cases a with
  | nil => simp [Rule.goesOnWith, hsep]
  | cons d a => simp [Rule.goesOnWith, Text.strip?_append_cons hw]

omit [Alphabet α] in
lemma findSome?_congr {β γ : Type} {l : List β} {f g : β → Option γ} (h : ∀ x ∈ l, f x = g x) :
    l.findSome? f = l.findSome? g := by
  induction l with
  | nil => rfl
  | cons x l ih => rw [List.findSome?_cons, List.findSome?_cons, h x (by simp), ih fun y hy => h y (by simp [hy])]

lemma Avoids.matchLength?_append_cons (h : p.Avoids c) (a : List α) :
    matchLength? p.rules (Alphabet.spell p.source) (a ++ c :: b) =
      matchLength? p.rules (Alphabet.spell p.source) a := by
  have hrule : ∀ r ∈ p.rules, ∀ after : List α, r.matchLength? (after ++ c :: b) = r.matchLength? after := by
    intro r hr after
    have hw := h.words r hr
    simp only [List.mem_append, List.mem_flatten] at hw
    simp only [Rule.matchLength?, Option.bind_eq_bind]
    rw [stripSegments_append_cons h.separator fun word hm => hw word (.inl (.inl hm))]
    cases Rule.stripSegments r.path after with
    | none => rfl
    | some rest =>
      simp only [Option.map_some, Option.bind_some]
      have he : r.exceptions.any (Rule.goesOnWith · (rest ++ c :: b)) = r.exceptions.any (Rule.goesOnWith · rest) := by
        rw [Bool.eq_iff_iff, List.any_eq_true, List.any_eq_true]
        exact exists_congr fun child => and_congr_right fun hm => by
          rw [goesOnWith_append_cons h.separator (hw child (.inr hm))]
      have hl : ∀ leaf ∈ r.leaves, (Rule.stripSegments leaf (rest ++ c :: b)).map
          (fun _ => Rule.width α r.path + Rule.width α leaf) =
          (Rule.stripSegments leaf rest).map fun _ => Rule.width α r.path + Rule.width α leaf := by
        intro leaf hm
        rw [stripSegments_append_cons h.separator fun word hword => hw word (.inl (.inr ⟨leaf, hm, hword⟩)), Option.map_map]
        rfl
      rw [he, findSome?_congr hl]
  simp only [matchLength?, Option.bind_eq_bind]
  rw [Text.strip?_append_cons h.source]
  cases Text.strip? (Alphabet.spell p.source) a with
  | none => rfl
  | some after =>
    simp only [Option.map_some, Option.bind_some]
    rw [findSome?_congr fun r hr => hrule r hr after]

lemma Avoids.pass_append_cons (h : p.Avoids c) (hs : (Alphabet.spell p.source : List α) ≠ []) (a : List α) :
    p.pass 0 0 (a ++ c :: b) = p.pass 0 0 a ++ c :: p.pass 0 0 b :=
  replaceTokens_append_cons (List.length_pos_iff.2 hs) (fun _ _ hn => bounds_of_matchLength? hn)
    h.matchLength?_append_cons (Nat.zero_le _)

omit [LawfulBEq α] in
lemma Avoids.not_mem_pass (h : p.Avoids c) {s : List α} (hs : c ∉ s) : c ∉ p.pass 0 0 s :=
  fun hm => (mem_replaceTokens hm).elim h.target hs

end Cuts

section BuiltIn

variable (b : BuiltIn)

lemma isTrivial_builtIn : b.profile.isTrivial = false := by
  cases b <;> decide

lemma tokens_builtIn : [b.profile.source, b.profile.target].Perm ["javax", "jakarta"] := by
  cases b <;> decide

lemma source_builtIn_ne_nil : (Alphabet.spell b.profile.source : List Char) ≠ [] := by
  cases b <;> decide +kernel

def isPlain (r : Rule) : Bool :=
  !r.path.isEmpty && (r.path ++ r.leaves.flatten ++ r.exceptions).all fun word => word.toList.all Char.isAlphanum

lemma containerRules_subset : BuiltIn.containerRules ⊆ BuiltIn.platformRules := by
  simp [BuiltIn.containerRules, BuiltIn.platformRules]

lemma all_isPlain_builtIn : b.profile.rules.all isPlain = true := by
  have hplatform : BuiltIn.platformRules.all isPlain = true := by
    simp only [BuiltIn.platformRules, List.all_cons, List.all_nil, Bool.and_eq_true]
    and_intros <;> decide +kernel
  have hcontainer : BuiltIn.containerRules.all isPlain = true := by
    rw [List.all_eq_true] at hplatform ⊢
    exact fun r hr => hplatform r (containerRules_subset hr)
  cases b with
  | tomcat => exact hcontainer
  | ee => exact hplatform
  | jee8 => exact hplatform

lemma alphanum_builtIn : ∀ r ∈ b.profile.rules, r.path ≠ [] ∧
    ∀ word ∈ r.path ++ r.leaves.flatten ++ r.exceptions, ∀ c ∈ word.toList, c.isAlphanum = true := by
  intro r hr
  have h := List.all_eq_true.1 (all_isPlain_builtIn b) r hr
  simp only [isPlain, Bool.and_eq_true, Bool.not_eq_true', List.isEmpty_eq_false_iff, List.all_eq_true] at h
  exact h

lemma alphanum_tokens_builtIn : ∀ token ∈ [b.profile.source, b.profile.target], ∀ c ∈ token.toList, c.isAlphanum = true := by
  have hall : ["javax", "jakarta"].all (fun token => token.toList.all Char.isAlphanum) = true := by decide +kernel
  simp only [List.all_eq_true] at hall
  intro token ht
  exact hall token ((tokens_builtIn b).mem_iff.1 ht)

lemma avoids_builtIn {c : Char} (hc : c.isAlphanum = false) (hs : Alphabet.isSeparator c = false) :
    b.profile.Avoids c := by
  have htoken : ∀ token ∈ [b.profile.source, b.profile.target], c ∉ token.toList := by
    intro token ht hm
    have := alphanum_tokens_builtIn b token ht c hm
    simp [hc] at this
  refine ⟨htoken _ (by simp), htoken _ (by simp), hs, fun r hr word hw hm => ?_⟩
  have := (alphanum_builtIn b r hr).2 word hw c hm
  simp [hc] at this

end BuiltIn

end NamespaceMigration.Profile
