import NamespaceMigration.Proofs.ClassFile.RuntimeConversion

/-! How the references of one constant interfere. -/

namespace NamespaceMigration.Profile

variable {p : Profile} {exists? : Resolver} {fragment x : List Char} {fs : List (List Char)}

def isMissing (p : Profile) (exists? : Resolver) (fragment : List Char) : Bool :=
  (p.namedClass? fragment).any fun (name, dotted) => !exists? (resourcePath name dotted)

lemma infix_of_namedClass? {name : List Char} {dotted : Bool} (h : p.namedClass? fragment = some (name, dotted)) :
    p.target.toList ++ [if dotted then '.' else '/'] <:+: fragment := by
  rw [← Text.findTail?_isSome_iff]
  unfold namedClass? at h
  split at h
  next tail hslash =>
    obtain ⟨-, rfl⟩ := Prod.mk.inj (Option.some.inj h)
    exact Option.isSome_of_eq_some hslash
  next =>
    obtain ⟨tail, hdot, he⟩ := Option.map_eq_some_iff.1 h
    obtain ⟨-, rfl⟩ := Prod.mk.inj he
    exact Option.isSome_of_eq_some hdot

lemma exists_length_revert {name : List Char} {dotted : Bool} (h : p.namedClass? fragment = some (name, dotted)) :
    ∃ count, 0 < count ∧ (p.revert dotted fragment).length + count * p.target.toList.length =
      fragment.length + count * p.source.toList.length := by
  have hne : p.target.toList ++ [if dotted then '.' else '/'] ≠ [] := by simp
  obtain ⟨count, hcount, hlength⟩ :=
    Text.exists_length_replaceAll hne (p.source.toList ++ [if dotted then '.' else '/']) fragment
  refine ⟨count, Nat.pos_of_ne_zero fun hzero => hcount.1 hzero (infix_of_namedClass? h), ?_⟩
  rw [List.length_append, List.length_append, List.length_singleton, Nat.mul_succ, Nat.mul_succ] at hlength
  rw [revert]
  omega

lemma settle_of_not_missing (h : p.isMissing exists? fragment = false) : p.settle exists? x fragment = x := by
  rw [settle]
  cases hn : p.namedClass? fragment with
  | none => rfl
  | some name =>
    rw [isMissing, hn, Option.any_some, Bool.not_eq_false'] at h
    exact if_pos h

lemma settle_of_missing {name : List Char} {dotted : Bool} (hn : p.namedClass? fragment = some (name, dotted))
    (h : p.isMissing exists? fragment = true) : p.settle exists? x fragment = Text.replaceAll fragment (p.revert dotted fragment) x := by
  rw [isMissing, hn, Option.any_some, Bool.not_eq_true'] at h
  simp [settle, hn, h]

lemma settle_of_absent (h : p.isMissing exists? fragment = true → ¬ fragment <:+: x) : p.settle exists? x fragment = x := by
  cases hmissing : p.isMissing exists? fragment with
  | false => exact settle_of_not_missing hmissing
  | true =>
    obtain ⟨⟨name, dotted⟩, hn, -⟩ := (Option.any_eq_true _ _).1 hmissing
    rw [settle_of_missing hn hmissing]
    exact Text.replaceAll_of_absent (h hmissing)

lemma exists_length_settle (p : Profile) (exists? : Resolver) (fragment x : List Char) :
    ∃ count, (count = 0 ↔ (p.isMissing exists? fragment = true → ¬ fragment <:+: x)) ∧
      (p.settle exists? x fragment).length + count * p.target.toList.length =
        x.length + count * p.source.toList.length := by
  cases h : p.isMissing exists? fragment with
  | false =>
    rw [settle_of_not_missing h]
    exact ⟨0, by simp, by simp⟩
  | true =>
    obtain ⟨⟨name, dotted⟩, hn, -⟩ := (Option.any_eq_true _ _).1 h
    obtain ⟨tokens, hpos, htokens⟩ := exists_length_revert hn
    obtain ⟨count, hcount, hlength⟩ := Text.exists_length_replaceAll (fragment_ne_nil hn) (p.revert dotted fragment) x
    rw [settle_of_missing hn h]
    refine ⟨count * tokens, ?_, ?_⟩
    · rw [Nat.mul_eq_zero, or_iff_left (Nat.pos_iff_ne_zero.1 hpos), hcount]
      simp
    · have hmul := congrArg (count * ·) htokens
      simp only [Nat.mul_add, ← Nat.mul_assoc] at hmul
      omega

lemma exists_length_foldl_settle (p : Profile) (exists? : Resolver) (fs : List (List Char)) (x : List Char) :
    ∃ count, (fs.foldl (p.settle exists?) x).length + count * p.target.toList.length =
      x.length + count * p.source.toList.length := by
  induction fs generalizing x with
  | nil => exact ⟨0, by simp⟩
  | cons fragment fs ih =>
    obtain ⟨count, -, hlength⟩ := exists_length_settle p exists? fragment x
    obtain ⟨count', hlength'⟩ := ih (p.settle exists? x fragment)
    refine ⟨count + count', ?_⟩
    rw [List.foldl_cons, Nat.add_mul, Nat.add_mul]
    omega

lemma foldl_settle_eq_self_iff (hp : p.source.toList.length ≠ p.target.toList.length) :
    fs.foldl (p.settle exists?) x = x ↔ ∀ fragment ∈ fs, p.isMissing exists? fragment = true → ¬ fragment <:+: x := by
  induction fs with
  | nil => simp
  | cons fragment fs ih =>
    obtain ⟨count, hcount, hlength⟩ := exists_length_settle p exists? fragment x
    rw [List.forall_mem_cons, ← hcount, List.foldl_cons]
    cases count with
    | zero =>
      rw [settle_of_absent (hcount.1 rfl), ih]
      exact (and_iff_right rfl).symm
    | succ count =>
      refine iff_of_false (fun hself => hp ?_) (fun h => Nat.succ_ne_zero count h.1)
      obtain ⟨count', hlength'⟩ := exists_length_foldl_settle p exists? fs (p.settle exists? x fragment)
      rw [hself] at hlength'
      have htotal : (count + 1 + count') * p.source.toList.length = (count + 1 + count') * p.target.toList.length := by
        rw [Nat.add_mul (count + 1), Nat.add_mul (count + 1)]
        omega
      exact Nat.eq_of_mul_eq_mul_left (by omega) htotal

lemma length_tokens_builtIn (b : BuiltIn) : b.profile.source.toList.length ≠ b.profile.target.toList.length := by
  cases b <;> decide

variable {symbol : String} {i : ℕ} {old : List Char}

/-- A migrated reference stands in its place in the migrated constant just if none of the references whose classes do
not exist occurs in it. -/
theorem carries_moved_iff (b : BuiltIn) (exists? : Resolver) (ho : (fragments symbol.toList)[i]? = some old)
    (hm : b.profile.moved old ≠ old) :
    (∃ new, (b.profile.migrateResolvable exists? symbol).bind ModifiedUtf8.decode? = some new ∧
        (fragments new.toList)[i]? = some (b.profile.moved old)) ↔
      ∀ other ∈ fragments symbol.toList, b.profile.isMissing exists? (b.profile.moved other) = true →
        ¬ b.profile.moved other <:+: b.profile.moved old := by
  have hsettled : b.profile.settled exists? (fragments symbol.toList) old = b.profile.moved old ↔
      ∀ other ∈ fragments symbol.toList, b.profile.isMissing exists? (b.profile.moved other) = true →
        ¬ b.profile.moved other <:+: b.profile.moved old := by
    rw [settled, foldl_settle_eq_self_iff (length_tokens_builtIn b)]
    exact List.forall_mem_map
  rw [← hsettled]
  constructor
  · rintro ⟨new, hnew, hi⟩
    obtain ⟨bytes, hbytes, hdecode⟩ := Option.bind_eq_some_iff.1 hnew
    obtain ⟨new', hnew', hfragments⟩ := ClassFile.exists_text_of_migrateResolvable hbytes
    obtain rfl : new' = new := Option.some.inj (hnew'.symm.trans hdecode)
    rw [hfragments, List.getElem?_map, ho] at hi
    exact Option.some.inj hi
  · intro hcarried
    cases hr : b.profile.migrateResolvable exists? symbol with
    | some bytes =>
      obtain ⟨new, hnew, hfragments⟩ := ClassFile.exists_text_of_migrateResolvable hr
      refine ⟨new, hnew, ?_⟩
      rw [hfragments, List.getElem?_map, ho, Option.map_some, hcarried]
    | none =>
      -- a constant that stays as it is has its old fragments
      rw [migrateResolvable_eq] at hr
      split at hr
      next hsame =>
        have hfragments := fragments_resettled b exists? symbol
        rw [hsame] at hfragments
        have hi := congrArg (·[i]?) hfragments
        simp only [List.getElem?_map, ho, Option.map_some, Option.some.injEq] at hi
        exact absurd (hcarried.symm.trans hi.symm) hm
      next => cases hr

theorem carries_moved_of_signature :
    let symbol := "(Ljavax/servlet/Filter;Ljavax/servlet/DoesNotExist;)V"
    let exists? : Resolver := (· == "jakarta/servlet/Filter.class")
    let p := BuiltIn.tomcat.profile
    (fragments symbol.toList)[0]? = some "(Ljavax/servlet/Filter".toList ∧
      p.moved "(Ljavax/servlet/Filter".toList ≠ "(Ljavax/servlet/Filter".toList ∧
      p.isMissing exists? (p.moved "Ljavax/servlet/DoesNotExist".toList) = true ∧
      ∃ new, (p.migrateResolvable exists? symbol).bind ModifiedUtf8.decode? = some new ∧
        (fragments new.toList)[0]? = some (p.moved "(Ljavax/servlet/Filter".toList) := by
  intro symbol exists? p
  have ho : (fragments symbol.toList)[0]? = some "(Ljavax/servlet/Filter".toList := by decide +kernel
  have hm : p.moved "(Ljavax/servlet/Filter".toList ≠ "(Ljavax/servlet/Filter".toList := by decide +kernel
  exact ⟨ho, hm, by decide +kernel, (carries_moved_iff .tomcat exists? ho hm).2 (by decide +kernel)⟩

/-- The name of a class that exists begins with that of one that does not. -/
theorem not_carries_moved_of_prefix :
    let symbol := "Ljava/util/Map<Ljavax/servlet/Servlet;Ljavax/servlet/ServletContext;>;"
    let exists? : Resolver := (· == "jakarta/servlet/ServletContext.class")
    let p := BuiltIn.tomcat.profile
    let old := "Ljavax/servlet/ServletContext".toList
    (fragments symbol.toList)[2]? = some old ∧ p.moved old = "Ljakarta/servlet/ServletContext".toList ∧
      p.namedClass? (p.moved old) = some ("jakarta/servlet/ServletContext".toList, false) ∧
      exists? (resourcePath "jakarta/servlet/ServletContext".toList false) = true ∧
      ¬ ∃ new, (p.migrateResolvable exists? symbol).bind ModifiedUtf8.decode? = some new ∧
        (fragments new.toList)[2]? = some (p.moved old) := by
  intro symbol exists? p old
  have hnone : (p.migrateResolvable exists? symbol).bind ModifiedUtf8.decode? = none := by decide +kernel
  refine ⟨by decide +kernel, by decide +kernel, by decide +kernel, by decide +kernel, ?_⟩
  rw [hnone]
  rintro ⟨new, hnew, -⟩
  cases hnew

end NamespaceMigration.Profile
