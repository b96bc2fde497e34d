import NamespaceMigration.Proofs.Manifest.RoundTrip

namespace NamespaceMigration.Manifest

variable {p : Profile} {m r : Manifest} {s : Section} {path : String} {source : Bytes} {c : Conversion}

def DigestFree (m : Manifest) : Prop := ∀ s ∈ m.sections, ∀ a ∈ s.attributes, ¬ "-digest".toList <:+ (Text.lower a.1).toList

def signatureVersions (m : Manifest) : ℕ := m.main.attributes.countP fun a => Text.sameLetters a.1 "Signature-Version"

lemma isDigestName_iff {name : String} : isDigestName name = true ↔ "-digest".toList <:+ (Text.lower name).toList :=
  Text.strip?_reverse_isSome_iff

lemma isDigestName_eq_false_of_sameLetters {name : String} (h : Text.sameLetters name "Signature-Version" = true) :
    isDigestName name = false := by
  rw [isDigestName, beq_iff_eq.1 h]
  decide

lemma digestFree_migrated (p : Profile) (m : Manifest) : (migrated p m).DigestFree := by
  refine List.forall_mem_cons.2 ⟨fun a ha => ?_, fun s hs a ha => ?_⟩
  · rw [← isDigestName_iff, Bool.not_eq_true]
    simpa using (List.mem_filter.1 ha).2
  · have hs := (List.mem_filter.1 hs).2
    rw [Bool.not_eq_true', hasDigest, List.any_eq_false] at hs
    rw [← isDigestName_iff]
    exact hs a ha

section Counting

variable {α : Type} {f g : α → Bool}

lemma countP_eraseP (l : List α) : (l.eraseP f).countP f = l.countP f - 1 := by
  induction l with
  | nil => rfl
  | cons a l ih =>
    rw [List.eraseP_cons, List.countP_cons]
    by_cases ha : f a = true
    · simp [ha]
    · simp [ha, ih]

lemma countP_filter_of_imp (h : ∀ a, f a = true → g a = true) (l : List α) : (l.filter g).countP f = l.countP f := by
  rw [List.countP_filter]
  congr 1
  funext a
  by_cases ha : f a = true
  · simp [ha, h a ha]
  · simp [ha]

end Counting

lemma signatureVersions_eq_of_names (h : r.main.attributes.map Prod.fst = m.main.attributes.map Prod.fst) :
    r.signatureVersions = m.signatureVersions := by
  have hcount : ∀ n : Manifest, n.signatureVersions =
      (n.main.attributes.map Prod.fst).countP fun name => Text.sameLetters name "Signature-Version" := by
    intro n
    rw [List.countP_map]
    rfl
  rw [hcount, hcount, h]

lemma signatureVersions_migrated (p : Profile) (m : Manifest) :
    (migrated p m).signatureVersions = m.signatureVersions - 1 := by
  have hnames : (updated p m).signatureVersions = m.signatureVersions :=
    signatureVersions_eq_of_names (map_fst_of_updates (forall₂_updates p m.main))
  rw [← hnames, signatureVersions, signatureVersions, ← countP_eraseP]
  apply countP_filter_of_imp
  intro a ha
  simp [isDigestName_eq_false_of_sameLetters ha]

lemma map_fst_map_readBack (l : List (String × String)) : (l.map readBack).map Prod.fst = l.map Prod.fst := by
  rw [List.map_map]
  rfl

lemma DigestFree.readBackAll (h : m.DigestFree) : (readBackAll m).DigestFree := by
  have hback : ∀ l : List (String × String), (∀ a ∈ l, ¬ "-digest".toList <:+ (Text.lower a.1).toList) →
      ∀ b ∈ l.map readBack, ¬ "-digest".toList <:+ (Text.lower b.1).toList := by
    intro l hl b hb
    obtain ⟨a, ha, rfl⟩ := List.mem_map.1 hb
    exact hl a ha
  obtain ⟨hmain, hentries⟩ := List.forall_mem_cons.1 h
  refine List.forall_mem_cons.2 ⟨hback _ fun a ha => hmain a ((versionFirst_perm _).mem_iff.1 ha), fun s hs => ?_⟩
  obtain ⟨t, ht, rfl⟩ := List.mem_map.1 hs
  exact hback _ (hentries t ht)

lemma signatureVersions_readBackAll (m : Manifest) : (readBackAll m).signatureVersions = m.signatureVersions := by
  have hnames : (readBackAll m).signatureVersions = m.arranged.signatureVersions :=
    signatureVersions_eq_of_names (map_fst_map_readBack _)
  rw [hnames]
  exact (versionFirst_perm _).countP_eq _

/-- No digest is left of a manifest that is converted, and its signature versions but for the first, in what is written as
well as in what was already without signatures and is kept; and so it is read again, if no value breaks lines and no mark
comes first. -/
theorem signatures_of_convert (hp : p.isTrivial = false) (h : convert p path source = .ok c) :
    ∃ m, parse source = .ok m ∧
      (c.replacement = none ∧ migrated p m = m ∨ c.replacement = some (migrated p m).toBytes) ∧
      (migrated p m).DigestFree ∧ (migrated p m).signatureVersions = m.signatureVersions - 1 ∧
      ((∀ s ∈ (migrated p m).sections, ∀ a ∈ s.attributes, Unbroken a.2.toList) →
        (∀ a ∈ (versionFirst (migrated p m).main.attributes).head?, a.1.toList.head? ≠ some mark) →
        ∀ r, parse (c.bytes source) = .ok r → r.DigestFree ∧ r.signatureVersions = m.signatureVersions - 1) := by
  rw [convert, mapError_eq_ok_iff, convertBytes, if_neg (by simp [hp])] at h
  obtain ⟨m, hm, h⟩ := bind_eq_ok_iff.1 h
  have hfree := digestFree_migrated p m
  have hcount := signatureVersions_migrated p m
  refine ⟨m, hm, ?_⟩
  by_cases hkept : migrated p m = m
  · rw [if_pos hkept] at h
    obtain rfl := Except.ok.inj h
    refine ⟨.inl ⟨rfl, hkept⟩, hfree, hcount, fun _ _ r hr => ?_⟩
    obtain rfl : m = r := Except.ok.inj (hm.symm.trans hr)
    rw [hkept] at hfree hcount
    exact ⟨hfree, hcount⟩
  · rw [if_neg hkept] at h
    obtain rfl := Except.ok.inj h
    refine ⟨.inr rfl, hfree, hcount, fun hv hmark r hr => ?_⟩
    have hwritable := writable_migrated_of_unbroken hm hv
    have hhead : (migrated p m).writeChars.head? ≠ some mark := by
      rw [ne_eq, head?_writeChars_eq_mark_iff hwritable]
      rintro ⟨a, ha, he⟩
      exact hmark a ha he
    obtain ⟨-, -, rfl⟩ := (parse_toBytes_eq_ok_iff hwritable hhead).1 hr
    exact ⟨hfree.readBackAll, (signatureVersions_readBackAll _).trans hcount⟩

lemma bytes_replaced (bytes : Bytes) (changed : Bool) (source : Bytes) :
    (Conversion.replaced bytes changed).bytes source = bytes := rfl

theorem signatures_of_convert_signed :
    let source := Bytes.utf8 "signature-version: 1\nA-Digest: x\nB: y\n\nName: c\nD-digest: z\n\nName: d\n"
    ∃ c r, convert BuiltIn.tomcatProfile fileName source = .ok c ∧ parse (c.bytes source) = .ok r ∧
      r = ⟨⟨[("B", "y")]⟩, [⟨[("Name", "d")]⟩]⟩ ∧ r.DigestFree ∧ r.signatureVersions = 0 := by
  intro source
  let m : Manifest := ⟨⟨[("signature-version", "1"), ("A-Digest", "x"), ("B", "y")]⟩,
    [⟨[("Name", "c"), ("D-digest", "z")]⟩, ⟨[("Name", "d")]⟩]⟩
  have hm : parse source = .ok m := by
    rw [parse_utf8]
    exact eq_ok_of_toOption_eq_some (by decide +kernel)
  have hc := convert_eq_replaced (p := BuiltIn.tomcatProfile) (by decide) hm (by decide +kernel) fileName
  have hread : parse (migrated BuiltIn.tomcatProfile m).toBytes = .ok ⟨⟨[("B", "y")]⟩, [⟨[("Name", "d")]⟩]⟩ := by
    rw [parse_toBytes]
    exact eq_ok_of_toOption_eq_some (by decide +kernel)
  obtain ⟨n, hn, -, -, -, hall⟩ := signatures_of_convert (by decide) hc
  obtain rfl : m = n := Except.ok.inj (hm.symm.trans hn)
  rw [bytes_replaced] at hall
  obtain ⟨hfree, hcount⟩ := hall (by decide +kernel) (by decide +kernel) _ hread
  have hone : m.signatureVersions = 1 := by decide +kernel
  rw [hone] at hcount
  refine ⟨_, _, hc, ?_, rfl, hfree, hcount⟩
  rw [bytes_replaced]
  exact hread

/-- Of two signature versions one is left. -/
theorem signatures_of_convert_repeated :
    let source := Bytes.utf8 "Manifest-Version: 1.0\nSignature-Version: 1.0\nSignature-Version: 1.0\n"
    ∃ c r, convert BuiltIn.tomcatProfile fileName source = .ok c ∧ parse (c.bytes source) = .ok r ∧
      ("Signature-Version", "1.0") ∈ r.main.attributes := by
  intro source
  let m : Manifest := ⟨⟨[("Manifest-Version", "1.0"), ("Signature-Version", "1.0"), ("Signature-Version", "1.0")]⟩, []⟩
  let r : Manifest := ⟨⟨[("Manifest-Version", "1.0"), ("Signature-Version", "1.0")]⟩, []⟩
  have hm : parse source = .ok m := by
    rw [parse_utf8]
    exact eq_ok_of_toOption_eq_some (by decide +kernel)
  have hread : parse (migrated BuiltIn.tomcatProfile m).toBytes = .ok r := by
    rw [parse_toBytes]
    exact eq_ok_of_toOption_eq_some (by decide +kernel)
  have hc := convert_eq_replaced (p := BuiltIn.tomcatProfile) (by decide) hm (by decide +kernel) fileName
  refine ⟨_, r, hc, ?_, by simp [r]⟩
  rw [bytes_replaced]
  exact hread

end NamespaceMigration.Manifest
