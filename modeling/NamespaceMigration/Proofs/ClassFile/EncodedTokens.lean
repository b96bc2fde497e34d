import NamespaceMigration.Proofs.ClassFile.ShortAscii

/-! Migration of encoded texts. -/

namespace NamespaceMigration.ModifiedUtf8

variable {c : Char} {s : List Char} {p : Profile} {drop keep n : ℕ}

section Encoding

lemma encodeChars_append (s t : List Char) : encodeChars (s ++ t) = encodeChars s ++ encodeChars t := by
  simp [encodeChars, units]

lemma encodeChars_cons (c : Char) (s : List Char) : encodeChars (c :: s) = encodeChars [c] ++ encodeChars s :=
  encodeChars_append [c] s

lemma encodeChars_singleton_of_isAscii (h : isAscii c = true) : encodeChars [c] = [UInt8.ofNat c.toNat] := by
  have hc : 0 < c.toNat ∧ c.toNat < 0x80 := by simpa [isAscii] using h
  have hunits : charUnits c = [c.toNat] := if_pos (by omega)
  have hunit : encodeUnit c.toNat = [UInt8.ofNat c.toNat] := if_pos (by omega)
  rw [encodeChars, units, List.flatMap_singleton, hunits, List.flatMap_singleton, hunit]

lemma le_of_mem_encodeUnit {u : ℕ} (hu : u < 65536) (h : u = 0 ∨ 0x80 ≤ u) {o : UInt8} (ho : o ∈ encodeUnit u) : 0x80 ≤ o.toNat := by
  rw [encodeUnit, if_neg (by omega)] at ho
  split at ho
  next =>
    simp only [List.mem_cons, List.not_mem_nil, or_false] at ho
    rcases ho with rfl | rfl
    · rw [toNat_ofNat_of_lt (by omega)]
      omega
    · rw [toNat_ofNat_of_lt (by omega)]
      omega
  next =>
    simp only [List.mem_cons, List.not_mem_nil, or_false] at ho
    rcases ho with rfl | rfl | rfl
    · rw [toNat_ofNat_of_lt (by omega)]
      omega
    · rw [toNat_ofNat_of_lt (by omega)]
      omega
    · rw [toNat_ofNat_of_lt (by omega)]
      omega

lemma le_of_mem_encodeChars_singleton (h : isAscii c = false) : ∀ o ∈ encodeChars [c], 0x80 ≤ o.toNat := by
  intro o ho
  obtain ⟨u, hu, ho⟩ := List.mem_flatMap.1 ho
  have hlt := lt_of_mem_units hu
  refine le_of_mem_encodeUnit hlt ?_ ho
  rw [units, List.flatMap_singleton, charUnits] at hu
  have hc : c.toNat = 0 ∨ 0x80 ≤ c.toNat := by
    simp only [isAscii, Bool.and_eq_false_iff, decide_eq_false_iff_not] at h
    omega
  split at hu
  next =>
    obtain rfl := List.mem_singleton.1 hu
    exact hc
  next =>
    simp only [List.mem_cons, List.not_mem_nil, or_false] at hu
    omega

lemma countP_encodeChars (s : List Char) : s.countP isAscii = (encodeChars s).countP isAsciiOctet := by
  induction s with
  | nil => rfl
  | cons c s ih =>
    rw [encodeChars_cons, List.countP_cons, List.countP_append, ← ih, Nat.add_comm]
    congr 1
    cases hc : isAscii c with
    | true =>
      have hoctet : isAsciiOctet (UInt8.ofNat c.toNat) = true := by
        have h : 0 < c.toNat ∧ c.toNat < 0x80 := by simpa [isAscii] using hc
        rw [isAsciiOctet, toNat_ofNat_of_lt (by omega)]
        simpa using h
      rw [encodeChars_singleton_of_isAscii hc, List.countP_singleton, hoctet]
    | false =>
      rw [countP_octets (le_of_mem_encodeChars_singleton hc)]
      rfl

lemma short_encodeChars (s : List Char) : Short (encodeChars s) s := by
  have hspells := decode?_eq_some_iff.1 (decode?_encodeChars s)
  rw [String.toList_ofList] at hspells
  exact hspells.short (countP_encodeChars s)

lemma encodeChars_spell {word : String} (hw : IsPlain word) : encodeChars (Alphabet.spell word) = Alphabet.spell word := by
  have hlist : ∀ cs : List Char, (∀ c ∈ cs, isAscii c = true) → encodeChars cs = cs.map fun c => UInt8.ofNat c.toNat := by
    intro cs hcs
    induction cs with
    | nil => rfl
    | cons c cs ih =>
      rw [encodeChars_cons, encodeChars_singleton_of_isAscii (hcs c (by simp)), ih fun d hd => hcs d (by simp [hd])]
      rfl
  rw [Profile.spell_octets hw.isAscii]
  exact hlist word.toList hw

lemma encode_inj {s t : String} : encode s = encode t ↔ s = t := by
  constructor
  · intro h
    have hs := decode?_encodeChars s.toList
    rw [← encode, h, encode, decode?_encodeChars, String.ofList_toList, String.ofList_toList] at hs
    exact (Option.some.inj hs).symm
  · rintro rfl
    rfl

end Encoding

section Passing

lemma isAscii_of_matchLength? (hp : Plain p) (h : Profile.matchLength? p.rules (Alphabet.spell p.source) s = some n) :
    ∀ c ∈ s.take n, isAscii c = true := by
  obtain ⟨r, hr, after, m, rfl, hm, rfl⟩ := Profile.matchLength?_eq_some h
  have hwoven : Profile.Woven r fun w : List Char => ∀ c ∈ w, isAscii c = true := by
    refine ⟨by simp, fun a b ha hb c hc => (List.mem_append.1 hc).elim (ha c) (hb c), fun c hc d hd => ?_, fun word hw => ?_⟩
    · rw [List.mem_singleton.1 hd]
      exact Bool.of_not_eq_false fun hno => absurd hc (by simp [isSeparator_of_not_ascii hno])
    · exact hp.of_mem hr hw
  obtain ⟨w, rest, rfl, rfl, hw⟩ := hwoven.exists_of_matchLength? hm
  rw [← List.append_assoc, ← List.length_append, List.take_left]
  intro c hc
  exact (List.mem_append.1 hc).elim (hp p.source (by simp) c) (hw c)

theorem pass_encodeChars (hp : Plain p) (hs : (Alphabet.spell p.source : List Char) ≠ [])
    (h : ∀ c ∈ s.take (drop + keep), isAscii c = true) :
    p.pass drop keep (encodeChars s) = encodeChars (p.pass drop keep s) := by
  have hsource : IsPlain p.source := hp p.source (by simp)
  have hlen := length_spell_octets hsource
  have hpos := List.length_pos_iff.2 hs
  have hs' : (Alphabet.spell p.source : Bytes) ≠ [] := List.length_pos_iff.1 (hlen ▸ hpos)
  -- inside a match both passes go on by one symbol, since all of its characters are of one octet
  induction s generalizing drop keep with
  | nil => cases drop <;> cases keep <;> rfl
  | cons c s ih =>
    match drop, keep with
    | drop + 1, keep =>
      rw [Nat.add_right_comm, List.take_succ_cons, List.forall_mem_cons] at h
      rw [encodeChars_cons, encodeChars_singleton_of_isAscii h.1]
      exact ih h.2
    | 0, keep + 1 =>
      rw [Nat.zero_add, List.take_succ_cons, List.forall_mem_cons] at h
      have hrest := @ih 0 keep (by simpa using h.2)
      have hkeep : p.pass 0 (keep + 1) (c :: s) = c :: p.pass 0 keep s := rfl
      rw [hkeep, encodeChars_cons c s, encodeChars_cons c (p.pass 0 keep s), encodeChars_singleton_of_isAscii h.1, ← hrest]
      rfl
    | 0, 0 =>
      have hoctets := matchLength?_of_short hp (short_encodeChars (c :: s))
      have hrest := @ih 0 0 (by simp)
      cases hn : Profile.matchLength? p.rules (Alphabet.spell p.source) (c :: s) with
      | none =>
        rw [hn, encodeChars_cons] at hoctets
        rw [Profile.pass_cons hn, encodeChars_cons c s, encodeChars_cons c (p.pass 0 0 s), ← hrest]
        cases hc : isAscii c with
        | true =>
          rw [encodeChars_singleton_of_isAscii hc, List.singleton_append] at hoctets ⊢
          rw [Profile.pass_cons hoctets, List.singleton_append]
        | false =>
          -- no token begins inside the octets of one character
          have hclear := Profile.clear_of_octets hsource.isAscii hs' (le_of_mem_encodeChars_singleton hc)
          rw [(Profile.pass_append_of_clear hclear _).2]
      | some n =>
        have hascii := isAscii_of_matchLength? hp hn
        have hwidth := (Profile.bounds_of_matchLength? hn).1
        obtain ⟨m, rfl⟩ := Nat.exists_eq_add_one_of_ne_zero (by omega : n ≠ 0)
        have hsum : (Alphabet.spell p.source : List Char).length - 1 + (m + 1 - (Alphabet.spell p.source : List Char).length) = m := by
          omega
        rw [List.take_succ_cons, List.forall_mem_cons] at hascii
        have hmatch := @ih _ _ (hsum.symm ▸ hascii.2)
        rw [hn, encodeChars_cons, encodeChars_singleton_of_isAscii hascii.1, List.singleton_append] at hoctets
        rw [encodeChars_cons, encodeChars_singleton_of_isAscii hascii.1, List.singleton_append, Profile.pass_cons_of_match hoctets,
          Profile.pass_cons_of_match hn, hlen, hmatch, encodeChars_append, encodeChars_spell (hp p.target (by simp))]

lemma value_migrateBytes_encode (hp : Plain p) (s : String) :
    (p.migrateBytes (encode s)).value = encode (p.migrate s).value := by
  have hlen : (Alphabet.spell p.source : Bytes).length = (Alphabet.spell p.source : List Char).length :=
    length_spell_octets (hp p.source (by simp))
  rw [Profile.migrateBytes, Profile.migrate]
  by_cases hs : (Alphabet.spell p.source : List Char) = []
  · have hs' : (Alphabet.spell p.source : Bytes) = [] := List.length_eq_zero_iff.1 (by rw [hlen, hs, List.length_nil])
    rw [Profile.migrateSymbols_of_source_eq_nil hs', Profile.migrateSymbols_of_source_eq_nil hs, String.ofList_toList]
  cases ht : p.isTrivial with
  | true => rw [Profile.migrateSymbols_of_isTrivial ht, Profile.migrateSymbols_of_isTrivial ht, String.ofList_toList]
  | false =>
    have hs' : (Alphabet.spell p.source : Bytes) ≠ [] := List.length_pos_iff.1 (hlen ▸ List.length_pos_iff.2 hs)
    have hpass : p.pass 0 0 (encodeChars s.toList) = encodeChars (p.pass 0 0 s.toList) := pass_encodeChars hp hs (by simp)
    rw [Profile.value_migrateSymbols p hs' ht, Profile.value_migrateSymbols p hs ht, encode, hpass, encode, String.toList_ofList]

/-- To migrate an encoded text is to migrate the text and to encode it then, for every profile of plain characters. -/
theorem migrateBytes_encode (hp : Plain p) (s : String) :
    p.migrateBytes (encode s) = ⟨encode (p.migrate s).value, (p.migrate s).changed⟩ := by
  have hvalue := value_migrateBytes_encode hp s
  have hchanged : (p.migrateBytes (encode s)).changed = (p.migrate s).changed := by
    have htext : (p.migrate s).value = s ↔ (p.migrateSymbols s.toList).value = s.toList := by
      rw [← String.toList_inj, Profile.migrate, String.toList_ofList]
    have hoctets := Profile.changed_iff_value_ne (p := p) (s := encode s) Bytes.utf8_inj.1
    have hchars := Profile.changed_iff_value_ne (p := p) (s := s.toList) String.toList_inj.1
    rw [← Profile.migrateBytes, hvalue, Ne, encode_inj, htext] at hoctets
    rw [Bool.eq_iff_iff, hoctets]
    exact hchars.symm
  rw [← hvalue, ← hchanged]

theorem migrateBytes_encode_of_surrogates :
    let p : Profile := ⟨"N", "java-x", "jakarta", [⟨["xml bind"], [["L_1"]], ["$"]⟩]⟩
    Plain p ∧ p.migrateBytes (encode "\x00java-x.xml bind/L_1😀java-x") = ⟨encode "\x00jakarta.xml bind/L_1😀java-x", true⟩ := by
  intro p
  have hp : Plain p := by decide +kernel
  have htext : p.migrate "\x00java-x.xml bind/L_1😀java-x" = ⟨"\x00jakarta.xml bind/L_1😀java-x", true⟩ := by decide +kernel
  have h := migrateBytes_encode hp "\x00java-x.xml bind/L_1😀java-x"
  rw [htext] at h
  exact ⟨hp, h⟩

end Passing

end NamespaceMigration.ModifiedUtf8
