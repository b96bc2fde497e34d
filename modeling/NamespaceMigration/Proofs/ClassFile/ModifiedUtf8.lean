import Mathlib.Data.List.Basic
import NamespaceMigration.ClassFile.ModifiedUtf8

/-! Decoding gives back the text that was encoded, by units and by the shortcut for plain octets. -/

namespace NamespaceMigration.ModifiedUtf8

section Units

variable {a b c : UInt8} {acc : List ℕ} {rest : Bytes}

lemma decodeUnitsFrom_one (ha : a.toNat < 0x80) :
    decodeUnitsFrom acc (a :: rest) = decodeUnitsFrom (a.toNat :: acc) rest := by
  rw [decodeUnitsFrom.eq_def]
  dsimp only
  rw [if_pos (UInt8.lt_iff_toNat_lt.2 ha)]

lemma decodeUnitsFrom_two (ha : 0xC0 ≤ a.toNat ∧ a.toNat < 0xE0) (hb : isTail b = true) :
    decodeUnitsFrom acc (a :: b :: rest) = decodeUnitsFrom ((a.toNat % 32 * 64 + b.toNat % 64) :: acc) rest := by
  have hlow : ¬ a < 0x80 := fun h => by
    have : a.toNat < 0x80 := UInt8.lt_iff_toNat_lt.1 h
    omega
  rw [decodeUnitsFrom.eq_def]
  dsimp only
  rw [if_neg hlow, if_pos ⟨UInt8.le_iff_toNat_le.2 ha.1, UInt8.lt_iff_toNat_lt.2 ha.2⟩, if_pos hb]

lemma decodeUnitsFrom_three (ha : 0xE0 ≤ a.toNat ∧ a.toNat < 0xF0) (hb : isTail b = true) (hc : isTail c = true) :
    decodeUnitsFrom acc (a :: b :: c :: rest) =
      decodeUnitsFrom ((a.toNat % 16 * 4096 + b.toNat % 64 * 64 + c.toNat % 64) :: acc) rest := by
  have hlow : ¬ a < 0x80 := fun h => by
    have : a.toNat < 0x80 := UInt8.lt_iff_toNat_lt.1 h
    omega
  have hmid : ¬ (0xC0 ≤ a ∧ a < 0xE0) := fun h => by
    have : a.toNat < 0xE0 := UInt8.lt_iff_toNat_lt.1 h.2
    omega
  rw [decodeUnitsFrom.eq_def]
  dsimp only
  rw [if_neg hlow, if_neg hmid, if_pos ⟨UInt8.le_iff_toNat_le.2 ha.1, UInt8.lt_iff_toNat_lt.2 ha.2⟩, hb, hc,
    Bool.and_self, if_pos rfl]

lemma toNat_ofNat_of_lt {n : ℕ} (h : n < 256) : (UInt8.ofNat n).toNat = n := by
  simpa using h

lemma isTail_ofNat {n : ℕ} (h : n < 64) : isTail (UInt8.ofNat (0x80 + n)) = true := by
  have hn := toNat_ofNat_of_lt (by omega : 0x80 + n < 256)
  have hlow : 0x80 ≤ UInt8.ofNat (0x80 + n) := UInt8.le_iff_toNat_le.2 (by rw [hn]; exact Nat.le_add_right _ _)
  have hhigh : UInt8.ofNat (0x80 + n) < 0xC0 := UInt8.lt_iff_toNat_lt.2 (by rw [hn]; change _ < 0xC0; omega)
  rw [isTail, Bool.and_eq_true, decide_eq_true_eq, decide_eq_true_eq]
  exact ⟨hlow, hhigh⟩

lemma decodeUnitsFrom_encodeUnit {u : ℕ} (hu : u < 65536) (acc : List ℕ) (rest : Bytes) :
    decodeUnitsFrom acc (encodeUnit u ++ rest) = decodeUnitsFrom (u :: acc) rest := by
  unfold encodeUnit
  split
  next h =>
    have ha := toNat_ofNat_of_lt (by omega : u < 256)
    rw [List.singleton_append, decodeUnitsFrom_one (by omega), ha]
  next h =>
    split
    next hs =>
      have ha := toNat_ofNat_of_lt (by omega : 0xC0 + u / 64 < 256)
      have hb := toNat_ofNat_of_lt (by omega : 0x80 + u % 64 < 256)
      have hval : (0xC0 + u / 64) % 32 * 64 + (0x80 + u % 64) % 64 = u := by omega
      rw [List.cons_append, List.singleton_append, decodeUnitsFrom_two (by omega) (isTail_ofNat (by omega)), ha, hb, hval]
    next hs =>
      have ha := toNat_ofNat_of_lt (by omega : 0xE0 + u / 4096 < 256)
      have hb := toNat_ofNat_of_lt (by omega : 0x80 + u / 64 % 64 < 256)
      have hc := toNat_ofNat_of_lt (by omega : 0x80 + u % 64 < 256)
      have hval : (0xE0 + u / 4096) % 16 * 4096 + (0x80 + u / 64 % 64) % 64 * 64 + (0x80 + u % 64) % 64 = u := by omega
      rw [List.cons_append, List.cons_append, List.singleton_append,
        decodeUnitsFrom_three (by omega) (isTail_ofNat (by omega)) (isTail_ofNat (by omega)), ha, hb, hc, hval]

lemma decodeUnits?_flatMap {us : List ℕ} (h : ∀ u ∈ us, u < 65536) : decodeUnits? (us.flatMap encodeUnit) = some us := by
  have hfrom : ∀ acc, decodeUnitsFrom acc (us.flatMap encodeUnit) = some (acc.reverse ++ us) := by
    induction us with
    | nil => simp [decodeUnitsFrom]
    | cons u us ih =>
      intro acc
      rw [List.flatMap_cons, decodeUnitsFrom_encodeUnit (h u (by simp)), ih fun v hv => h v (by simp [hv])]
      simp
  exact hfrom []

end Units

section Text

lemma toNat_bounds (c : Char) : c.toNat < 0xD800 ∨ 0xDFFF < c.toNat ∧ c.toNat < 0x110000 := c.valid

lemma not_surrogate (c : Char) : isHigh c.toNat = false ∧ isLow c.toNat = false := by
  have h := toNat_bounds c
  simp only [isHigh, isLow, Bool.and_eq_false_iff, decide_eq_false_iff_not]
  omega

lemma ofUnitsFrom_charUnits (c : Char) (acc : List Char) (rest : List ℕ) :
    ofUnitsFrom acc (charUnits c ++ rest) = ofUnitsFrom (c :: acc) rest := by
  have hc := toNat_bounds c
  unfold charUnits
  dsimp only
  split
  next h =>
    rw [List.singleton_append, ofUnitsFrom.eq_def]
    dsimp only
    rw [(not_surrogate c).1, (not_surrogate c).2, if_neg (by simp), if_neg (by simp), Char.ofNat_toNat]
  next h =>
    have hhigh : isHigh (0xD800 + (c.toNat - 0x10000) / 0x400) = true := by
      simp only [isHigh, Bool.and_eq_true, decide_eq_true_eq]
      omega
    have hlow : isLow (0xDC00 + (c.toNat - 0x10000) % 0x400) = true := by
      simp only [isLow, Bool.and_eq_true, decide_eq_true_eq]
      omega
    have hval : 0x10000 + (0xD800 + (c.toNat - 0x10000) / 0x400 - 0xD800) * 0x400 +
        (0xDC00 + (c.toNat - 0x10000) % 0x400 - 0xDC00) = c.toNat := by omega
    simp only [List.cons_append, List.nil_append, ofUnitsFrom, hhigh, hlow, hval, if_true, Char.ofNat_toNat]

lemma ofUnits?_units (s : List Char) : ofUnits? (units s) = some s := by
  have hfrom : ∀ acc, ofUnitsFrom acc (units s) = some (acc.reverse ++ s) := by
    induction s with
    | nil => simp [units, ofUnitsFrom]
    | cons c s ih =>
      intro acc
      rw [units, List.flatMap_cons, ofUnitsFrom_charUnits, ← units, ih]
      simp
  exact hfrom []

lemma lt_of_mem_units {s : List Char} {u : ℕ} (h : u ∈ units s) : u < 65536 := by
  obtain ⟨c, -, h⟩ := List.mem_flatMap.1 h
  have hc := toNat_bounds c
  simp only [charUnits] at h
  split at h
  · obtain rfl := List.mem_singleton.1 h
    assumption
  · simp only [List.mem_cons, List.not_mem_nil, or_false] at h
    omega

lemma decodeByUnits?_encodeChars (s : List Char) : decodeByUnits? (encodeChars s) = some (String.ofList s) := by
  rw [decodeByUnits?, encodeChars, decodeUnits?_flatMap fun u hu => lt_of_mem_units hu, Option.bind_some, ofUnits?_units,
    Option.map_some]

end Text

section Plain

lemma utf8EncodeChar_of_lt {c : Char} (hpos : c.toNat ≠ 0) (hsmall : c.toNat < 0x10000) :
    String.utf8EncodeChar c = (charUnits c).flatMap encodeUnit := by
  have hval : c.val.toNat = c.toNat := rfl
  rw [charUnits, if_pos hsmall, List.flatMap_cons, List.flatMap_nil, List.append_nil]
  simp only [String.utf8EncodeChar, encodeUnit, hval]
  by_cases h1 : c.toNat ≤ 127
  · rw [if_pos h1, if_pos ⟨by omega, h1⟩]
  · have h1' : ¬ (1 ≤ c.toNat ∧ c.toNat ≤ 127) := fun h => h1 h.2
    rw [if_neg h1, if_neg h1']
    by_cases h2 : c.toNat ≤ 2047
    · have ha : c.toNat / 64 % 32 + 192 = 0xC0 + c.toNat / 64 := by omega
      rw [if_pos h2, if_pos h2, ha, Nat.add_comm (c.toNat % 64) 128]
    · have ha : c.toNat / 4096 % 16 + 224 = 0xE0 + c.toNat / 4096 := by omega
      have h3 : c.toNat ≤ 65535 := by omega
      rw [if_neg h2, if_neg h2, if_pos h3, ha, Nat.add_comm (c.toNat / 64 % 64) 128, Nat.add_comm (c.toNat % 64) 128]

lemma utf8EncodeChar_eq {c : Char} (h : isPlain (String.utf8EncodeChar c) = true) :
    String.utf8EncodeChar c = (charUnits c).flatMap encodeUnit := by
  have hc := toNat_bounds c
  have hval : c.val.toNat = c.toNat := rfl
  refine utf8EncodeChar_of_lt (fun h0 => ?_) ?_
  · simp [String.utf8EncodeChar, hval, h0, isPlain] at h
  · by_contra hb
    have hlead := toNat_ofNat_of_lt (by omega : c.toNat / 262144 % 8 + 240 < 256)
    have hmem : UInt8.ofNat (c.toNat / 262144 % 8 + 240) ∈ String.utf8EncodeChar c := by
      simp only [String.utf8EncodeChar, hval]
      rw [if_neg (by omega), if_neg (by omega), if_neg (by omega)]
      exact List.mem_cons_self
    have hlt := List.all_eq_true.1 h _ hmem
    rw [Bool.and_eq_true, decide_eq_true_eq, UInt8.lt_iff_toNat_lt, hlead] at hlt
    have hlt : _ < 0xED := hlt.2
    omega

lemma decodeByUnits?_of_decodePlain? {bs : Bytes} {s : String} (h : decodePlain? bs = some s) :
    decodeByUnits? bs = some s := by
  unfold decodePlain? at h
  split at h
  next hp =>
    have hs : bs.toByteArray = s.toList.utf8Encode := by
      rw [Bytes.ofUtf8?, String.fromUTF8?] at h
      split at h
      next hv => rw [← Option.some.inj h, String.utf8Encode_toList]; rfl
      next => cases h
    have hflat : bs = s.toList.flatMap String.utf8EncodeChar := List.toByteArray_inj.1 hs
    have hplain : ∀ c ∈ s.toList, isPlain (String.utf8EncodeChar c) = true := by
      intro c hc
      rw [isPlain, List.all_eq_true] at hp ⊢
      exact fun b hb => hp b (hflat ▸ List.mem_flatMap.2 ⟨c, hc, hb⟩)
    have henc : bs = encodeChars s.toList := by
      rw [hflat, encodeChars, units, List.flatMap_assoc]
      exact List.flatMap_congr fun c hc => utf8EncodeChar_eq (hplain c hc)
    rw [henc, decodeByUnits?_encodeChars, String.ofList_toList]
  next => cases h

lemma decode?_encodeChars (s : List Char) : decode? (encodeChars s) = some (String.ofList s) := by
  unfold decode?
  split
  next t ht => rw [← decodeByUnits?_of_decodePlain? ht, decodeByUnits?_encodeChars]
  next => exact decodeByUnits?_encodeChars s

end Plain

section Encoded

lemma ne_zero_of_mem_encodeUnit {u : ℕ} (hu : u < 65536) {o : UInt8} (ho : o ∈ encodeUnit u) : o ≠ 0 := by
  have hne : ∀ n : ℕ, n < 256 → n ≠ 0 → UInt8.ofNat n ≠ 0 := by
    intro n hn h0 he
    exact h0 ((toNat_ofNat_of_lt hn).symm.trans (congrArg UInt8.toNat he))
  unfold encodeUnit at ho
  split at ho
  next h =>
    obtain rfl := List.mem_singleton.1 ho
    exact hne _ (by omega) (by omega)
  next =>
    split at ho
    next =>
      simp only [List.mem_cons, List.not_mem_nil, or_false] at ho
      rcases ho with rfl | rfl
      · exact hne _ (by omega) (by omega)
      · exact hne _ (by omega) (by omega)
    next =>
      simp only [List.mem_cons, List.not_mem_nil, or_false] at ho
      rcases ho with rfl | rfl | rfl
      · exact hne _ (by omega) (by omega)
      · exact hne _ (by omega) (by omega)
      · exact hne _ (by omega) (by omega)

lemma zero_notMem_encodeChars (s : List Char) : 0 ∉ encodeChars s := by
  intro h
  obtain ⟨u, hu, ho⟩ := List.mem_flatMap.1 h
  exact ne_zero_of_mem_encodeUnit (lt_of_mem_units hu) ho rfl

lemma decodePlain?_eq_some_iff {bs : Bytes} {s : String} :
    decodePlain? bs = some s ↔ 0 ∉ bs ∧ (∀ b ∈ bs, b < 0xED) ∧ Bytes.ofUtf8? bs = some s := by
  have hplain : isPlain bs = true ↔ 0 ∉ bs ∧ ∀ b ∈ bs, b < 0xED := by
    rw [isPlain, List.all_eq_true]
    simp only [Bool.and_eq_true, bne_iff_ne, decide_eq_true_eq, forall_and]
    exact and_congr_left fun _ => ⟨fun h h0 => h 0 h0 rfl, fun h b hb h0 => h (h0 ▸ hb)⟩
  rw [decodePlain?, ← and_assoc, ← hplain]
  split
  next hp => simp [hp]
  next hp => simp [hp]

/-- What is encoded has no zero octet and is decoded to what it was, and the shortcut for plain octets, where it is taken,
gives what decoding unit by unit gives. -/
theorem decode?_encode_and_decodePlain? :
    (∀ s : String, decode? (encode s) = some s ∧ decodeByUnits? (encode s) = some s ∧ 0 ∉ encode s) ∧
    ∀ (bs : Bytes) (s : String),
      (decodePlain? bs = some s ↔ 0 ∉ bs ∧ (∀ b ∈ bs, b < 0xED) ∧ Bytes.ofUtf8? bs = some s) ∧
      (decodePlain? bs = some s → decode? bs = some s ∧ decodeByUnits? bs = some s) := by
  refine ⟨fun s => ?_, fun bs s => ⟨decodePlain?_eq_some_iff, fun h => ⟨?_, decodeByUnits?_of_decodePlain? h⟩⟩⟩
  · have hs : some (String.ofList s.toList) = some s := congrArg some String.ofList_toList
    exact ⟨(decode?_encodeChars _).trans hs, (decodeByUnits?_encodeChars _).trans hs, zero_notMem_encodeChars _⟩
  · rw [decode?, h]

theorem decodePlain?_of_umlaut :
    decodePlain? (Bytes.utf8 "Größe") = some "Größe" ∧ decode? (Bytes.utf8 "Größe") = some "Größe" ∧
      decodeByUnits? (Bytes.utf8 "Größe") = some "Größe" := by
  have h : decodePlain? (Bytes.utf8 "Größe") = some "Größe" := by decide +kernel
  exact ⟨h, (decode?_encode_and_decodePlain?.2 _ _).2 h⟩

end Encoded

end NamespaceMigration.ModifiedUtf8
