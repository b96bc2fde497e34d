import Mathlib.Data.List.Basic
import NamespaceMigration.Bytes
import NamespaceMigration.Text.Utf8

/-! Texts as octets of UTF-8. -/

namespace NamespaceMigration

namespace Bytes

def ofChars (s : List Char) : Bytes := s.flatMap String.utf8EncodeChar

lemma utf8_eq_flatMap (s : String) : utf8 s = s.toList.flatMap String.utf8EncodeChar := by
  have h : s.toUTF8 = (s.toList.flatMap String.utf8EncodeChar).toByteArray := String.utf8Encode_toList.symm
  rw [utf8, h, List.data_toByteArray]

lemma ofUtf8?_utf8 (s : String) : ofUtf8? (utf8 s) = some s := by
  have h : (utf8 s).toByteArray = s.toByteArray := by
    rw [utf8_eq_flatMap]
    exact String.utf8Encode_toList
  have hv : (utf8 s).toByteArray.IsValidUTF8 := h ▸ s.isValidUTF8
  rw [ofUtf8?, String.fromUTF8?, dif_pos hv]
  exact congrArg some (String.toByteArray_inj.1 h)

lemma ofUtf8?_eq_some_iff {bs : Bytes} {s : String} : ofUtf8? bs = some s ↔ bs = utf8 s := by
  constructor
  · intro h
    rw [ofUtf8?, String.fromUTF8?] at h
    split at h
    next hv =>
      obtain rfl := Option.some.inj h
      change bs = bs.toByteArray.data.toList
      rw [List.data_toByteArray]
    next => cases h
  · rintro rfl
    exact ofUtf8?_utf8 s

lemma utf8_inj {s t : String} : utf8 s = utf8 t ↔ s = t := by
  constructor
  · intro h
    have hs := ofUtf8?_utf8 s
    rw [h, ofUtf8?_utf8] at hs
    exact (Option.some.inj hs).symm
  · rintro rfl
    rfl

lemma toNat_of_mem_utf8EncodeChar {c : Char} {b : UInt8} (h : b ∈ String.utf8EncodeChar c) :
    b.toNat = c.toNat ∨ 128 ≤ b.toNat := by
  have hval : c.val.toNat = c.toNat := rfl
  simp only [String.utf8EncodeChar, hval] at h
  split at h
  · obtain rfl := List.mem_singleton.1 h
    left
    rw [UInt8.toNat_ofNat']
    omega
  · right
    split at h
    · simp only [List.mem_cons, List.not_mem_nil, or_false] at h
      rcases h with rfl | rfl <;> (rw [UInt8.toNat_ofNat']; omega)
    · split at h
      · simp only [List.mem_cons, List.not_mem_nil, or_false] at h
        rcases h with rfl | rfl | rfl <;> (rw [UInt8.toNat_ofNat']; omega)
      · simp only [List.mem_cons, List.not_mem_nil, or_false] at h
        rcases h with rfl | rfl | rfl | rfl <;> (rw [UInt8.toNat_ofNat']; omega)

lemma length_utf8 (s : String) : (utf8 s).length = s.toList.foldr (fun c n => c.utf8Size + n) 0 := by
  rw [utf8_eq_flatMap]
  induction s.toList with
  | nil => rfl
  | cons c l ih => rw [List.flatMap_cons, List.length_append, String.length_utf8EncodeChar, ih, List.foldr_cons]

lemma utf8EncodeChar_of_ascii {c : Char} (hc : c.toNat < 128) : String.utf8EncodeChar c = [UInt8.ofNat c.toNat] := by
  have hval : c.val.toNat = c.toNat := rfl
  simp only [String.utf8EncodeChar, hval]
  rw [if_pos (by omega)]

lemma eq_of_mem_utf8EncodeChar {c d : Char} (hc : c.toNat < 128) (h : UInt8.ofNat c.toNat ∈ String.utf8EncodeChar d) : c = d := by
  have hn : (UInt8.ofNat c.toNat).toNat = c.toNat := by
    rw [UInt8.toNat_ofNat']
    omega
  have hdc := toNat_of_mem_utf8EncodeChar h
  rw [hn] at hdc
  exact Char.toNat_inj.1 (hdc.resolve_right (by omega))

lemma mem_utf8_iff_of_ascii {s : String} {c : Char} (hc : c.toNat < 128) : UInt8.ofNat c.toNat ∈ utf8 s ↔ c ∈ s.toList := by
  rw [utf8_eq_flatMap, List.mem_flatMap]
  constructor
  · rintro ⟨d, hd, h⟩
    obtain rfl := eq_of_mem_utf8EncodeChar hc h
    exact hd
  · intro h
    exact ⟨c, h, by simp [utf8EncodeChar_of_ascii hc]⟩

section Places

variable {s t : List Char} {c : Char} {b : UInt8} {k : ℕ} {rest : Bytes}

@[simp] lemma ofChars_nil : ofChars [] = [] := rfl

@[simp] lemma ofChars_cons (c : Char) (s : List Char) : ofChars (c :: s) = String.utf8EncodeChar c ++ ofChars s := rfl

@[simp] lemma ofChars_append (s t : List Char) : ofChars (s ++ t) = ofChars s ++ ofChars t := List.flatMap_append

lemma utf8_eq_ofChars (s : String) : utf8 s = ofChars s.toList := utf8_eq_flatMap s

lemma ofChars_toArray (s : List Char) : (ofChars s).toByteArray = s.utf8Encode := rfl

lemma prefix_of_ofChars_append (h : ofChars t ++ rest = ofChars s) : t <+: s := by
  refine List.isPrefix_of_utf8Encode_append_eq_utf8Encode rest.toByteArray ?_
  rw [← ofChars_toArray, ← ofChars_toArray, ← h, List.toByteArray_append]

lemma ofChars_prefix_iff : ofChars t <+: ofChars s ↔ t <+: s := by
  constructor
  · rintro ⟨rest, h⟩
    exact prefix_of_ofChars_append h
  · rintro ⟨rest, rfl⟩
    rw [ofChars_append]
    exact List.prefix_append _ _

lemma head?_utf8EncodeChar (c : Char) : ∃ b ∈ (String.utf8EncodeChar c).head?, b.IsUTF8FirstByte := by
  have hpos : 0 < (String.utf8EncodeChar c).length := by
    rw [String.length_utf8EncodeChar]
    exact c.utf8Size_pos
  refine ⟨(String.utf8EncodeChar c)[0], ?_, UInt8.isUTF8FirstByte_getElem_utf8EncodeChar.2 rfl⟩
  rw [List.head?_eq_getElem?, List.getElem?_eq_getElem hpos]
  rfl

lemma head?_ofChars_cons (c : Char) (s : List Char) : (ofChars (c :: s)).head? = (String.utf8EncodeChar c).head? := by
  obtain ⟨b, hb, -⟩ := head?_utf8EncodeChar c
  rw [ofChars_cons, List.head?_append, Option.mem_def.1 hb, Option.some_or]

lemma head?_ofChars_of_ascii (hc : c.toNat < 128) : (ofChars s).head? = some (UInt8.ofNat c.toNat) ↔ s.head? = some c := by
  cases s with
  | nil => simp
  | cons d s =>
    rw [head?_ofChars_cons, List.head?_cons]
    constructor
    · intro h
      rw [eq_of_mem_utf8EncodeChar hc (List.mem_of_head? h)]
    · intro h
      obtain rfl := Option.some.inj h
      rw [utf8EncodeChar_of_ascii hc, List.head?_cons]

lemma exists_append_of_first (hb : b ∈ ((ofChars s).drop k).head?) (hfirst : b.IsUTF8FirstByte) :
    ∃ u v, s = u ++ v ∧ k = (ofChars u).length := by
  induction s generalizing k with
  | nil => simp at hb
  | cons c s ih =>
    rw [ofChars_cons] at hb
    rcases Nat.lt_or_ge k (String.utf8EncodeChar c).length with hk | hk
    · rw [List.drop_append_of_le_length (Nat.le_of_lt hk), List.drop_eq_getElem_cons hk] at hb
      obtain rfl := Option.some.inj hb
      obtain rfl := UInt8.isUTF8FirstByte_getElem_utf8EncodeChar.1 hfirst
      exact ⟨[], c :: s, rfl, rfl⟩
    · obtain ⟨k, rfl⟩ := Nat.exists_eq_add_of_le hk
      rw [List.drop_length_add_append] at hb
      obtain ⟨u, v, rfl, rfl⟩ := ih hb
      exact ⟨c :: u, v, rfl, by rw [ofChars_cons, List.length_append]⟩

lemma exists_of_ofChars_prefix_drop (ht : t ≠ []) (h : ofChars t <+: (ofChars s).drop k) :
    ∃ u v, s = u ++ (t ++ v) ∧ k = (ofChars u).length := by
  obtain ⟨c, t, rfl⟩ := List.exists_cons_of_ne_nil ht
  obtain ⟨b, hb, hfirst⟩ := head?_utf8EncodeChar c
  have hhead : b ∈ ((ofChars s).drop k).head? := by
    obtain ⟨rest, hrest⟩ := h
    rw [← hrest, List.head?_append, head?_ofChars_cons, Option.mem_def.1 hb]
    rfl
  obtain ⟨u, v, rfl, rfl⟩ := exists_append_of_first hhead hfirst
  rw [ofChars_append, List.drop_left, ofChars_prefix_iff] at h
  obtain ⟨v, rfl⟩ := h
  exact ⟨u, v, rfl, rfl⟩

end Places

end Bytes

namespace Text

section Reading

variable {n k : ℕ}

lemma toNat_ofNat_of_lt (h : n < 256) : (UInt8.ofNat n).toNat = n := by
  rw [UInt8.toNat_ofNat']
  omega

lemma decodeChars_cons (state : Option Pending) (b : UInt8) (bs : Bytes) :
    decodeChars state (b :: bs) = (feed state b).1 ++ decodeChars (feed state b).2 bs := by
  cases state <;> rfl

section Continuing

variable {value : ℕ} {low high : UInt8} (hlow : low.toNat ≤ k % 64 + 128) (hhigh : k % 64 + 128 ≤ high.toNat)
include hlow hhigh

lemma feed_continuation (missing : ℕ) : feed (some ⟨value, missing, low, high⟩) (UInt8.ofNat (k % 64 + 128)) =
    if missing ≤ 1 then ([Char.ofNat (value * 64 + k % 64)], none)
    else ([], some ⟨value * 64 + k % 64, missing - 1, 0x80, 0xBF⟩) := by
  have hb := toNat_ofNat_of_lt (show k % 64 + 128 < 256 by omega)
  have hbits : (k % 64 + 128) % 64 = k % 64 := by omega
  have hrange : low ≤ UInt8.ofNat (k % 64 + 128) ∧ UInt8.ofNat (k % 64 + 128) ≤ high := by
    rw [UInt8.le_iff_toNat_le, UInt8.le_iff_toNat_le, hb]
    exact ⟨hlow, hhigh⟩
  rw [feed, if_pos hrange, hb, hbits]

lemma decodeChars_last (bs : Bytes) : decodeChars (some ⟨value, 1, low, high⟩) (UInt8.ofNat (k % 64 + 128) :: bs) =
    Char.ofNat (value * 64 + k % 64) :: decodeChars none bs := by
  rw [decodeChars_cons, feed_continuation hlow hhigh, if_pos (Nat.le_refl 1), List.singleton_append]

lemma decodeChars_more (missing : ℕ) (bs : Bytes) :
    decodeChars (some ⟨value, missing + 2, low, high⟩) (UInt8.ofNat (k % 64 + 128) :: bs) =
      decodeChars (some ⟨value * 64 + k % 64, missing + 1, 0x80, 0xBF⟩) bs := by
  rw [decodeChars_cons, feed_continuation hlow hhigh, if_neg (by omega), List.nil_append]
  rfl

end Continuing

lemma beginChar_of_two (hlow : 0x80 ≤ n) (hhigh : n < 0x800) :
    beginChar (UInt8.ofNat (n / 64 % 32 + 192)) = ([], some ⟨n / 64, 1, 0x80, 0xBF⟩) := by
  have hb := toNat_ofNat_of_lt (show n / 64 % 32 + 192 < 256 by omega)
  simp only [beginChar, UInt8.lt_iff_toNat_lt, hb]
  rw [if_neg (by simp), if_neg (by simp; omega), if_pos (by simp; omega)]
  simp
  omega

lemma exists_beginChar_of_three (hlow : 0x800 ≤ n) (hhigh : n < 0x10000) (hv : n < 0xD800 ∨ 0xDFFF < n) :
    ∃ low high, beginChar (UInt8.ofNat (n / 4096 % 16 + 224)) = ([], some ⟨n / 4096, 2, low, high⟩) ∧
      low.toNat ≤ n / 64 % 64 + 128 ∧ n / 64 % 64 + 128 ≤ high.toNat := by
  have hb := toNat_ofNat_of_lt (show n / 4096 % 16 + 224 < 256 by omega)
  have hvalue : (n / 4096 % 16 + 224) % 16 = n / 4096 := by omega
  simp only [beginChar, UInt8.lt_iff_toNat_lt, ← UInt8.toNat_inj, hb, hvalue]
  rw [if_neg (by simp), if_neg (by simp), if_neg (by simp)]
  -- the first and the last but two of these octets have ranges of their own
  by_cases hfirst : n / 4096 = 0
  · refine ⟨0xA0, 0xBF, if_pos (by simp; omega), ?_, ?_⟩ <;> (simp; omega)
  rw [if_neg (by simp; omega)]
  by_cases hsurrogate : n / 4096 = 13
  · refine ⟨0x80, 0x9F, if_pos (by simp; omega), ?_, ?_⟩ <;> (simp; try omega)
  rw [if_neg (by simp; omega)]
  refine ⟨0x80, 0xBF, if_pos (by simp; omega), ?_, ?_⟩ <;> (simp; try omega)

lemma exists_beginChar_of_four (hlow : 0x10000 ≤ n) (hhigh : n < 0x110000) :
    ∃ low high, beginChar (UInt8.ofNat (n / 262144 % 8 + 240)) = ([], some ⟨n / 262144, 3, low, high⟩) ∧
      low.toNat ≤ n / 4096 % 64 + 128 ∧ n / 4096 % 64 + 128 ≤ high.toNat := by
  have hb := toNat_ofNat_of_lt (show n / 262144 % 8 + 240 < 256 by omega)
  have hvalue : (n / 262144 % 8 + 240) % 8 = n / 262144 := by omega
  simp only [beginChar, UInt8.lt_iff_toNat_lt, ← UInt8.toNat_inj, hb, hvalue]
  rw [if_neg (by simp), if_neg (by simp), if_neg (by simp), if_neg (by simp), if_neg (by simp), if_neg (by simp)]
  by_cases hfirst : n / 262144 = 0
  · refine ⟨0x90, 0xBF, if_pos (by simp; omega), ?_, ?_⟩ <;> (simp; omega)
  rw [if_neg (by simp; omega)]
  by_cases hlast : n / 262144 = 4
  · rw [if_neg (by simp; omega)]
    refine ⟨0x80, 0x8F, if_pos (by simp; omega), ?_, ?_⟩ <;> (simp; try omega)
  refine ⟨0x80, 0xBF, if_pos (by simp; omega), ?_, ?_⟩ <;> (simp; try omega)

lemma decodeChars_utf8EncodeChar (c : Char) (bs : Bytes) :
    decodeChars none (String.utf8EncodeChar c ++ bs) = c :: decodeChars none bs := by
  have hv : c.toNat < 0xD800 ∨ 0xDFFF < c.toNat ∧ c.toNat < 0x110000 := c.valid
  have hval : c.val.toNat = c.toNat := rfl
  have hc : Char.ofNat c.toNat = c := Char.ofNat_toNat c
  simp only [String.utf8EncodeChar, hval]
  split_ifs with h1 h2 h3
  · have hb := toNat_ofNat_of_lt (show c.toNat < 256 by omega)
    have hascii : UInt8.ofNat c.toNat < 0x80 := by
      rw [UInt8.lt_iff_toNat_lt, hb]
      exact Nat.lt_succ_of_le h1
    rw [List.singleton_append, decodeChars_cons, feed, beginChar, if_pos hascii, hb, hc]
    rfl
  · have hbits : c.toNat / 64 * 64 + c.toNat % 64 = c.toNat := by omega
    rw [List.cons_append, decodeChars_cons, feed, beginChar_of_two (by omega) (by omega), List.nil_append, List.singleton_append,
      decodeChars_last (by simp) (by simp; omega), hbits, hc]
  · obtain ⟨low, high, hb, hl, hh⟩ := @exists_beginChar_of_three c.toNat (by omega) (by omega) (by omega)
    have hbits : (c.toNat / 4096 * 64 + c.toNat / 64 % 64) * 64 + c.toNat % 64 = c.toNat := by omega
    rw [List.cons_append, decodeChars_cons, feed, hb, List.nil_append, List.cons_append, decodeChars_more hl hh,
      List.singleton_append, decodeChars_last (by simp) (by simp; omega), hbits, hc]
  · obtain ⟨low, high, hb, hl, hh⟩ := @exists_beginChar_of_four c.toNat (by omega) (by omega)
    have hbits : ((c.toNat / 262144 * 64 + c.toNat / 4096 % 64) * 64 + c.toNat / 64 % 64) * 64 + c.toNat % 64 = c.toNat := by
      omega
    rw [List.cons_append, decodeChars_cons, feed, hb, List.nil_append, List.cons_append, decodeChars_more hl hh,
      List.cons_append, decodeChars_more (by simp) (by simp; omega), List.singleton_append,
      decodeChars_last (by simp) (by simp; omega), hbits, hc]

lemma decodeLossy_utf8 (s : String) : decodeLossy (Bytes.utf8 s) = s := by
  have hchars : ∀ l : List Char, decodeChars none (l.flatMap String.utf8EncodeChar) = l := by
    intro l
    induction l with
    | nil => rfl
    | cons c l ih => rw [List.flatMap_cons, decodeChars_utf8EncodeChar, ih]
  rw [decodeLossy, Bytes.utf8_eq_flatMap, hchars, String.ofList_toList]

end Reading

end Text

namespace RawText

variable {a b c r : RawText} {s t : String}

@[simp] lemma octets_ofText (s : String) : (ofText s).octets = Bytes.utf8 s := rfl

@[simp] lemma octets_append (a b : RawText) : (a ++ b).octets = a.octets ++ b.octets := rfl

lemma append_empty (a : RawText) : a ++ "" = a := RawText.ext (List.append_nil a.octets)

@[simp] lemma ofText_inj : ofText s = ofText t ↔ s = t := by
  rw [RawText.ext_iff]
  exact Bytes.utf8_inj

lemma text?_eq_some_iff : r.text? = some s ↔ r = ofText s := by
  rw [text?, Bytes.ofUtf8?_eq_some_iff, RawText.ext_iff, octets_ofText]

@[simp] lemma text?_ofText (s : String) : (ofText s).text? = some s := text?_eq_some_iff.2 rfl

@[simp] lemma shown_ofText (s : String) : (ofText s).shown = s := Text.decodeLossy_utf8 s

lemma le_trans (h : a ≤ b) (h' : b ≤ c) : a ≤ c := List.le_trans h h'

lemma le_total (a b : RawText) : a ≤ b ∨ b ≤ a := List.le_total a.octets b.octets

lemma le_antisymm (h : a ≤ b) (h' : b ≤ a) : a = b := RawText.ext (List.le_antisymm h h')

end RawText

namespace Text

open Bytes (ofChars)

lemma length_ofChars_cons (c : Char) (s : List Char) : (ofChars (c :: s)).length = c.utf8Size + (ofChars s).length := by
  rw [Bytes.ofChars_cons, List.length_append, String.length_utf8EncodeChar]

lemma dropOctets?_cons (c : Char) (n : ℕ) (s : List Char) : dropOctets? (c.utf8Size + n) (c :: s) = dropOctets? n s := by
  obtain ⟨m, hm⟩ := Nat.exists_eq_add_one_of_ne_zero (Nat.pos_iff_ne_zero.1 c.utf8Size_pos)
  rw [hm, Nat.add_right_comm, dropOctets?, hm, if_pos (by omega)]
  congr 1
  omega

lemma takeOctets?_cons (c : Char) (n : ℕ) (s : List Char) :
    takeOctets? (c.utf8Size + n) (c :: s) = (takeOctets? n s).map (c :: ·) := by
  obtain ⟨m, hm⟩ := Nat.exists_eq_add_one_of_ne_zero (Nat.pos_iff_ne_zero.1 c.utf8Size_pos)
  rw [hm, Nat.add_right_comm, takeOctets?, hm, if_pos (by omega)]
  congr 2
  omega

lemma dropOctets?_append (a b : List Char) : dropOctets? (ofChars a).length (a ++ b) = some b := by
  induction a with
  | nil => rw [Bytes.ofChars_nil, List.nil_append, List.length_nil, dropOctets?]
  | cons c a ih => rw [length_ofChars_cons, List.cons_append, dropOctets?_cons, ih]

lemma takeOctets?_append (a b : List Char) : takeOctets? (ofChars a).length (a ++ b) = some a := by
  induction a with
  | nil => rw [Bytes.ofChars_nil, List.nil_append, List.length_nil, takeOctets?]
  | cons c a ih => rw [length_ofChars_cons, List.cons_append, takeOctets?_cons, ih, Option.map_some]

lemma sliceFrom?_append (a b : List Char) : sliceFrom? (a ++ b) (ofChars a).length = some (String.ofList b) := by
  rw [sliceFrom?, dropOctets?_append, Option.map_some]

lemma slice?_append (a b c : List Char) :
    slice? (a ++ (b ++ c)) (ofChars a).length ((ofChars a).length + (ofChars b).length) = some (String.ofList b) := by
  rw [slice?, dropOctets?_append, Nat.add_sub_cancel_left, Option.bind_eq_bind, Option.bind_some, takeOctets?_append]
  rfl

def IsPlace (s : List Char) (place : ℕ) (after : List Char) : Prop := ∃ before, s = before ++ after ∧ place = (ofChars before).length

namespace IsPlace

variable {s t after : List Char} {c : Char} {place : ℕ}

lemma zero (s : List Char) : IsPlace s 0 s := ⟨[], rfl, rfl⟩

lemma of_append (h : IsPlace s place (t ++ after)) : IsPlace s (place + (ofChars t).length) after := by
  obtain ⟨before, rfl, rfl⟩ := h
  exact ⟨before ++ t, (List.append_assoc _ _ _).symm, by rw [Bytes.ofChars_append, List.length_append]⟩

lemma of_cons (hc : c.toNat < 128) (h : IsPlace s place (c :: after)) : IsPlace s (place + 1) after := by
  have hc : (ofChars [c]).length = 1 := by simp [Bytes.utf8EncodeChar_of_ascii hc]
  exact hc ▸ of_append (t := [c]) h

lemma getElem? (h : IsPlace s place after) : (ofChars s)[place]? = (ofChars after).head? := by
  obtain ⟨before, rfl, rfl⟩ := h
  rw [Bytes.ofChars_append, List.getElem?_append_right (Nat.le_refl _), Nat.sub_self, List.head?_eq_getElem?]

lemma eq_length_iff (h : IsPlace s place after) : place = (ofChars s).length ↔ after = [] := by
  obtain ⟨before, rfl, rfl⟩ := h
  rw [Bytes.ofChars_append, List.length_append]
  cases after with
  | nil => simp
  | cons c after =>
    have hc := c.utf8Size_pos
    rw [length_ofChars_cons]
    simp
    omega

lemma sliceFrom? (h : IsPlace s place after) : Text.sliceFrom? s place = some (String.ofList after) := by
  obtain ⟨before, rfl, rfl⟩ := h
  exact sliceFrom?_append before after

end IsPlace

end Text

end NamespaceMigration
