import Mathlib.Data.List.Basic
import NamespaceMigration.Cache.Key
import NamespaceMigration.Proofs.Text.Octets
import NamespaceMigration.Proofs.Text.Search

namespace NamespaceMigration

namespace Bytes

lemma hexValue?_hexDigit {n : UInt8} (h : n.toNat < 16) : hexValue? (hexDigit n) = some n := by
  have := (by decide : ∀ m < 16, hexValue? (hexDigit (UInt8.ofNat m)) = some (UInt8.ofNat m)) n.toNat h
  rwa [UInt8.ofNat_toNat] at this

lemma halves (b : UInt8) : (b >>> 4).toNat < 16 ∧ (b &&& 15).toNat < 16 ∧ (b >>> 4) * 16 + (b &&& 15) = b := by
  have h := b.toNat_lt
  have hhigh : (b >>> 4).toNat = b.toNat / 16 := by
    simp [UInt8.toNat_shiftRight, Nat.shiftRight_eq_div_pow]
  have hlow : (b &&& 15).toNat = b.toNat % 16 := by
    simpa using Nat.and_two_pow_sub_one_eq_mod b.toNat 4
  refine ⟨by omega, by omega, UInt8.toNat_inj.1 ?_⟩
  rw [UInt8.toNat_add, UInt8.toNat_mul, hhigh, hlow]
  simp
  omega

lemma ofHex?_toHex (bs : Bytes) : ofHex? bs.toHex.toList = some bs := by
  rw [toHex, String.toList_ofList]
  induction bs with
  | nil => rfl
  | cons b bs ih =>
    obtain ⟨hhigh, hlow, hb⟩ := halves b
    simp only [List.flatMap_cons, List.cons_append, List.nil_append, ofHex?, hexValue?_hexDigit hhigh,
      hexValue?_hexDigit hlow, ih]
    simp [hb]

lemma toHex_inj {a b : Bytes} : a.toHex = b.toHex ↔ a = b := by
  constructor
  · intro h
    have ha := ofHex?_toHex a
    rw [h, ofHex?_toHex] at ha
    exact (Option.some.inj ha).symm
  · rintro rfl
    rfl

lemma zero_mem_utf8_iff {s : String} : 0 ∈ utf8 s ↔ '\x00' ∈ s.toList :=
  mem_utf8_iff_of_ascii (c := '\x00') (by decide)

end Bytes

namespace CacheKey

def message (identity : String) (content : Bytes) : Bytes := Bytes.utf8 identity ++ 0 :: content

variable {k l : String} {x y : Bytes}

lemma parse?_eq_some_iff {text : String} {key : CacheKey} : parse? text = some key ↔ key.text = text := by
  rw [parse?]
  constructor
  · intro h
    split at h
    next =>
      obtain rfl := Option.some.inj h
      rfl
    next => cases h
  · rintro rfl
    exact dif_pos key.isHash

lemma compute_inj : compute k x = compute l y ↔ Sha256.hash (message k x) = Sha256.hash (message l y) := by
  rw [CacheKey.mk.injEq]
  exact Bytes.toHex_inj

lemma message_inj (hk : '\x00' ∉ k.toList) (hl : '\x00' ∉ l.toList) (h : message k x = message l y) : k = l ∧ x = y := by
  rw [← Bytes.zero_mem_utf8_iff] at hk hl
  obtain ⟨ht, hx⟩ := (Text.append_cons_inj_of_notMem_left hk hl).1 h
  exact ⟨Bytes.utf8_inj.1 ht, hx⟩

end CacheKey

end NamespaceMigration
