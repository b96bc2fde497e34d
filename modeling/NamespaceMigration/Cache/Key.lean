import NamespaceMigration.Digest.Sha256

namespace NamespaceMigration

def isHashDigit (c : Char) : Bool := ('0' ≤ c && c ≤ '9') || ('a' ≤ c && c ≤ 'f')

def isHashText (text : String) : Bool := text.toList.length == 64 && text.toList.all isHashDigit

structure CacheKey where
  text : String
  isHash : isHashText text = true
  deriving DecidableEq, Repr

namespace CacheKey

theorem isHashDigit_hexDigit {n : UInt8} (h : n.toNat < 16) : isHashDigit (Bytes.hexDigit n) = true := by
  have := (by decide : ∀ m < 16, isHashDigit (Bytes.hexDigit (UInt8.ofNat m)) = true) n.toNat h
  rwa [UInt8.ofNat_toNat] at this

theorem isHashText_toHex {bs : Bytes} (h : bs.length = 32) : isHashText bs.toHex = true := by
  simp only [isHashText, Bytes.toHex, String.toList_ofList, Bool.and_eq_true, beq_iff_eq, List.all_eq_true]
  constructor
  · simp [List.length_flatMap, List.map_const', h]
  · intro c hc
    obtain ⟨b, _, hb⟩ := List.mem_flatMap.1 hc
    have high : (b >>> 4).toNat < 16 := by
      have := b.toNat_lt
      simp only [UInt8.toNat_shiftRight, Nat.shiftRight_eq_div_pow]
      simp
      omega
    have low : (b &&& 15).toNat < 16 := by
      simp only [UInt8.toNat_and]
      exact Nat.and_lt_two_pow b.toNat (by decide : (15 : UInt8).toNat < 2 ^ 4)
    simp only [List.mem_cons, List.not_mem_nil, or_false] at hb
    rcases hb with rfl | rfl
    · exact isHashDigit_hexDigit high
    · exact isHashDigit_hexDigit low

theorem length_hash (message : Bytes) : (Sha256.hash message).length = 32 := by
  simp [Sha256.hash, Sha256.State.toBytes]

def compute (identity : String) (content : Bytes) : CacheKey :=
  ⟨(Sha256.hash (Bytes.utf8 identity ++ 0 :: content)).toHex, isHashText_toHex (length_hash _)⟩

def parse? (text : String) : Option CacheKey := if h : isHashText text then some ⟨text, h⟩ else none

def shard (h : CacheKey) : String := String.ofList (h.text.toList.take 2)

def objectName (h : CacheKey) : String := h.text ++ ".jar"

end CacheKey

end NamespaceMigration
