import NamespaceMigration.Proofs.Cache.Objects
import NamespaceMigration.Proofs.Text.Search

namespace NamespaceMigration.CacheLayout

variable {root p : Place} {stem stem' : String} {owner owner' count count' n n' : ℕ}
  {pending : Option Place}

lemma isTemporary_temporaryName (stem : String) (owner n : ℕ) : isTemporary (.ofText (temporaryName stem owner n)) = true := by
  rw [isTemporary, RawText.text?_ofText, Option.any_some, Text.contains, Text.findTail?_isSome_iff, temporaryName]
  refine ⟨stem.toList, (toString owner ++ "." ++ toString n).toList, ?_⟩
  simp [String.toList_append]

lemma length_shard (key : CacheKey) : key.shard.toList.length = 2 := by
  have h := key.isHash
  rw [isHashText, Bool.and_eq_true, beq_iff_eq] at h
  rw [CacheKey.shard, String.toList_ofList, List.length_take, h.1]
  rfl

lemma isTemporary_shard (key : CacheKey) : isTemporary (.ofText key.shard) = false := by
  rw [← Bool.not_eq_true, isTemporary, RawText.text?_ofText, Option.any_some, Text.contains, Text.findTail?_isSome_iff]
  intro h
  have hlen := h.length_le
  rw [length_shard] at hlen
  exact absurd hlen (by decide)

lemma ne_shard {text : String} (h : text.toList.length ≠ 2) (key : CacheKey) : RawText.ofText text ≠ .ofText key.shard := by
  intro he
  obtain rfl := RawText.ofText_inj.1 he
  exact h (length_shard key)

lemma ne_of_prefix_shardPlace {text : String} {key : CacheKey} (h : text.toList.length ≠ 2)
    (hp : p <+: shardPlace root key) : p ≠ root ++ [RawText.ofText text] := by
  rintro rfl
  rcases List.prefix_concat_iff.1 hp with heq | hp
  · exact ne_shard h key (by simpa using heq)
  · have hlen := hp.length_le
    rw [List.length_append] at hlen
    exact absurd hlen (Nat.not_succ_le_self _)

lemma dot_notMem_toString (n : ℕ) : '.' ∉ (toString n).toList := by
  intro h
  rw [Nat.toString_eq_repr, Nat.toList_repr] at h
  exact absurd (Nat.isDigit_of_mem_toDigits (by decide) (by decide) h) (by decide)

lemma eq_of_toList_toString_eq (h : (toString n).toList = (toString n').toList) : n = n' := by
  have hnumber := congrArg (fun digits => Nat.ofDigitChars 10 digits 0) h
  simpa [Nat.toString_eq_repr, Nat.toList_repr, Nat.ofDigitChars_toDigits] using hnumber

lemma eq_of_temporaryName_eq (h : temporaryName stem owner n = temporaryName stem' owner' n') :
    owner = owner' ∧ n = n' := by
  have hsplit : ∀ stem owner n, (temporaryName stem owner n).toList =
      (stem.toList ++ ".tmp".toList ++ '.' :: (toString owner).toList) ++ '.' :: (toString n).toList := by
    intro stem owner n
    simp [temporaryName, temporaryMark, String.toList_append]
  have hlist := congrArg String.toList h
  rw [hsplit, hsplit, Text.append_cons_inj_of_notMem_right (dot_notMem_toString n) (dot_notMem_toString n'),
    Text.append_cons_inj_of_notMem_right (dot_notMem_toString owner) (dot_notMem_toString owner')] at hlist
  exact ⟨eq_of_toList_toString_eq hlist.1.2, eq_of_toList_toString_eq hlist.2⟩

inductive Stored (root : Place) (owner count : ℕ) (pending : Option Place) (p : Place) : Prop
  | begun (stem : String) (n : ℕ) (hn : count ≤ n) (hp : p = root ++ [RawText.ofText (temporaryName stem owner n)])
  | pending (hp : pending = some p)
  | shard (key : CacheKey) (hp : p = shardPlace root key)
  | object (key : CacheKey) (hp : p = objectPlace root key)

def Tended (root : Place) (owner count : ℕ) (pending : Option Place) (p : Place) : Prop :=
  Stored root owner count pending p ∨ p = lockPlace root ∨ p = metadataPlace root

lemma Stored.mono {pending' : Option Place} (h : Stored root owner count pending p)
    (hcount : count' ≤ count) (hpending : ∀ q, pending = some q → Stored root owner count' pending' q) :
    Stored root owner count' pending' p := by
  cases h with
  | begun stem n hn hp => exact .begun stem n (Nat.le_trans hcount hn) hp
  | pending hp => exact hpending p hp
  | shard key hp => exact .shard key hp
  | object key hp => exact .object key hp

lemma Stored.below (h : Stored root owner count pending p) (hpending : ∀ q, pending = some q → Below root q) :
    Below root p := by
  cases h with
  | begun stem n hn hp => exact hp ▸ below_append (by simp)
  | pending hp => exact hpending p hp
  | shard key hp => exact hp ▸ below_append (by simp)
  | object key hp => exact hp ▸ below_append (by simp)

lemma Tended.below (h : Tended root owner count pending p) (hpending : ∀ q, pending = some q → Below root q) :
    Below root p := by
  rcases h with h | rfl | rfl
  · exact h.below hpending
  · exact below_append (by simp)
  · exact below_append (by simp)

lemma not_stored {name : RawText} (hpending : pending ≠ some (root ++ [name]))
    (hbegun : ∀ stem n, count ≤ n → name ≠ .ofText (temporaryName stem owner n))
    (hshard : ∀ key : CacheKey, name ≠ .ofText key.shard) :
    ¬ Stored root owner count pending (root ++ [name]) := by
  intro h
  cases h with
  | begun stem n hn hp => exact hbegun stem n hn (by simpa using hp)
  | pending hp => exact hpending hp
  | shard key hp => exact hshard key (by simpa [shardPlace] using hp)
  | object key hp => exact absurd hp.symm (objectPlace_ne_append root key name)

lemma ne_of_isTemporary {name name' : RawText} (h : isTemporary name = true) (h' : isTemporary name' = false) :
    name ≠ name' := by
  rintro rfl
  rw [h] at h'
  cases h'

lemma not_stored_metadataPlace (hpending : pending ≠ some (metadataPlace root)) :
    ¬ Stored root owner count pending (metadataPlace root) := by
  refine not_stored hpending ?_ ?_
  · intro stem n _
    exact (ne_of_isTemporary (isTemporary_temporaryName stem owner n) (by decide)).symm
  · exact ne_shard (by decide)

lemma not_tended_temporary (hpending : pending ≠ some (root ++ [RawText.ofText (temporaryName stem owner' n)]))
    (hn : owner' = owner → n < count) : ¬ Tended root owner count pending (root ++ [RawText.ofText (temporaryName stem owner' n)]) := by
  have htemporary := isTemporary_temporaryName stem owner' n
  rintro (h | h | h)
  · refine not_stored hpending ?_ (fun key => ne_of_isTemporary htemporary (isTemporary_shard key)) h
    intro stem' n' hn' hname
    obtain ⟨howner, rfl⟩ := eq_of_temporaryName_eq (RawText.ofText_inj.1 hname)
    exact absurd hn' (Nat.not_le_of_lt (hn howner))
  · exact ne_of_isTemporary htemporary (by decide) (show _ = RawText.ofText lockName by simpa [lockPlace] using h)
  · exact ne_of_isTemporary htemporary (by decide) (show _ = RawText.ofText Metadata.fileName by simpa [metadataPlace] using h)

end NamespaceMigration.CacheLayout
