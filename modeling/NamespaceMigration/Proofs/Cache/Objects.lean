import NamespaceMigration.Cache.Layout
import NamespaceMigration.Proofs.Files.Path
import NamespaceMigration.Proofs.Text.Octets

namespace NamespaceMigration.CacheLayout

open FileTree

variable {ground t t' u : FileTree} {root p q : Place} {P : CacheKey → Bytes → Prop} {n : Node} {key : CacheKey}
  {content : Bytes}

def Below (root p : Place) : Prop := root <+: p ∧ p ≠ root

lemma below_append {names : List RawText} (h : names ≠ []) : Below root (root ++ names) :=
  ⟨List.prefix_append root names, by simpa using h⟩

lemma not_below_above (h : q <+: root) : ¬ Below root q := 
  fun hb => hb.2 (h.eq_of_length_le hb.1.length_le)

lemma Below.ne_nil (h : Below root p) : p ≠ [] := by
  rintro rfl
  exact h.2 (List.prefix_nil.1 h.1).symm

lemma below_objectPlace (root : Place) (key : CacheKey) : Below root (objectPlace root key) := below_append (by simp)

lemma objectPlace_ne_append (root : Place) (key : CacheKey) (name : RawText) : objectPlace root key ≠ root ++ [name] := by
  simp [objectPlace]

lemma objectPlace_ne_shardPlace (root : Place) (key key' : CacheKey) : objectPlace root key ≠ shardPlace root key' :=
  objectPlace_ne_append root key (.ofText key'.shard)

lemma objectPlace_inj {key' : CacheKey} : objectPlace root key = objectPlace root key' ↔ key = key' := by
  constructor
  · intro h
    have hname : key.objectName = key'.objectName := by simpa [objectPlace] using congrArg List.getLast? h
    have htext : key.text = key'.text := by
      have hlist := congrArg String.toList hname
      rw [CacheKey.objectName, CacheKey.objectName, String.toList_append, String.toList_append] at hlist
      exact String.toList_inj.1 (List.append_cancel_right hlist)
    cases key
    cases key'
    simpa using htext
  · rintro rfl
    rfl

structure Upkeep (root : Place) (t t' : FileTree) : Prop where
  outside : ∀ p n, ¬ Below root p → t.find? p = some n → t'.find? p = some n
  shard : ∀ key content, t'.find? (objectPlace root key) = some (.file content) →
    t.find? (shardPlace root key) = some .directory → t'.find? (shardPlace root key) = some .directory
  origin : ∀ p n, t'.find? p = some n → t.find? p = some n ∨ n = .directory ∨
    (p = lockPlace root ∨ p = metadataPlace root) ∧ n.isFile = true

lemma Upkeep.of_find?_eq (h : ∀ p, t'.find? p = t.find? p) : Upkeep root t t' where
  outside p _ _ hn := (h p).trans hn
  shard _ _ _ hs := (h _).trans hs
  origin p _ hn := .inl ((h p).symm.trans hn)

lemma Upkeep.refl (t : FileTree) : Upkeep root t t := .of_find?_eq fun _ => rfl

lemma Upkeep.file (h : Upkeep root t t') (hc : t'.find? p = some (.file content)) :
    t.find? p = some (.file content) ∨ p = lockPlace root ∨ p = metadataPlace root := by
  rcases h.origin p _ hc with hc | hc | ⟨hp, -⟩
  · exact .inl hc
  · cases hc
  · exact .inr hp

lemma Upkeep.object {key : CacheKey} (h : Upkeep root t t') (hc : t'.find? (objectPlace root key) = some (.file content)) :
    t.find? (objectPlace root key) = some (.file content) := by
  rcases h.file hc with hc | hp | hp
  · exact hc
  · exact absurd hp (objectPlace_ne_append root key (.ofText lockName))
  · exact absurd hp (objectPlace_ne_append root key (.ofText Metadata.fileName))

lemma Upkeep.trans (h : Upkeep root t t') (h' : Upkeep root t' u) : Upkeep root t u where
  outside p n hp hn := h'.outside p n hp (h.outside p n hp hn)
  shard key content hc hs := h'.shard key content hc (h.shard key content (h'.object hc) hs)
  origin p n hn := by
    rcases h'.origin p n hn with hn | hn
    · exact h.origin p n hn
    · exact .inr hn

lemma Upkeep.of_extends (h : t.Extends t') : Upkeep root t t' where
  outside p n _ hn := h.kept p n hn
  shard _ _ _ hs := h.kept _ _ hs
  origin p n hn := (h.made p n hn).imp_right .inl

lemma Upkeep.put (hp : p = lockPlace root ∨ p = metadataPlace root) (hd : t.find? p ≠ some .directory)
    (hn : n.isFile = true) : Upkeep root t (t.put p n) where
  outside q m hq hm := by
    have hbelow : Below root p := by rcases hp with rfl | rfl <;> exact below_append (by simp)
    have hne : q ≠ p := fun he => hq (he ▸ hbelow)
    rwa [find?_put_of_ne hne]
  shard key content _ hs := by
    have hne : shardPlace root key ≠ p := fun he => hd (he ▸ hs)
    rwa [find?_put_of_ne hne]
  origin q m hm := by
    rw [find?_put] at hm
    split at hm
    next he =>
      obtain rfl := Option.some.inj hm
      exact .inr (.inr ⟨he.1 ▸ hp, hn⟩)
    next => exact .inl hm

lemma Upkeep.erase (hp : Below root p) (hd : t.find? p ≠ some .directory) : Upkeep root t (t.erase p) where
  outside q m hq hm := by
    have hne : q ≠ p := fun he => hq (he ▸ hp)
    rwa [find?_erase, if_neg fun hc => hne hc.1]
  shard key content _ hs := by
    have hne : shardPlace root key ≠ p := fun he => hd (he ▸ hs)
    rwa [find?_erase, if_neg fun hc => hne hc.1]
  origin q m hm := by
    rw [find?_erase] at hm
    split at hm
    · cases hm
    · exact .inl hm

lemma Upkeep.removeAll (hp : Below root p) : Upkeep root t (t.removeAll p) where
  outside q m hq hm := by
    rw [find?_removeAll, if_neg]
    · exact hm
    · rintro ⟨hpq, -⟩
      refine hq ⟨hp.1.trans hpq, ?_⟩
      rintro rfl
      exact not_below_above hpq hp
  shard key content hc hs := by
    rw [find?_removeAll] at hc ⊢
    split at hc
    · cases hc
    next hn =>
      rw [if_neg, hs]
      rintro ⟨hps, -⟩
      refine hn ⟨hps.trans ?_, (below_objectPlace root key).ne_nil⟩
      simp [shardPlace, objectPlace]
  origin q m hm := by
    rw [find?_removeAll] at hm
    split at hm
    · cases hm
    · exact .inl hm

lemma Upkeep.erase_of_find?_eq_none (hp : t.find? p = none) (h : ∀ q, q ≠ p → t'.find? q = t.find? q) :
    Upkeep root t (t'.erase p) := by
  refine .of_find?_eq fun q => ?_
  have hne : p ≠ [] := by
    rintro rfl
    simp at hp
  rw [find?_erase]
  by_cases hq : q = p
  · rw [hq, hp, if_pos ⟨rfl, hne⟩]
  · rw [if_neg fun hc => hq hc.1, h q hq]

/-- Whether a tree still has what stood outside a cache directory, and in it no links and objects of one kind only,
each in a directory. -/
structure Sound (ground : FileTree) (root : Place) (P : CacheKey → Bytes → Prop) (t : FileTree) : Prop where
  outside : ∀ p n, ¬ Below root p → ground.find? p = some n → t.find? p = some n
  reaches : t.Reaches root
  below : ∀ p target, Below root p → t.find? p ≠ some (.link target)
  object : ∀ key content, t.find? (objectPlace root key) = some (.file content) →
    t.find? (shardPlace root key) = some .directory ∧ P key content

lemma Sound.upkeep (h : Sound ground root P t) (hu : Upkeep root t t') :
    Sound ground root P t' where
  outside p n hp hn := hu.outside p n hp (h.outside p n hp hn)
  reaches q hq := hu.outside q _ (not_below_above hq) (h.reaches q hq)
  below p target hp hn := by
    rcases hu.origin p _ hn with hn | hn | ⟨-, hn⟩
    · exact h.below p target hp hn
    · cases hn
    · cases hn
  object key content hc := by
    obtain ⟨hs, hP⟩ := h.object key content (hu.object hc)
    exact ⟨hu.shard key content hc hs, hP⟩

lemma Sound.extends (h : Sound ground root P t) (he : t.Extends t') : Sound ground root P t' := h.upkeep (.of_extends he)

lemma Sound.put (h : Sound ground root P t) (hp : Below root p) (hd : t.find? p ≠ some .directory)
    (hl : ∀ target, n ≠ .link target) (ho : ∀ key content, p = objectPlace root key → n = .file content →
      t.find? (shardPlace root key) = some .directory ∧ P key content) : Sound ground root P (t.put p n) where
  outside q m hq hm := by
    have hne : q ≠ p := fun he => hq (he ▸ hp)
    rw [find?_put_of_ne hne]
    exact h.outside q m hq hm
  reaches q hq := by
    have hne : q ≠ p := fun he => not_below_above hq (he ▸ hp)
    rw [find?_put_of_ne hne]
    exact h.reaches q hq
  below q target hq hm := by
    rw [find?_put] at hm
    split at hm
    · exact hl target (Option.some.inj hm)
    · exact h.below q target hq hm
  object key content hc := by
    rw [find?_put] at hc
    split at hc
    next he =>
      obtain ⟨hs, hP⟩ := ho key content he.1.symm (Option.some.inj hc)
      have hne : shardPlace root key ≠ p := fun hsp => objectPlace_ne_shardPlace root key key (he.1.trans hsp.symm)
      exact ⟨(find?_put_of_ne hne).trans hs, hP⟩
    next =>
      obtain ⟨hs, hP⟩ := h.object key content hc
      have hne : shardPlace root key ≠ p := fun hsp => hd (hsp ▸ hs)
      exact ⟨(find?_put_of_ne hne).trans hs, hP⟩

lemma Sound.put_file {name : RawText} (h : Sound ground root P t) (hd : t.find? (root ++ [name]) ≠ some .directory) :
    Sound ground root P (t.put (root ++ [name]) (.file content)) := by
  refine h.put (below_append (by simp)) hd (fun target he => nomatch he) ?_
  intro key content hp
  exact absurd hp.symm (objectPlace_ne_append root key name)

lemma Sound.move (h : Sound ground root P t) (hp : Below root p) (hq : Below root q)
    (hc : t.find? p = some (.file content)) (hd : t.find? q ≠ some .directory)
    (ho : ∀ key, q = objectPlace root key → t.find? (shardPlace root key) = some .directory ∧ P key content) :
    Sound ground root P ((t.erase p).put q (.file content)) := by
  have hne : t.find? p ≠ some .directory := by rw [hc]; simp
  refine (h.upkeep (.erase hp hne)).put hq ?_ (fun target hl => nomatch hl) ?_
  · rw [find?_erase]
    split
    · simp
    · exact hd
  · intro key content' hk he
    cases he
    obtain ⟨hs, hP⟩ := ho key hk
    have hsp : shardPlace root key ≠ p := fun he => hne (he ▸ hs)
    refine ⟨?_, hP⟩
    rw [find?_erase, if_neg fun he => hsp he.1]
    exact hs

lemma Sound.status_objectPlace (h : Sound ground root P t) (hc : t.find? (objectPlace root key) = some (.file content)) :
    t.status (objectPlace root key) = .ok (.file content) ∧ P key content := by
  obtain ⟨hs, hP⟩ := h.object key content hc
  refine ⟨status_eq_ok_iff.2 ⟨?_, hc⟩, hP⟩
  have hdrop : (objectPlace root key).dropLast = root ++ [RawText.ofText key.shard] := by simp [objectPlace]
  rw [hdrop]
  exact reaches_concat.2 ⟨h.reaches, hs⟩

lemma Sound.agree (h : Sound ground root P t) (hg : ∀ p target, Below root p → ground.find? p ≠ some (.link target)) :
    Agree ground t := by
  intro p n n' hn hn' hf hf'
  by_cases hp : Below root p
  · cases n with
    | file => cases hf
    | link target => exact absurd hn (hg p target hp)
    | directory =>
      cases n' with
      | file => cases hf'
      | link target => exact absurd hn' (h.below p target hp)
      | directory => rfl
  · exact Option.some.inj ((h.outside p n hp hn).symm.trans hn')

end NamespaceMigration.CacheLayout
