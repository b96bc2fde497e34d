import NamespaceMigration.Archive.CachedMigrator
import NamespaceMigration.Proofs.Archive.Related
import NamespaceMigration.Proofs.Cache.Session

namespace NamespaceMigration.Migrator

open Steps

section Simulation

variable {α β : Type} {I : CacheSession → Prop} {n : ℕ}

structure Simulates (I : CacheSession → Prop) (n : ℕ) (α : Type) (x : CachedM α) (F : AtDepth α) : Prop where
  steady : Steady F
  ensures : ∀ s, I s → Ensures s x (fun a u => I u ∧ Follows n F (.ok a)) fun fault u => I u ∧ Follows n F (.error fault)

lemma Simulates.follows {x : CachedM α} {F : AtDepth α} {s : CacheSession} (h : Simulates I n α x F) (hs : I s) :
    I (after (x.run s)) ∧ Follows n F (answer (x.run s)) := by
  have hx := h.ensures s hs
  rw [Ensures] at hx
  cases hrun : x.run s with
  | ok a u =>
    rw [hrun] at hx
    exact hx
  | error fault u =>
    rw [hrun] at hx
    exact hx

lemma relates_simulates : Relates (Simulates I n) where
  pure a := by
    refine ⟨fun _ _ _ => .inr rfl, fun s hs => ⟨hs, .inl ⟨0, fun _ _ => rfl⟩⟩⟩
  throw_bind fault f F := by
    refine ⟨fun _ _ _ => .inr rfl, fun s hs => ⟨hs, .inl ⟨0, fun _ _ => rfl⟩⟩⟩
  bind := by
    rintro α β x F f G hx hf
    refine ⟨hx.steady.bind fun a => (hf a).steady, fun s hs => ensures_bind.2 ((hx.ensures s hs).mono ?_ ?_)⟩
    · rintro a u ⟨hu, ha⟩
      refine ((hf a).ensures u hu).mono ?_ ?_
      · rintro b v ⟨hv, hb⟩
        exact ⟨hv, ha.bind hx.steady hb⟩
      · rintro fault v ⟨hv, hfault⟩
        exact ⟨hv, ha.bind hx.steady hfault⟩
    · rintro fault u ⟨hu, hfault⟩
      exact ⟨hu, hfault.bind_error⟩

lemma relates_atDepth (k : ℕ) : Relates fun α (F : AtDepth α) (x : Except ArchiveFault α) => F k = x where
  pure _ := rfl
  throw_bind _ _ _ := rfl
  bind := by
    rintro α β F x f f' rfl hf
    have hbind : (F >>= f) k = F k >>= fun a => f a k := rfl
    rw [hbind]
    exact congrArg _ (funext hf)

lemma migrateArchiveWith_atDepth (g : Migrator) (nested : String → Bytes → AtDepth Outcome) (archive : String)
    (source : Bytes) (k : ℕ) :
    g.migrateArchiveWith nested archive source k = g.migrateArchiveWith (fun name inner => nested name inner k) archive source :=
  (relates_atDepth k).migrateArchiveWith fun _ _ _ => rfl

lemma Follows.succ {F G : AtDepth α} {r : Except ArchiveFault α} (h : ∀ k, F (k + 1) = G k) (hG : Follows n G r) :
    Follows (n + 1) F r := by
  rcases hG with ⟨N, hN⟩ | ⟨hr, hn⟩
  · refine .inl ⟨N + 1, fun k hk => ?_⟩
    obtain ⟨j, rfl⟩ := Nat.exists_eq_add_of_lt hk
    rw [h]
    exact hN _ (by omega)
  · exact .inr ⟨hr, by rwa [h]⟩

end Simulation

section Cached

variable {g : Migrator} {hashed : Bytes → Prop} {ground : FileTree} {root : Place} {today : Date} {n : ℕ}
  {settings : String} {source : Bytes} {F : AtDepth Outcome}

/-- Whether content is what the archive of a key is migrated to. -/
def Kept (g : Migrator) (hashed : Bytes → Prop) (key : CacheKey) (content : Bytes) : Prop :=
  ∀ settings source, g.settingsKey? = some settings → hashed source → CacheKey.compute settings source = key →
    ∃ depth archive outcome, g.migrateNested depth archive source = .ok outcome ∧ outcome.bytes = content

def Separates (g : Migrator) (hashed : Bytes → Prop) : Prop :=
  ∀ settings x y, g.settingsKey? = some settings → hashed x → hashed y →
    CacheKey.compute settings x = CacheKey.compute settings y → x = y

lemma kept_of_migrateNested_eq_ok {depth : ℕ} {archive : String} {outcome : Outcome} (hk : g.settingsKey? = some settings)
    (hs : g.Separates hashed) (hsource : hashed source) (h : g.migrateNested depth archive source = .ok outcome) :
    g.Kept hashed (.compute settings source) outcome.bytes := by
  intro settings' source' hk' hsource' he
  obtain rfl : settings = settings' := Option.some.inj (hk.symm.trans hk')
  obtain rfl := hs settings source' source hk hsource' hsource he
  exact ⟨depth, archive, outcome, h, rfl⟩

lemma ensures_remember {key : CacheKey} {content : Bytes} {isHit : Bool} {s : CacheSession}
    (hs : s.Holds ground root (g.Kept hashed)) (hc : g.Kept hashed key content) :
    Ensures s (remember today ⟨key, isHit, none⟩ content) (fun _ => CacheSession.Holds ground root (g.Kept hashed))
      fun _ _ => False := by
  refine ensures_tryCatch.2 (ensures_adaptExcept.2 ?_)
  exact (CacheSlot.holds_store hs hc today).mono (fun _ _ hu => hu) fun _ _ hu => hu

lemma ensures_fetch {convert : CachedM Outcome} {s : CacheSession}
    (hconvert : ∀ s : CacheSession, s.Holds ground root (g.Kept hashed) → Ensures s convert
      (fun outcome u => u.Holds ground root (g.Kept hashed) ∧ Follows n F (.ok outcome))
      fun fault u => u.Holds ground root (g.Kept hashed) ∧ Follows n F (.error fault))
    (hhit : ∀ content, g.Kept hashed (.compute settings source) content →
      Follows n F (.ok ⟨content, content != source, []⟩))
    (hmiss : ∀ outcome, Follows n F (.ok outcome) → g.Kept hashed (.compute settings source) outcome.bytes)
    (hs : s.Holds ground root (g.Kept hashed)) :
    Ensures s (fetch today settings source convert)
      (fun outcome u => u.Holds ground root (g.Kept hashed) ∧ Follows n F (.ok outcome))
      fun fault u => u.Holds ground root (g.Kept hashed) ∧ Follows n F (.error fault) := by
  refine ensures_bind.2 (ensures_adaptExcept.2 ((CacheSlot.holds_lookup hs today _).mono ?_ fun _ _ h => h.elim))
  rintro entry u ⟨hu, rfl | ⟨rfl, content, hc⟩⟩
  · refine ensures_bind.2 ((hconvert u hu).mono ?_ fun _ _ h => h)
    rintro outcome v ⟨hv, hf⟩
    refine ensures_bind.2 ((ensures_remember hv (hmiss outcome hf)).mono ?_ fun _ _ h => h.elim)
    exact fun _ w hw => ⟨hw, hf⟩
  · refine ensures_bind.2 (ensures_adaptExcept.2 ((CacheSlot.holds_read hu hc).mono ?_ fun _ _ h => h.elim))
    rintro stored v ⟨hv, hkept⟩
    exact ⟨hv, hhit stored hkept⟩

lemma follows_of_kept (hp : .manifest ∈ g.registry.converters → g.profile.Foldable)
    (hr : ∀ inner, g.Within source inner → g.ReadsBack inner) (hk : g.settingsKey? = some settings) (hsource : hashed source)
    {content : Bytes} (archive : String) (hc : g.Kept hashed (.compute settings source) content) :
    Follows n (fun k => g.migrateNested k archive source) (.ok ⟨content, content != source, []⟩) := by
  have hf : g.registry.fingerprint? ≠ none := by
    intro hf
    rw [settingsKey?, hf] at hk
    cases hk
  obtain ⟨depth, name, outcome, ho, rfl⟩ := hc settings source hk hsource rfl
  have ho' := (migrateNested_name_congr depth name archive source outcome).1 ho
  obtain ⟨hasked, hchanged⟩ := outcome_of_migrateNested_eq_ok hp hf hr ho'
  have heq : outcome = ⟨outcome.bytes, outcome.bytes != source, []⟩ := by
    have hb : outcome.changed = (outcome.bytes != source) := by
      rw [Bool.eq_iff_iff, hchanged, bne_iff_ne]
    rw [← hasked, ← hb]
  refine .inl ⟨depth, fun k hk => ?_⟩
  rcases migrateNested_of_le (g := g) hk archive source with ⟨_, hd⟩ | he
  · rw [ho'] at hd
    cases hd
  · rw [← heq]
    exact he.symm.trans ho'

variable (hp : .manifest ∈ g.registry.converters → g.profile.Foldable) (hs : g.Separates hashed)
  (hinner : ∀ source name inner, hashed source → g.Contains source name inner → hashed inner)
  (hread : ∀ source, hashed source → g.ReadsBack source)
include hp hs hinner hread

lemma simulates_migrateNestedCached (depth : ℕ) (archive : String) (hsource : hashed source) :
    Simulates (CacheSession.Holds ground root (g.Kept hashed)) depth Outcome
      (g.migrateNestedCached today depth archive source) fun k => g.migrateNested k archive source := by
  have hwithin : ∀ {source inner}, hashed source → g.Within source inner → hashed inner := by
    rintro source inner hsource hi
    induction hi with
    | self => exact hsource
    | entry _ hc ih => exact hinner _ _ _ ih hc
  have hsteady : ∀ archive source, Steady fun k => g.migrateNested k archive source :=
    fun archive source n k h => migrateNested_of_le h archive source
  induction depth generalizing archive source with
  | zero => exact ⟨hsteady archive source, fun s hs => ⟨hs, .inr ⟨⟨archive, rfl⟩, ⟨archive, rfl⟩⟩⟩⟩
  | succ depth ih =>
    refine ⟨hsteady archive source, ?_⟩
    let nested : String → Bytes → AtDepth Outcome := fun name inner k => g.migrateNested k name inner
    have hdeeper : ∀ k, g.migrateNested (k + 1) archive source = g.migrateArchiveWith nested archive source k :=
      fun k => (migrateArchiveWith_atDepth g nested archive source k).symm
    have hconvert : ∀ s : CacheSession, s.Holds ground root (g.Kept hashed) →
        Ensures s (g.migrateArchiveWith (g.migrateNestedCached today depth) archive source)
          (fun outcome u => u.Holds ground root (g.Kept hashed) ∧
            Follows (depth + 1) (fun k => g.migrateNested k archive source) (.ok outcome))
          fun fault u => u.Holds ground root (g.Kept hashed) ∧
            Follows (depth + 1) (fun k => g.migrateNested k archive source) (.error fault) := by
      have hsim : Simulates (CacheSession.Holds ground root (g.Kept hashed)) depth Outcome
          (g.migrateArchiveWith (g.migrateNestedCached today depth) archive source)
          (g.migrateArchiveWith nested archive source) :=
        relates_simulates.migrateArchiveWith fun name inner hc => ih name (hinner source name inner hsource hc)
      intro s hs
      refine (hsim.ensures s hs).mono ?_ ?_
      · exact fun outcome u ⟨hu, hf⟩ => ⟨hu, hf.succ hdeeper⟩
      · exact fun fault u ⟨hu, hf⟩ => ⟨hu, hf.succ hdeeper⟩
    intro s hs'
    rw [migrateNestedCached]
    cases hk : g.settingsKey? with
    | none => exact hconvert s hs'
    | some settings =>
      refine ensures_fetch hconvert ?_ ?_ hs'
      · exact fun content hc => follows_of_kept hp (fun inner hi => hread inner (hwithin hsource hi)) hk hsource archive hc
      · rintro outcome (⟨N, hN⟩ | ⟨ht, -⟩)
        · exact kept_of_migrateNested_eq_ok hk hs hsource (hN N (Nat.le_refl N))
        · exact absurd ht (not_isTooDeep_ok outcome)

end Cached

section Unchanged

variable {g : Migrator} {source : Bytes}

lemma ensures_migrateArchiveWith_unchanged (nested : String → Bytes → CachedM Outcome) (archive : String) (s : CacheSession) :
    Ensures s (g.migrateArchiveWith nested archive source) (fun outcome _ => outcome.changed = false → outcome.bytes = source)
      fun _ _ => True := by
  unfold migrateArchiveWith
  cases g.format.list source with
  | none => trivial
  | some entries =>
    refine ensures_bind.2 ((ensures_true s _).mono (fun d u _ => ?_) fun _ _ h => h)
    cases hd : d.changed with
    | false => exact fun _ => rfl
    | true => exact fun h => nomatch h

lemma ensures_migrateNestedCached_unchanged (today : Date) (depth : ℕ) (archive : String) (s : CacheSession) :
    Ensures s (g.migrateNestedCached today depth archive source)
      (fun outcome _ => outcome.changed = false → outcome.bytes = source) fun _ _ => True := by
  cases depth with
  | zero => trivial
  | succ depth =>
    have hconvert : ∀ s, Ensures s (g.migrateArchiveWith (g.migrateNestedCached today depth) archive source)
        (fun outcome _ => outcome.changed = false → outcome.bytes = source) fun _ _ => True :=
      ensures_migrateArchiveWith_unchanged _ archive
    rw [migrateNestedCached]
    cases g.settingsKey? with
    | none => exact hconvert s
    | some settings =>
      refine ensures_bind.2 ((ensures_true s _).mono (fun entry u _ => ?_) fun _ _ h => h)
      cases entry.isHit with
      | true =>
        refine ensures_bind.2 ((ensures_true u _).mono (fun stored v _ => ?_) fun _ _ h => h)
        exact fun h => by simpa using h
      | false =>
        refine ensures_bind.2 ((hconvert u).mono (fun outcome v ho => ?_) fun _ _ h => h)
        exact ensures_bind.2 ((ensures_true v _).mono (fun _ _ _ => ho) fun _ _ h => h)

end Unchanged

end NamespaceMigration.Migrator
