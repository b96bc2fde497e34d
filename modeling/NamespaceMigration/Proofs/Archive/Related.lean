import NamespaceMigration.Proofs.Archive.Truthful

namespace NamespaceMigration.Migrator

section Relations

variable {m m' : Type → Type} [Monad m] [LawfulMonad m] [MonadExceptOf ArchiveFault m]
  [Monad m'] [LawfulMonad m'] [MonadExceptOf ArchiveFault m']

/-- A relation of computations that their sequences keep. Nothing is done after a fault. -/
structure Relates (R : ∀ α : Type, m α → m' α → Prop) : Prop where
  pure : ∀ {α : Type} (a : α), R α (Pure.pure a) (Pure.pure a)
  throw_bind : ∀ {α β : Type} (fault : ArchiveFault) (f : α → m β) (f' : α → m' β),
    R β (MonadExcept.throw fault >>= f) (MonadExcept.throw fault >>= f')
  bind : ∀ {α β : Type} {x : m α} {y : m' α} {f : α → m β} {f' : α → m' β}, R α x y → (∀ a, R β (f a) (f' a)) →
    R β (x >>= f) (y >>= f')

variable {R : ∀ α : Type, m α → m' α → Prop} {g : Migrator} {archive : String} {source : Bytes}
  {nested : String → Bytes → m Outcome} {nested' : String → Bytes → m' Outcome} {entry : ArchiveEntry} {body : EntryBody}

lemma Relates.throw (h : Relates R) {α : Type} (fault : ArchiveFault) :
    R α (MonadExcept.throw fault) (MonadExcept.throw fault) := by
  have hb := h.throw_bind fault (Pure.pure : α → m α) (Pure.pure : α → m' α)
  rwa [bind_pure, bind_pure] at hb

omit [LawfulMonad m] [LawfulMonad m'] in
lemma Relates.foldlM (h : Relates R) {α β : Type} {f : β → α → m β} {f' : β → α → m' β} {l : List α}
    (hf : ∀ a ∈ l, ∀ b, R β (f b a) (f' b a)) (b : β) : R β (l.foldlM f b) (l.foldlM f' b) := by
  induction l generalizing b with
  | nil => exact h.pure b
  | cons a l ih =>
    rw [List.foldlM_cons, List.foldlM_cons]
    exact h.bind (hf a (by simp) b) fun c => ih (fun d hd => hf d (by simp [hd])) c

lemma Relates.unpack_bind (h : Relates R) {α : Type} {f : Bytes → m α} {f' : Bytes → m' α}
    (hf : ∀ content, body.content = .ok content → R α (f content) (f' content)) :
    R α (unpack archive body >>= f) (unpack archive body >>= f') := by
  unfold unpack
  split
  next content hc =>
    rw [pure_bind, pure_bind]
    exact hf content hc
  next => exact h.throw_bind _ f f'
  next => exact h.throw_bind _ f f'

lemma Relates.convertKept (h : Relates R)
    (hn : ∀ content, g.treatment entry = .nested → body.content = .ok content →
      R Outcome (nested entry.name content) (nested' entry.name content)) :
    R Conversion (g.convertKept nested archive entry body) (g.convertKept nested' archive entry body) := by
  unfold Migrator.convertKept
  split
  next ht =>
    refine h.unpack_bind fun content hc => ?_
    exact h.bind (hn content ht hc) fun outcome => h.pure _
  next =>
    refine h.unpack_bind fun content _ => ?_
    cases g.convertEntry entry content with
    | ok c => exact h.pure c
    | error fault => exact h.throw fault
  next => exact h.pure _

lemma Relates.addEntry (h : Relates R)
    (hn : ∀ content, g.treatment entry = .nested → entry.content? = some content →
      R Outcome (nested entry.name content) (nested' entry.name content)) (d : Draft) :
    R Draft (g.addEntry nested archive d entry) (g.addEntry nested' archive d entry) := by
  unfold Migrator.addEntry
  cases hb : entry.body with
  | none => exact h.throw _
  | some body =>
    dsimp only
    split
    next => exact h.pure _
    next =>
      refine h.bind (h.convertKept fun content ht hc => hn content ht ?_) fun c => ?_
      · rw [ArchiveEntry.content?, hb, Option.bind_some, hc]
        rfl
      · split
        · exact h.throw_bind _ _ _
        · exact h.pure _

lemma Relates.migrateArchiveWith (h : Relates R)
    (hn : ∀ name inner, g.Contains source name inner → R Outcome (nested name inner) (nested' name inner)) :
    R Outcome (g.migrateArchiveWith nested archive source) (g.migrateArchiveWith nested' archive source) := by
  unfold Migrator.migrateArchiveWith
  cases hl : g.format.list source with
  | none => exact h.throw _
  | some entries =>
    refine h.bind (h.foldlM (fun entry he d => h.addEntry (fun content ht hc => ?_) d) _) fun d => ?_
    · exact hn entry.name content ⟨entries, hl, entry, he, ht, rfl, hc⟩
    · split
      · exact h.pure _
      · exact h.pure _

lemma Relates.map (h : Relates R) {α β : Type} {x : m α} {y : m' α} (f : α → β) (hx : R α x y) :
    R β (f <$> x) (f <$> y) := by
  rw [map_eq_pure_bind, map_eq_pure_bind]
  exact h.bind hx fun a => h.pure (f a)

variable {name : String}

lemma Relates.migrateWith (h : Relates R)
    (hn : isArchiveName name = true → g.excludes.skips name = false → R Outcome (nested name source) (nested' name source)) :
    R Outcome (migrateWith nested g name source) (migrateWith nested' g name source) := by
  unfold Migrator.migrateWith
  cases hskip : g.excludes.skips name with
  | true => exact h.pure _
  | false =>
    cases harchive : isArchiveName name with
    | true => exact hn harchive hskip
    | false =>
      cases g.registry.convert g.profile name source with
      | ok c => exact h.pure _
      | error fault => exact h.throw _

lemma Relates.convertWith (h : Relates R)
    (hn : isArchiveName name = true → g.excludes.skips name = false → R Outcome (nested name source) (nested' name source)) :
    R Conversion (convertWith nested g name source) (convertWith nested' g name source) := by
  unfold Migrator.convertWith
  cases hskip : g.excludes.skips name with
  | true => exact h.pure _
  | false =>
    cases harchive : isArchiveName name with
    | true => exact h.bind (hn harchive hskip) fun outcome => h.pure _
    | false =>
      cases g.registry.convert g.profile name source with
      | ok c => exact h.pure _
      | error fault => exact h.throw _

end Relations

section Depth

variable {α β : Type} {g : Migrator} {archive : String} {source : Bytes} {n k : ℕ}

def IsTooDeep (x : Except ArchiveFault α) : Prop := ∃ archive, x = .error (.tooDeep archive)

lemma IsTooDeep.bind {x : Except ArchiveFault α} (h : IsTooDeep x) (f : α → Except ArchiveFault β) : IsTooDeep (x >>= f) := by
  obtain ⟨archive, rfl⟩ := h
  exact ⟨archive, rfl⟩

lemma not_isTooDeep_ok (a : α) : ¬ IsTooDeep (.ok a) := fun ⟨_, h⟩ => nomatch h

lemma relates_unlessTooDeep : Relates fun α (x y : Except ArchiveFault α) => IsTooDeep x ∨ x = y where
  pure _ := .inr rfl
  throw_bind _ _ _ := .inr rfl
  bind := by
    rintro α β x y f f' (hx | rfl) hf
    · exact .inl (hx.bind f)
    · cases x with
      | ok a => exact hf a
      | error fault => exact .inr rfl

lemma migrateNested_of_le (h : n ≤ k) (archive : String) (source : Bytes) :
    IsTooDeep (g.migrateNested n archive source) ∨ g.migrateNested n archive source = g.migrateNested k archive source := by
  induction n generalizing k archive source with
  | zero => exact .inl ⟨archive, rfl⟩
  | succ n ih =>
    cases k with
    | zero => omega
    | succ k => exact relates_unlessTooDeep.migrateArchiveWith fun name inner _ => ih (by omega) name inner

abbrev AtDepth := ReaderT ℕ (Except ArchiveFault)

def Steady (F : AtDepth α) : Prop := ∀ n k, n ≤ k → IsTooDeep (F n) ∨ F n = F k

def Follows (n : ℕ) (F : AtDepth α) (r : Except ArchiveFault α) : Prop :=
  (∃ N, ∀ k, N ≤ k → F k = r) ∨ (IsTooDeep r ∧ IsTooDeep (F n))

lemma Follows.eq_of_not_isTooDeep {F : AtDepth α} {r : Except ArchiveFault α} (hF : Steady F) (h : Follows n F r) :
    IsTooDeep (F n) ∨ F n = r := by
  rcases h with ⟨N, hN⟩ | ⟨-, hn⟩
  · rcases hF n (max n N) (Nat.le_max_left n N) with h | h
    · exact .inl h
    · exact .inr (h.trans (hN _ (Nat.le_max_right n N)))
  · exact .inl hn

lemma Steady.bind {F : AtDepth α} {G : α → AtDepth β} (hF : Steady F) (hG : ∀ a, Steady (G a)) : Steady (F >>= G) := by
  intro n k h
  have hbind : ∀ n, (F >>= G) n = F n >>= fun a => G a n := fun _ => rfl
  rw [hbind, hbind]
  exact relates_unlessTooDeep.bind (hF n k h) fun a => hG a n k h

lemma Follows.bind {F : AtDepth α} {G : α → AtDepth β} {a : α} {r : Except ArchiveFault β} (hF : Steady F)
    (h : Follows n F (.ok a)) (hG : Follows n (G a) r) : Follows n (F >>= G) r := by
  have hbind : ∀ n, (F >>= G) n = F n >>= fun a => G a n := fun _ => rfl
  rcases hG with ⟨M, hM⟩ | ⟨hr, hn⟩
  · rcases h with ⟨N, hN⟩ | ⟨ha, -⟩
    · refine .inl ⟨max N M, fun k hk => ?_⟩
      rw [hbind, hN k (Nat.le_trans (Nat.le_max_left N M) hk)]
      exact hM k (Nat.le_trans (Nat.le_max_right N M) hk)
    · exact absurd ha (not_isTooDeep_ok a)
  · refine .inr ⟨hr, ?_⟩
    rw [hbind]
    rcases h.eq_of_not_isTooDeep hF with hd | he
    · exact hd.bind _
    · rw [he]
      exact hn

lemma Follows.bind_error {F : AtDepth α} {G : α → AtDepth β} {fault : ArchiveFault} (h : Follows n F (.error fault)) :
    Follows n (F >>= G) (.error fault) := by
  have hbind : ∀ n, (F >>= G) n = F n >>= fun a => G a n := fun _ => rfl
  rcases h with ⟨N, hN⟩ | ⟨⟨archive, he⟩, hn⟩
  · refine .inl ⟨N, fun k hk => ?_⟩
    rw [hbind, hN k hk]
    rfl
  · obtain rfl := Except.error.inj he
    exact .inr ⟨⟨archive, rfl⟩, hn.bind _⟩

end Depth

end NamespaceMigration.Migrator
