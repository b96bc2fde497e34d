import Mathlib.Data.List.Basic
import NamespaceMigration.Proofs.Except

/-! Steps that change a state and may fail. -/

namespace NamespaceMigration.Steps

variable {ε ε' σ α β : Type} {s : σ} {x : EStateM ε σ α} {f : α → EStateM ε σ β} {I : σ → Prop}

def answer : EStateM.Result ε σ α → Except ε α
  | .ok a _ => .ok a
  | .error e _ => .error e

def after : EStateM.Result ε σ α → σ
  | .ok _ t => t
  | .error _ t => t

lemma answer_map (f : α → β) : answer ((f <$> x).run s) = (answer (x.run s)).map f := by
  have hb : (f <$> x).run s = EStateM.map f x s := rfl
  have hx : x.run s = x s := rfl
  rw [hb, hx, EStateM.map]
  cases x s <;> rfl

lemma eq_ok_of_answer {r : EStateM.Result ε σ α} {a : α} (h : answer r = .ok a) : r = .ok a (after r) := by
  cases r with
  | ok b t =>
    obtain rfl := Except.ok.inj h
    rfl
  | error e t => cases h

lemma exists_eq_ok {r : EStateM.Result ε σ α} {f : α → β} {b : β} (h : (answer r).toOption.map f = some b) :
    ∃ a, r = .ok a (after r) ∧ f a = b := by
  obtain ⟨a, ha, hf⟩ := Option.map_eq_some_iff.1 h
  exact ⟨a, eq_ok_of_answer (eq_ok_of_toOption_eq_some ha), hf⟩

lemma exists_eq_error {r : EStateM.Result ε σ α} (h : (answer r).toOption = none) : ∃ e, r = .error e (after r) := by
  cases r with
  | ok b t => cases h
  | error e t => exact ⟨e, rfl⟩

lemma run_bind_of_ok {a : α} {t : σ} (h : x.run s = .ok a t) : (x >>= f).run s = (f a).run t := by
  have hb : (x >>= f).run s = EStateM.bind x f s := rfl
  have hx : x s = .ok a t := h
  rw [hb, EStateM.bind, hx]
  rfl

lemma run_bind_eq_ok_iff {b : β} {u : σ} : (x >>= f).run s = .ok b u ↔ ∃ a t, x.run s = .ok a t ∧ (f a).run t = .ok b u := by
  have hb : (x >>= f).run s = EStateM.bind x f s := rfl
  have hx : x.run s = x s := rfl
  rw [hb, hx, EStateM.bind]
  cases x s with
  | ok a t => simp [EStateM.run]
  | error e t => simp

lemma run_bind_congr {y : EStateM ε σ α} (h : x.run s = y.run s) : (x >>= f).run s = (y >>= f).run s := by
  have hx : (x >>= f).run s = EStateM.bind x f s := rfl
  have hy : (y >>= f).run s = EStateM.bind y f s := rfl
  have hxy : x s = y s := h
  rw [hx, hy, EStateM.bind, EStateM.bind, hxy]

/-- Whether a step from a state ends well as `Q` says or fails as `E` says. -/
def Ensures (s : σ) (x : EStateM ε σ α) (Q : α → σ → Prop) (E : ε → σ → Prop) : Prop :=
  match x.run s with
  | .ok a t => Q a t
  | .error e t => E e t

def Keeps (I : σ → Prop) (x : EStateM ε σ α) : Prop := ∀ s, I s → Ensures s x (fun _ => I) (fun _ => I)

section Rules

variable {Q : α → σ → Prop} {E : ε → σ → Prop} {Q' : β → σ → Prop}

lemma ensures_bind : Ensures s (x >>= f) Q' E ↔ Ensures s x (fun a t => Ensures t (f a) Q' E) E := by
  have hb : (x >>= f).run s = EStateM.bind x f s := rfl
  have hx : x.run s = x s := rfl
  rw [Ensures, Ensures, hb, hx, EStateM.bind]
  cases x s <;> rfl

lemma ensures_get_bind {f : σ → EStateM ε σ β} : Ensures s (get >>= f) Q' E ↔ Ensures s (f s) Q' E := ensures_bind

lemma ensures_modify_bind {g : σ → σ} {f : PUnit → EStateM ε σ β} :
    Ensures s (modify g >>= f) Q' E ↔ Ensures (g s) (f ⟨⟩) Q' E := ensures_bind

lemma Ensures.cases (h : Ensures s x Q E) :
    (∃ a t, x.run s = .ok a t ∧ Q a t) ∨ ∃ e t, x.run s = .error e t ∧ E e t := by
  rw [Ensures] at h
  cases hx : x.run s with
  | ok a t =>
    rw [hx] at h
    exact .inl ⟨a, t, rfl, h⟩
  | error e t =>
    rw [hx] at h
    exact .inr ⟨e, t, rfl, h⟩

lemma Ensures.exists_ok (h : Ensures s x Q fun _ _ => False) : ∃ a t, x.run s = .ok a t ∧ Q a t := by
  rcases h.cases with h | ⟨_, _, -, hf⟩
  · exact h
  · exact hf.elim

lemma Ensures.mono {R : α → σ → Prop} {F : ε → σ → Prop} (h : Ensures s x Q E) (hQ : ∀ a t, Q a t → R a t)
    (hE : ∀ e t, E e t → F e t) : Ensures s x R F := by
  rw [Ensures] at h ⊢
  cases hx : x.run s with
  | ok a t =>
    rw [hx] at h
    exact hQ a t h
  | error e t =>
    rw [hx] at h
    exact hE e t h

lemma ensures_adaptExcept {g : ε → ε'} {F : ε' → σ → Prop} :
    Ensures s (x.adaptExcept g) Q F ↔ Ensures s x Q (fun e => F (g e)) := by
  have hb : (x.adaptExcept g).run s = EStateM.adaptExcept g x s := rfl
  have hx : x.run s = x s := rfl
  rw [Ensures, Ensures, hb, hx, EStateM.adaptExcept]
  cases x s <;> rfl

lemma ensures_tryCatch {handle : ε → EStateM ε σ α} :
    Ensures s (tryCatch x handle) Q E ↔ Ensures s x Q fun e t => Ensures t (handle e) Q E := by
  have hb : (tryCatch x handle).run s = EStateM.tryCatch x handle s := rfl
  have hx : x.run s = x s := rfl
  rw [Ensures, Ensures, hb, hx, EStateM.tryCatch]
  cases x s <;> rfl

lemma ensures_true (s : σ) (x : EStateM ε σ α) : Ensures s x (fun _ _ => True) fun _ _ => True := by
  rw [Ensures]
  split <;> trivial

lemma Ensures.after (h : Ensures s x (fun _ => I) (fun _ => I)) : I (after (x.run s)) := by
  rw [Ensures] at h
  cases hx : x.run s with
  | ok a t =>
    rw [hx] at h
    exact h
  | error e t =>
    rw [hx] at h
    exact h

end Rules

lemma Keeps.pure (a : α) : Keeps I (Pure.pure a : EStateM ε σ α) := fun _ h => h

lemma Keeps.throw (e : ε) : Keeps I (MonadExcept.throw e : EStateM ε σ α) := fun _ h => h

lemma Keeps.bind (hx : Keeps I x) (hf : ∀ a, Keeps I (f a)) : Keeps I (x >>= f) :=
  fun s h => ensures_bind.2 ((hx s h).mono (fun a t ht => hf a t ht) fun _ _ ht => ht)

lemma Keeps.get {f : σ → EStateM ε σ β} (h : ∀ s, I s → Ensures s (f s) (fun _ => I) (fun _ => I)) :
    Keeps I (MonadState.get >>= f) := fun s hs => ensures_bind.2 (h s hs)

lemma Keeps.modify {f : σ → σ} (h : ∀ s, I s → I (f s)) : Keeps I (modify f : EStateM ε σ PUnit) := h

lemma Keeps.and {J : σ → Prop} (hI : Keeps I x) (hJ : Keeps J x) : Keeps (fun s => I s ∧ J s) x := by
  intro s hs
  have hi := hI s hs.1
  have hj := hJ s hs.2
  rw [Ensures] at hi hj ⊢
  cases hx : x.run s with
  | ok a t =>
    rw [hx] at hi hj
    exact ⟨hi, hj⟩
  | error e t =>
    rw [hx] at hi hj
    exact ⟨hi, hj⟩

lemma Keeps.foldlM {f : β → α → EStateM ε σ β} {l : List α} (h : ∀ a ∈ l, ∀ b, Keeps I (f b a)) (b : β) :
    Keeps I (l.foldlM f b) := by
  induction l generalizing b with
  | nil => exact .pure b
  | cons a l ih =>
    rw [List.foldlM_cons]
    exact .bind (h a (by simp) b) fun c => ih (fun d hd => h d (by simp [hd])) c

end NamespaceMigration.Steps
