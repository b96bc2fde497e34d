import Mathlib.Data.List.Forall2

/-! Computations that may fail, and lists compared place by place or looked up in. -/

namespace NamespaceMigration

variable {ε ε' α β γ : Type}

lemma bind_eq_ok_iff {x : Except ε α} {f : α → Except ε β} {b : β} :
    x >>= f = .ok b ↔ ∃ a, x = .ok a ∧ f a = .ok b := by
  cases x <;> simp [bind, Except.bind]

lemma mapError_eq_ok_iff {x : Except ε α} {f : ε → ε'} {a : α} : x.mapError f = .ok a ↔ x = .ok a := by
  cases x <;> simp [Except.mapError]

lemma eq_ok_of_toOption_eq_some {x : Except ε α} {a : α} (h : x.toOption = some a) : x = .ok a := by
  cases x with
  | ok b => exact congrArg Except.ok (Option.some.inj h)
  | error e => cases h

lemma foldlM_eq_ok_congr {f g : β → α → Except ε β} {l : List α} (h : ∀ a ∈ l, ∀ b c, f b a = .ok c ↔ g b a = .ok c)
    (b c : β) : l.foldlM f b = .ok c ↔ l.foldlM g b = .ok c := by
  induction l generalizing b with
  | nil => rfl
  | cons a l ih =>
    rw [List.foldlM_cons, List.foldlM_cons, bind_eq_ok_iff, bind_eq_ok_iff]
    exact exists_congr fun d => and_congr (h a (by simp) b d) (ih (fun e he => h e (by simp [he])) d)

lemma foldlM_induction {f : β → α → Except ε β} {I : List α → β → Prop} {l seen : List α} {b c : β} (h : I seen b)
    (hstep : ∀ a ∈ l, ∀ seen b b', I seen b → f b a = .ok b' → I (a :: seen) b') (hl : l.foldlM f b = .ok c) :
    I (l.reverse ++ seen) c := by
  induction l generalizing seen b with
  | nil =>
    obtain rfl := Except.ok.inj hl
    exact h
  | cons a l ih =>
    rw [List.foldlM_cons, bind_eq_ok_iff] at hl
    obtain ⟨d, hd, hl⟩ := hl
    rw [List.reverse_cons, List.append_assoc]
    exact ih (hstep a (by simp) seen b d h hd) (fun e he => hstep e (by simp [he])) hl

lemma exists_eq_ok_of_foldlM {f : β → α → Except ε β} {l : List α} {b c : β} (h : l.foldlM f b = .ok c) {a : α} (ha : a ∈ l) :
    ∃ d d', f d a = .ok d' := by
  have hnil : ∀ a ∈ ([] : List α), ∃ d d', f d a = .ok d' := fun _ h => nomatch h
  have hseen := foldlM_induction (I := fun seen _ => ∀ a ∈ seen, ∃ d d', f d a = .ok d') hnil
    (fun a _ seen d d' hd hstep => List.forall_mem_cons.2 ⟨⟨d, d', hstep⟩, hd⟩) h
  exact hseen a (by simpa using ha)

lemma mapM_eq_ok_iff {f : α → Except ε β} {l : List α} {found : List β} :
    l.mapM f = .ok found ↔ List.Forall₂ (fun a b => f a = .ok b) l found := by
  induction l generalizing found with
  | nil => cases found <;> simp [pure, Except.pure]
  | cons a l ih =>
    rw [List.mapM_cons, bind_eq_ok_iff]
    constructor
    · rintro ⟨b, hb, h⟩
      obtain ⟨bs, hbs, h⟩ := bind_eq_ok_iff.1 h
      obtain rfl := Except.ok.inj h
      exact .cons hb (ih.1 hbs)
    · intro h
      cases h with
      | cons hb h => exact ⟨_, hb, bind_eq_ok_iff.2 ⟨_, ih.2 h, rfl⟩⟩

lemma mapM_eq_some_iff {f : α → Option β} {l : List α} {found : List β} :
    l.mapM f = some found ↔ List.Forall₂ (fun a b => f a = some b) l found := by
  induction l generalizing found with
  | nil => cases found <;> simp
  | cons a l ih =>
    simp only [List.mapM_cons, Option.bind_eq_bind, Option.bind_eq_some_iff, Option.pure_def, Option.some.injEq]
    constructor
    · rintro ⟨b, hb, bs, hbs, rfl⟩
      exact .cons hb (ih.1 hbs)
    · intro h
      cases h with
      | cons hb h => exact ⟨_, hb, _, ih.2 h, rfl⟩

lemma exists_forall₂ {R : α → β → Prop} {l : List α} (h : ∀ a ∈ l, ∃ b, R a b) : ∃ l', List.Forall₂ R l l' := by
  induction l with
  | nil => exact ⟨[], .nil⟩
  | cons a l ih =>
    obtain ⟨b, hb⟩ := h a (by simp)
    obtain ⟨l', hl⟩ := ih fun x hx => h x (by simp [hx])
    exact ⟨b :: l', .cons hb hl⟩

lemma exists_of_forall₂ {R : α → β → Prop} {l : List α} {l' : List β} (h : List.Forall₂ R l l') {a : α} (ha : a ∈ l) :
    ∃ b ∈ l', R a b := by
  induction h with
  | nil => cases ha
  | @cons _ b _ _ hab _ ih =>
    rcases List.mem_cons.1 ha with rfl | ha
    · exact ⟨b, by simp, hab⟩
    · obtain ⟨c, hc, hac⟩ := ih ha
      exact ⟨c, by simp [hc], hac⟩

lemma forall₂_comp {R : α → β → Prop} {S : β → γ → Prop} {T : α → γ → Prop} {l : List α} {m : List β} {n : List γ}
    (h : List.Forall₂ R l m) (h' : List.Forall₂ S m n) (ht : ∀ a b c, a ∈ l → R a b → S b c → T a c) :
    List.Forall₂ T l n := by
  induction h generalizing n with
  | nil =>
    cases h'
    exact .nil
  | cons hr _ ih =>
    cases h' with
    | cons hs h' => exact .cons (ht _ _ _ (by simp) hr hs) (ih h' fun a b c ha => ht a b c (by simp [ha]))

lemma lookup_filter [BEq α] [LawfulBEq α] {a : α} {l : List (α × β)} {keep : α → Bool} :
    (l.filter fun e => keep e.1).lookup a = if keep a then l.lookup a else none := by
  induction l with
  | nil => simp
  | cons e l ih =>
    obtain ⟨b, x⟩ := e
    rw [List.filter_cons]
    by_cases hab : a = b
    · subst hab
      cases hk : keep a <;> simp [hk, ih]
    · have hne : (a == b) = false := beq_eq_false_iff_ne.2 hab
      cases hk : keep b <;> simp [List.lookup_cons, hne, ih]

end NamespaceMigration
