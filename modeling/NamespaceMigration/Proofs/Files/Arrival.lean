import NamespaceMigration.Proofs.Files.Walk

/-! How a path is followed, one segment after another. -/

namespace NamespaceMigration.FileTree

structure IsStep (seg : RawText) : Prop where
  ne_empty : seg ≠ ""
  ne_dot : seg ≠ "."
  ne_dots : seg ≠ ".."
  short : seg.octets.length ≤ Path.longestName

/-- Whether segments lead from one directory to another one with some of them left, through as many links as the number says. -/
inductive Leads (t : FileTree) : Place → List RawText → ℕ → Place → List RawText → Prop
  | here (p : Place) (segs : List RawText) : Leads t p segs 0 p segs
  | stay {p q : Place} {seg : RawText} {segs rest : List RawText} {k : ℕ} (hseg : seg = "" ∨ seg = ".")
      (h : Leads t p segs k q rest) : Leads t p (seg :: segs) k q rest
  | up {p q : Place} {segs rest : List RawText} {k : ℕ} (h : Leads t p.dropLast segs k q rest) :
      Leads t p (".." :: segs) k q rest
  | enter {p q : Place} {seg : RawText} {segs rest : List RawText} {k : ℕ} (hseg : IsStep seg)
      (hn : t.find? (p ++ [seg]) = some .directory) (h : Leads t (p ++ [seg]) segs k q rest) :
      Leads t p (seg :: segs) k q rest
  | jump {p q : Place} {seg aim : RawText} {segs rest : List RawText} {k : ℕ} (hseg : IsStep seg)
      (hn : t.find? (p ++ [seg]) = some (.link aim))
      (h : Leads t (if Path.isAbsolute aim then [] else p) (Path.segments aim ++ segs) k q rest) :
      Leads t p (seg :: segs) (k + 1) q rest

inductive Ends (t : FileTree) : Place → List RawText → Target → Prop
  | directory (p : Place) : Ends t p [] (.found p .directory)
  | file {p : Place} {seg : RawText} {content : Bytes} (hseg : IsStep seg) (hn : t.find? (p ++ [seg]) = some (.file content)) :
      Ends t p [seg] (.found (p ++ [seg]) (.file content))
  | free {p : Place} {seg : RawText} {rest : List RawText} (hseg : IsStep seg) (hn : t.find? (p ++ [seg]) = none)
      (hrest : ∀ s ∈ rest, s = "") : Ends t p (seg :: rest) (.free (p ++ [seg]))

variable {t u : FileTree} {p q r : Place} {segs rest rest' more : List RawText} {seg aim : RawText} {x : Target} {n : Node}
  {j k links : ℕ}

section Steps

lemma follow_stay (hseg : seg = "" ∨ seg = ".") :
    t.follow true (links + 1) p (seg :: segs) = t.follow true (links + 1) p segs := by
  rw [follow, walk, if_pos hseg, follow]

lemma follow_up : t.follow true (links + 1) p (".." :: segs) = t.follow true (links + 1) p.dropLast segs := by
  rw [follow, walk, if_neg (by decide), if_pos rfl, follow]

lemma follow_step (hseg : IsStep seg) : t.follow true (links + 1) p (seg :: segs) =
    match t.find? (p ++ [seg]) with
    | some .directory => t.follow true (links + 1) (p ++ [seg]) segs
    | some (.link aim) => t.follow true links (if Path.isAbsolute aim then [] else p) (Path.segments aim ++ segs)
    | some (.file content) => if segs = [] then .ok (.found (p ++ [seg]) (.file content)) else .error .notADirectory
    | none => if ∀ s ∈ segs, s = "" then .ok (.free (p ++ [seg])) else .error .notFound := by
  rw [follow, walk, if_neg (by simp [hseg.ne_empty, hseg.ne_dot]), if_neg hseg.ne_dots, if_neg (Nat.not_lt.2 hseg.short)]
  cases t.find? (p ++ [seg]) with
  | none => simp
  | some n => cases n <;> simp [follow]

lemma Leads.follow_eq (h : t.Leads p segs k q rest) (links : ℕ) :
    t.follow true (links + 1 + k) p segs = t.follow true (links + 1) q rest := by
  induction h with
  | here => rfl
  | @stay seg p segs k q rest hseg _ ih => rw [← ih, Nat.add_right_comm, follow_stay hseg]
  | @up p segs k q rest _ ih => rw [← ih, Nat.add_right_comm, follow_up]
  | @enter seg p segs k q rest hseg hn _ ih => rw [← ih, Nat.add_right_comm, follow_step hseg, hn]
  | @jump seg aim p segs k q rest hseg hn _ ih => rw [← ih, ← Nat.add_assoc, follow_step hseg, hn]

lemma Ends.follow_eq (h : t.Ends p segs x) (links : ℕ) : t.follow true (links + 1) p segs = .ok x := by
  cases h with
  | directory => rfl
  | file hseg hn =>
    rw [follow_step hseg, hn]
    exact if_pos rfl
  | free hseg hn hrest =>
    rw [follow_step hseg, hn]
    exact if_pos hrest

lemma exists_leads_of_walk {jump : Place → List RawText → Except IoFault Target}
    (hj : ∀ p segs, jump p segs = .ok x → ∃ k q rest, k < links ∧ t.Leads p segs k q rest ∧ t.Ends q rest x)
    (h : t.walk true jump p segs = .ok x) : ∃ k q rest, k < links + 1 ∧ t.Leads p segs k q rest ∧ t.Ends q rest x := by
  induction segs generalizing p with
  | nil =>
    obtain rfl := Except.ok.inj h
    exact ⟨0, p, [], Nat.succ_pos links, .here p [], .directory p⟩
  | cons seg segs ih =>
    rw [walk] at h
    split at h
    next hseg =>
      obtain ⟨k, q, rest, hk, hleads, hends⟩ := ih h
      exact ⟨k, q, rest, hk, .stay hseg hleads, hends⟩
    next hempty =>
      split at h
      next hseg =>
        obtain ⟨k, q, rest, hk, hleads, hends⟩ := ih h
        exact ⟨k, q, rest, hk, hseg ▸ .up hleads, hends⟩
      next hdots =>
        split at h
        · cases h
        next hshort =>
          have hseg : IsStep seg := ⟨fun he => hempty (.inl he), fun he => hempty (.inr he), hdots, Nat.not_lt.1 hshort⟩
          cases hn : t.find? (p ++ [seg]) with
          | none =>
            simp only [hn] at h
            split_ifs at h with hrest
            obtain rfl := Except.ok.inj h
            exact ⟨0, p, _, Nat.succ_pos links, .here p _, .free hseg hn (by simpa using hrest)⟩
          | some n =>
            cases n with
            | directory =>
              simp only [hn] at h
              obtain ⟨k, q, rest, hk, hleads, hends⟩ := ih h
              exact ⟨k, q, rest, hk, .enter hseg hn hleads, hends⟩
            | link aim =>
              simp only [hn, Bool.not_true, Bool.and_false, Bool.false_eq_true, if_false] at h
              obtain ⟨k, q, rest, hk, hleads, hends⟩ := hj _ _ h
              exact ⟨k + 1, q, rest, Nat.succ_lt_succ hk, .jump hseg hn hleads, hends⟩
            | file content =>
              simp only [hn] at h
              split_ifs at h with hrest
              obtain rfl := List.isEmpty_iff.1 hrest
              obtain rfl := Except.ok.inj h
              exact ⟨0, p, _, Nat.succ_pos links, .here p _, .file hseg hn⟩

lemma follow_eq_ok_iff :
    t.follow true links p segs = .ok x ↔ ∃ k q rest, k < links ∧ t.Leads p segs k q rest ∧ t.Ends q rest x := by
  constructor
  · intro h
    induction links generalizing p segs with
    | zero => cases h
    | succ links ih => exact exists_leads_of_walk (fun _ _ hj => ih hj) h
  · rintro ⟨k, q, rest, hk, hleads, hends⟩
    obtain ⟨more, rfl⟩ := Nat.exists_eq_add_of_lt hk
    rw [Nat.add_assoc, Nat.add_comm k, hleads.follow_eq]
    exact hends.follow_eq more

end Steps

section Parts

lemma Leads.append (h : t.Leads p segs k q rest) (more : List RawText) : t.Leads p (segs ++ more) k q (rest ++ more) := by
  induction h with
  | here p segs => exact .here p (segs ++ more)
  | stay hseg _ ih => exact .stay hseg ih
  | up _ ih => exact .up ih
  | enter hseg hn _ ih => exact .enter hseg hn ih
  | jump hseg hn _ ih =>
    rw [List.append_assoc] at ih
    exact .jump hseg hn ih

end Parts

lemma leads_of_reaches (hsteps : ∀ s ∈ segs, IsStep s) (hr : t.Reaches (p ++ segs)) : t.Leads p segs 0 (p ++ segs) [] := by
  induction segs generalizing p with
  | nil =>
    rw [List.append_nil]
    exact .here p []
  | cons seg segs ih =>
    have hassoc : p ++ seg :: segs = p ++ [seg] ++ segs := by simp
    rw [hassoc] at hr ⊢
    exact .enter (hsteps seg (by simp)) (hr _ (List.prefix_append _ _)) (ih (fun s hs => hsteps s (by simp [hs])) hr)

section Growing

structure Grows (t u : FileTree) : Prop where
  kept : ∀ p n, t.find? p = some n → n.isFile = false → u.find? p = some n
  files : ∀ p, t.isFile p = true → u.isFile p = true
  links : ∀ p aim, u.find? p = some (.link aim) → t.find? p = some (.link aim)

lemma Grows.refl (t : FileTree) : t.Grows t := ⟨fun _ _ h _ => h, fun _ h => h, fun _ _ h => h⟩

lemma Grows.trans {v : FileTree} (h : t.Grows u) (h' : u.Grows v) : t.Grows v where
  kept p n hn hf := h'.kept p n (h.kept p n hn hf) hf
  files p hp := h'.files p (h.files p hp)
  links p aim hn := h.links p aim (h'.links p aim hn)

lemma Extends.grows (h : t.Extends u) : t.Grows u where
  kept p n hn _ := h.kept p n hn
  files p hp := by
    obtain ⟨content, hn⟩ := isFile_iff.1 hp
    exact isFile_iff.2 ⟨content, h.kept p _ hn⟩
  links p aim hn := (h.made p _ hn).resolve_right (by simp)

lemma grows_fill {content : Bytes} (hp : p ≠ []) (hfree : t.find? p = none ∨ t.isFile p = true) :
    t.Grows (t.fill p content) where
  kept q n hn hf := by
    rw [find?_fill hp, if_neg, hn]
    intro hsame
    rcases hfree with hfree | hfile
    · rcases isSame_iff.1 hsame with rfl | ⟨hfile, -⟩
      · rw [hfree] at hn
        cases hn
      · rw [isFile, hfree] at hfile
        cases hfile
    · obtain ⟨old, hold⟩ := isFile_iff.1 ((isFile_of_isSame hsame).trans hfile)
      obtain rfl := Option.some.inj (hold.symm.trans hn)
      cases hf
  files q hq := by rw [isFile_fill hp, hq, Bool.or_true]
  links q aim hn := by
    rw [find?_fill hp] at hn
    split at hn
    · cases hn
    · exact hn

lemma Grows.reaches (h : t.Grows u) (hp : t.Reaches p) : u.Reaches p := fun q hq => h.kept q _ (hp q hq) rfl

lemma Grows.leads (h : t.Grows u) (hl : t.Leads p segs k q rest) : u.Leads p segs k q rest := by
  induction hl with
  | here p segs => exact .here p segs
  | stay hseg _ ih => exact .stay hseg ih
  | up _ ih => exact .up ih
  | enter hseg hn _ ih => exact .enter hseg (h.kept _ _ hn rfl) ih
  | jump hseg hn _ ih => exact .jump hseg (h.kept _ _ hn rfl) ih

lemma Grows.follow (h : t.Grows u) (hf : t.follow true links p segs = .ok (.found q n)) :
    ∃ n', u.follow true links p segs = .ok (.found q n') ∧ n'.isDirectory = n.isDirectory := by
  obtain ⟨k, r, rest, hk, hleads, hends⟩ := follow_eq_ok_iff.1 hf
  cases hends with
  | directory => exact ⟨.directory, follow_eq_ok_iff.2 ⟨k, _, _, hk, h.leads hleads, .directory _⟩, rfl⟩
  | file hseg hn =>
    obtain ⟨content, hn'⟩ := isFile_iff.1 (h.files _ (isFile_iff.2 ⟨_, hn⟩))
    exact ⟨.file content, follow_eq_ok_iff.2 ⟨k, _, _, hk, h.leads hleads, .file hseg hn'⟩, rfl⟩

lemma Grows.resolve (h : t.Grows u) {cwd : Place} {path : RawText} (hr : t.resolve cwd path = .ok (q, n)) :
    ∃ n', u.resolve cwd path = .ok (q, n') ∧ n'.isDirectory = n.isDirectory := by
  rw [resolve_eq_ok_iff, locate] at hr
  split at hr
  next => cases hr
  next hflaw =>
    obtain ⟨n', hu, hn⟩ := h.follow hr
    refine ⟨n', resolve_eq_ok_iff.2 ?_, hn⟩
    rw [locate, hflaw]
    exact hu

end Growing

end NamespaceMigration.FileTree
