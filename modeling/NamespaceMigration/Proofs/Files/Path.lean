import NamespaceMigration.Files.Path
import NamespaceMigration.Proofs.Files.Tree

/-! Paths that lead to directories lead to the same ones in trees that agree in directories and links. -/

namespace NamespaceMigration.FileTree

variable {t t' : FileTree} {cwd r r' : Place} {path : RawText}

def Agree (t t' : FileTree) : Prop :=
  ∀ p n n', t.find? p = some n → t'.find? p = some n' → n.isFile = false → n'.isFile = false → n = n'

lemma walk_inj (h : Agree t t') {jump jump' : Place → List RawText → Except IoFault Target}
    (hj : ∀ start segs r r', jump start segs = .ok (.found r .directory) →
      jump' start segs = .ok (.found r' .directory) → r = r')
    {start : Place} {segs : List RawText} (hw : t.walk true jump start segs = .ok (.found r .directory))
    (hw' : t'.walk true jump' start segs = .ok (.found r' .directory)) : r = r' := by
  induction segs generalizing start with
  | nil =>
    simp only [walk, Except.ok.injEq, Target.found.injEq, and_true] at hw hw'
    exact hw.symm.trans hw'
  | cons seg rest ih =>
    rw [walk] at hw hw'
    split at hw
    next hs =>
      rw [if_pos hs] at hw'
      exact ih hw hw'
    next hs =>
      rw [if_neg hs] at hw'
      split at hw
      next hu =>
        rw [if_pos hu] at hw'
        exact ih hw hw'
      next hu =>
        rw [if_neg hu] at hw'
        split at hw
        next => cases hw
        next hl =>
          rw [if_neg hl] at hw'
          cases hn : t.find? (start ++ [seg]) with
          | none =>
            simp only [hn] at hw
            split at hw <;> cases hw
          | some n =>
            cases hn' : t'.find? (start ++ [seg]) with
            | none =>
              simp only [hn'] at hw'
              split at hw' <;> cases hw'
            | some n' =>
              have hagree := h _ n n' hn hn'
              -- a file ends a walk, and not at a directory
              cases n with
              | file content =>
                simp only [hn] at hw
                split at hw <;> cases hw
              | directory =>
                cases n' with
                | file content =>
                  simp only [hn'] at hw'
                  split at hw' <;> cases hw'
                | directory =>
                  simp only [hn] at hw
                  simp only [hn'] at hw'
                  exact ih hw hw'
                | link target => cases hagree rfl rfl
              | link target =>
                cases n' with
                | file content =>
                  simp only [hn'] at hw'
                  split at hw' <;> cases hw'
                | directory => cases hagree rfl rfl
                | link target' =>
                  cases hagree rfl rfl
                  simp only [hn, Bool.not_true, Bool.and_false, Bool.false_eq_true, if_false] at hw
                  simp only [hn', Bool.not_true, Bool.and_false, Bool.false_eq_true, if_false] at hw'
                  exact hj _ _ r r' hw hw'

lemma follow_inj (h : Agree t t') (links : ℕ) {start : Place} {segs : List RawText}
    (hw : t.follow true links start segs = .ok (.found r .directory))
    (hw' : t'.follow true links start segs = .ok (.found r' .directory)) : r = r' := by
  induction links generalizing start segs r r' with
  | zero => cases hw
  | succ links ih => exact walk_inj h (fun _ _ _ _ hj hj' => ih hj hj') hw hw'

lemma resolve_eq_ok_iff {p : Place} {n : Node} : t.resolve cwd path = .ok (p, n) ↔ t.locate true cwd path = .ok (.found p n) := by
  rw [resolve, bind_eq_ok_iff]
  constructor
  · rintro ⟨target, ht, hn⟩
    cases target with
    | free => cases hn
    | found q m =>
      simp only [Target.node, Except.ok.injEq, Prod.mk.injEq] at hn
      obtain ⟨rfl, rfl⟩ := hn
      exact ht
  · exact fun h => ⟨_, h, rfl⟩

lemma resolve_inj (h : Agree t t') (hr : t.resolve cwd path = .ok (r, .directory))
    (hr' : t'.resolve cwd path = .ok (r', .directory)) : r = r' := by
  rw [resolve_eq_ok_iff, locate] at hr hr'
  split at hr
  next => cases hr
  next hf =>
    rw [hf] at hr'
    exact follow_inj h 41 hr hr'

lemma reaches_of_walk {followLast : Bool} {jump : Place → List RawText → Except IoFault Target}
    (hj : ∀ start segs, t.Reaches start → jump start segs = .ok (.found r .directory) → t.Reaches r)
    {start : Place} {segs : List RawText} (hr : t.Reaches start)
    (h : t.walk followLast jump start segs = .ok (.found r .directory)) : t.Reaches r := by
  induction segs generalizing start with
  | nil =>
    obtain rfl := (Target.found.inj (Except.ok.inj h)).1
    exact hr
  | cons seg rest ih =>
    rw [walk] at h
    split at h
    · exact ih hr h
    split at h
    · exact ih (hr.of_prefix (List.dropLast_prefix start)) h
    split at h
    · cases h
    split at h
    next hn => exact ih (reaches_concat.2 ⟨hr, hn⟩) h
    next =>
      split at h
      · cases h
      refine hj _ _ ?_ h
      split
      · exact reaches_nil t
      · exact hr
    next n hdir _ hn =>
      split at h
      · obtain ⟨rfl, rfl⟩ := Target.found.inj (Except.ok.inj h)
        exact absurd rfl hdir
      · cases h
    next => split at h <;> cases h

lemma reaches_of_follow {followLast : Bool} {links : ℕ} {start : Place} {segs : List RawText} (hr : t.Reaches start)
    (h : t.follow followLast links start segs = .ok (.found r .directory)) : t.Reaches r := by
  induction links generalizing start segs with
  | zero => cases h
  | succ links ih => exact reaches_of_walk (fun _ _ hr hj => ih hr hj) hr h

lemma reaches_of_resolve (hcwd : t.Reaches cwd) (h : t.resolve cwd path = .ok (r, .directory)) : t.Reaches r := by
  rw [resolve_eq_ok_iff, locate] at h
  split at h
  next => cases h
  next =>
    refine reaches_of_follow ?_ h
    split
    · exact reaches_nil t
    · exact hcwd

lemma exists_of_makeDirectoryAt (h : t.makeDirectoryAt cwd path = .ok t') : ∃ p, t.find? p = none ∧ t' = t.put p .directory := by
  obtain ⟨target, -, h⟩ := bind_eq_ok_iff.1 h
  cases target with
  | found => cases h
  | free p =>
    obtain ⟨_, -, h⟩ := bind_eq_ok_iff.1 h
    cases hp : t.find? p with
    | none =>
      rw [hp] at h
      exact ⟨p, hp, (Except.ok.inj h).symm⟩
    | some n =>
      rw [hp] at h
      cases h

lemma makeDirectoryAt_eq_ok (h : t.makeDirectoryAt cwd path = .ok t') : t.Extends t' := by
  obtain ⟨p, hp, rfl⟩ := exists_of_makeDirectoryAt h
  exact extends_put_directory hp

lemma of_makeDirectoriesFrom {P : FileTree → Prop} (hmake : ∀ path t t', P t → t.makeDirectoryAt cwd path = .ok t' → P t')
    {fuel : ℕ} (ht : P t) (h : makeDirectoriesFrom cwd fuel path t = .ok t') : P t' := by
  induction fuel generalizing path t t' with
  | zero => cases h
  | succ fuel ih =>
    rw [makeDirectoriesFrom] at h
    split at h
    · obtain rfl := Except.ok.inj h
      exact ht
    · split at h
      next hm =>
        obtain rfl := Except.ok.inj h
        exact hmake _ _ _ ht hm
      next =>
        split at h
        next => cases h
        next =>
          obtain ⟨u, hu, h⟩ := bind_eq_ok_iff.1 h
          split at h
          next hm =>
            obtain rfl := Except.ok.inj h
            exact hmake _ _ _ (ih ht hu) hm
          next =>
            split at h
            · obtain rfl := Except.ok.inj h
              exact ih ht hu
            · cases h
      next =>
        split at h
        · obtain rfl := Except.ok.inj h
          exact ht
        · cases h

lemma makeDirectoriesAt_eq_ok (h : t.makeDirectoriesAt cwd path = .ok t') : t.Extends t' :=
  of_makeDirectoriesFrom (fun _ _ _ ht hm => ht.trans (makeDirectoryAt_eq_ok hm)) (.refl t) h

lemma isSame_makeDirectoriesAt {p : Place} (hp : t.isFile p = true) (h : t.makeDirectoriesAt cwd path = .ok t') (q : Place) :
    t'.isSame p q = t.isSame p q := by
  refine (of_makeDirectoriesFrom (P := fun u => u.isFile p = true ∧ ∀ q, u.isSame p q = t.isSame p q) ?_ ⟨hp, fun _ => rfl⟩ h).2 q
  rintro path u _ ⟨hfile, hsame⟩ hm
  obtain ⟨r, hr, rfl⟩ := exists_of_makeDirectoryAt hm
  have hnot : u.isFile r = false := by rw [isFile, hr, Option.any_none]
  have hne : p ≠ r := by
    rintro rfl
    rw [hfile] at hnot
    cases hnot
  refine ⟨(isFile_put_of_ne hne).trans hfile, fun q => ?_⟩
  rw [← hsame q, Bool.eq_iff_iff, isSame_put hne]
  refine and_iff_left_of_imp fun hq => ?_
  rintro rfl
  rw [isFile_of_isSame hq, hfile] at hnot
  cases hnot

end NamespaceMigration.FileTree
