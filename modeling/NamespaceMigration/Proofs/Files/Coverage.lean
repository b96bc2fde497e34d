import NamespaceMigration.Proofs.Files.Arrival

/-! What a walk that ends well has come by. -/

namespace NamespaceMigration.FileTree

variable {t u : FileTree} {start p q place : Place} {dir : Ancestor} {above : List Ancestor} {name : RawText} {entry : WalkEntry}
  {path names : List RawText} {n : Node} {k : ℕ}

/-- Whether a well-formed tree has its nodes in directories, and no name that is too long. -/
structure Rooted (t : FileTree) : Prop extends WellFormed t where
  parents : ∀ p n, t.find? p = some n → t.Reaches p.dropLast
  short : ∀ p ∈ t.nodes.map Prod.fst, ∀ name ∈ p, name.octets.length ≤ Path.longestName

lemma rooted_of_forall_mem (h : t.WellFormed) (hdirs : ∀ p ∈ t.nodes.map Prod.fst, t.find? p.dropLast = some .directory)
    (hshort : ∀ p ∈ t.nodes.map Prod.fst, ∀ name ∈ p, name.octets.length ≤ Path.longestName) : t.Rooted where
  toWellFormed := h
  short := hshort
  parents p n hn := by
    induction p using List.reverseRec generalizing n with
    | nil => exact reaches_nil t
    | append_singleton p name ih =>
      rw [List.dropLast_concat]
      by_cases hnil : p = []
      · rw [hnil]
        exact reaches_nil t
      · have hp := hdirs _ (mem_of_find?_ne_none (by simp) (hn ▸ Option.some_ne_none n))
        rw [List.dropLast_concat] at hp
        exact (reaches_iff hnil).2 ⟨ih _ hp, hp⟩

lemma Rooted.reaches (h : t.Rooted) (hn : t.find? p = some .directory) : t.Reaches p := by
  by_cases hnil : p = []
  · rw [hnil]
    exact reaches_nil t
  · exact (reaches_iff hnil).2 ⟨h.parents p _ hn, hn⟩

lemma Rooted.isName (h : t.Rooted) (hn : t.find? p ≠ none) : ∀ name ∈ p, Path.IsName name := by
  by_cases hp : p = []
  · simp [hp]
  · exact h.names p (mem_of_find?_ne_none hp hn)

lemma Rooted.isStep (h : t.Rooted) (hn : t.find? p ≠ none) : ∀ name ∈ p, IsStep name := by
  intro name hname
  have hp : p ≠ [] := List.ne_nil_of_mem hname
  have h' := h.isName hn name hname
  exact ⟨h'.ne_empty, h'.ne_dot, h'.ne_dots, h.short p (mem_of_find?_ne_none hp hn) name hname⟩

lemma Rooted.find?_above (h : t.Rooted) (hn : t.find? q = some n) (hp : p <+: q) (hne : p ≠ q) :
    t.find? p = some .directory := by
  obtain ⟨rest, rfl⟩ := hp
  refine h.parents _ n hn p ?_
  rw [List.dropLast_append_of_ne_nil (by simpa using hne)]
  exact List.prefix_append p _

lemma Rooted.find?_eq_none (h : t.Rooted) (hn : t.find? p = none) (hq : p <+: q) : t.find? q = none := by
  by_contra hne
  obtain ⟨n, hq'⟩ := Option.ne_none_iff_exists'.1 hne
  have hdir := h.find?_above hq' hq (by rintro rfl; exact hne hn)
  rw [hn] at hdir
  cases hdir

lemma of_visit (h : t.visit start dir above name = .ok (entry, place)) :
    ∃ n, t.reach true (start ++ (dir.path ++ [name])) = .ok (.found place n) ∧ entry = ⟨dir.path ++ [name], n.isDirectory⟩ := by
  obtain ⟨⟨q, n⟩, hreach, h⟩ := bind_eq_ok_iff.1 h
  obtain ⟨x, hreach, hx⟩ := bind_eq_ok_iff.1 (mapError_eq_ok_iff.1 hreach)
  cases x with
  | free => cases hx
  | found r m =>
    cases hx
    refine ⟨n, ?_⟩
    dsimp only at h
    split at h
    next =>
      split_ifs at h
      obtain ⟨rfl, rfl⟩ := Prod.mk.inj (Except.ok.inj h)
      exact ⟨hreach, rfl⟩
    next =>
      obtain ⟨rfl, rfl⟩ := Prod.mk.inj (Except.ok.inj h)
      exact ⟨hreach, rfl⟩

lemma reach_of_mem_walkBelow {depth : ℕ} {entries : List WalkEntry} (h : t.walkBelow start depth dir above = .ok entries)
    (he : entry ∈ entries) : ∃ q n, t.reach true (start ++ entry.path) = .ok (.found q n) ∧ entry.isDirectory = n.isDirectory := by
  induction depth generalizing dir above entries with
  | zero => cases h
  | succ depth ih =>
    obtain ⟨parts, hparts, h⟩ := bind_eq_ok_iff.1 h
    obtain rfl := Except.ok.inj h
    obtain ⟨part, hpart, he⟩ := List.mem_flatten.1 he
    obtain ⟨name, -, hname⟩ := exists_of_forall₂ (mapM_eq_ok_iff.1 hparts).flip hpart
    obtain ⟨⟨first, q⟩, hvisit, hname⟩ := bind_eq_ok_iff.1 hname
    obtain ⟨n, hreach, rfl⟩ := of_visit hvisit
    dsimp only at hname
    split_ifs at hname
    · obtain ⟨below, hbelow, hname⟩ := bind_eq_ok_iff.1 hname
      obtain rfl := Except.ok.inj hname
      rcases List.mem_cons.1 he with rfl | he
      · exact ⟨q, n, hreach, rfl⟩
      · exact ih hbelow he
    · obtain rfl := Except.ok.inj hname
      obtain rfl := List.mem_singleton.1 he
      exact ⟨q, n, hreach, rfl⟩

def Walked (t : FileTree) (start : Place) (path : List RawText) (place : Place) : Prop :=
  ∃ depth above entries, t.walkBelow start depth ⟨path, place⟩ above = .ok entries

lemma walked_of_walkEntries {entries : List WalkEntry} (h : t.walkEntries start = .ok entries) : t.Walked start [] start :=
  ⟨t.walkDepth, [], entries, h⟩

lemma Walked.visit (h : t.Walked start path p) (hn : t.find? (p ++ [name]) ≠ none) :
    ∃ q n, t.reach true (start ++ (path ++ [name])) = .ok (.found q n) ∧
      (n.isDirectory = true → t.Walked start (path ++ [name]) q) := by
  obtain ⟨depth, above, entries, h⟩ := h
  cases depth with
  | zero => cases h
  | succ depth =>
    obtain ⟨parts, hparts, -⟩ := bind_eq_ok_iff.1 h
    obtain ⟨node, hnode⟩ := Option.ne_none_iff_exists'.1 hn
    obtain ⟨part, -, hpart⟩ := exists_of_forall₂ (mapM_eq_ok_iff.1 hparts) (mem_names hnode)
    obtain ⟨⟨entry, q⟩, hvisit, hpart⟩ := bind_eq_ok_iff.1 hpart
    obtain ⟨n, hreach, rfl⟩ := of_visit hvisit
    refine ⟨q, n, hreach, fun hdir => ?_⟩
    dsimp only at hpart
    rw [if_pos hdir] at hpart
    obtain ⟨below, hbelow, -⟩ := bind_eq_ok_iff.1 hpart
    exact ⟨depth, _, below, hbelow⟩

section Names

variable {links : ℕ} {x : Target}

lemma isStep_of_follow (hname : Path.IsName name) (h : t.follow true links p (name :: names) = .ok x) : IsStep name := by
  refine ⟨hname.ne_empty, hname.ne_dot, hname.ne_dots, Nat.not_lt.1 fun hlong => ?_⟩
  cases links with
  | zero => cases h
  | succ links =>
    rw [follow, walk, if_neg (by simp [hname.ne_empty, hname.ne_dot]), if_neg hname.ne_dots, if_pos hlong] at h
    cases h

lemma eq_append_of_follow (hr : t.Reaches p) (hnames : ∀ s ∈ names, Path.IsName s)
    (hlinks : ∀ q aim, p <+: q → t.find? q ≠ some (.link aim)) (h : t.follow true links p names = .ok (.found q n)) :
    q = p ++ names := by
  cases links with
  | zero => cases h
  | succ links =>
    have hfilter : names.filter (· ≠ ("" : RawText)) = names := List.filter_eq_self.2 fun s hs => by simpa using (hnames s hs).ne_empty
    have hplain : t.Plain (p ++ names.filter (· ≠ ("" : RawText))) := by
      intro q aim hq hlink
      rcases List.prefix_or_prefix_of_prefix hq (List.prefix_append p _) with hqp | hpq
      · rw [hr q hqp] at hlink
        cases hlink
      · exact hlinks q aim hpq hlink
    have hstands := stands_of_walk hr (fun s hs => ⟨(hnames s hs).ne_dot, (hnames s hs).ne_dots⟩) hplain h
    rw [hfilter] at hstands
    cases hstands
    rfl

lemma Grows.find?_eq_none_of_new (h : t.Grows u) (hrooted : t.Rooted) (hr : u.Reaches q) (hn : t.find? (q ++ [name]) = none)
    (hnames : ∀ s ∈ name :: names, Path.IsName s) (hf : u.follow true links q (name :: names) = .ok (.found p n)) :
    t.find? p = none := by
  have hstep := isStep_of_follow (hnames name (by simp)) hf
  have hnew : ∀ r, q ++ [name] <+: r → t.find? r = none := fun r hr => hrooted.find?_eq_none hn hr
  cases links with
  | zero => cases hf
  | succ links =>
    rw [follow_step hstep] at hf
    cases hn' : u.find? (q ++ [name]) with
    | none =>
      rw [hn'] at hf
      dsimp only at hf
      split at hf <;> cases hf
    | some node =>
      rw [hn'] at hf
      cases node with
      | file =>
        dsimp only at hf
        split at hf
        · cases hf
          exact hn
        · cases hf
      | link aim =>
        rw [h.links _ aim hn'] at hn
        cases hn
      | directory =>
        have hlinks : ∀ r aim, q ++ [name] <+: r → u.find? r ≠ some (.link aim) := by
          intro r aim hr hlink
          exact absurd (h.links r aim hlink) (by simp [hnew r hr])
        have hp := eq_append_of_follow (reaches_concat.2 ⟨hr, hn'⟩) (fun s hs => hnames s (by simp [hs])) hlinks hf
        exact hnew p (hp ▸ List.prefix_append _ _)

lemma Leads.reach_append (h : t.Leads [] path k q names) (hk : k < 41) (more : List RawText) :
    ∃ links, t.reach true (path ++ more) = t.follow true (links + 1) q (names ++ more) := by
  obtain ⟨links, hlinks⟩ : ∃ links, 41 = links + 1 + k := ⟨40 - k, by omega⟩
  exact ⟨links, by rw [reach, hlinks, (h.append more).follow_eq]⟩

variable {content : Bytes}

lemma Grows.reach_of_reach (h : t.Grows u) (hrooted : t.Rooted) (hnames : ∀ s ∈ names, Path.IsName s)
    (hp : t.find? p = some (.file content)) (hwalked : t.Walked start path q) (hk : k < 41)
    (hleads : t.Leads [] (start ++ path) k q []) (hreach : u.reach true (start ++ (path ++ names)) = .ok (.found p n)) :
    t.reach true (start ++ (path ++ names)) = .ok (.found p (.file content)) := by
  -- the induction goes along the names, which lead through directories and links that were there before
  induction names generalizing path q k with
  | nil =>
    rw [List.append_nil] at hreach ⊢
    have hdir : t.reach true (start ++ path) = .ok (.found q .directory) :=
      follow_eq_ok_iff.2 ⟨k, q, [], hk, hleads, .directory q⟩
    obtain ⟨n', hn', hsame⟩ := h.follow hdir
    cases hreach.symm.trans hn'
    have hq : t.find? p = some .directory := reaches_of_follow (reaches_nil t) hdir p List.prefix_rfl
    rw [hp] at hq
    cases hq
  | cons name names ih =>
    have hassoc : path ++ name :: names = path ++ [name] ++ names := by simp
    by_cases hn : t.find? (q ++ [name]) = none
    · exfalso
      obtain ⟨links, hfollow⟩ := (h.leads hleads).reach_append hk (name :: names)
      rw [List.append_assoc, hreach] at hfollow
      have hdir : t.follow true 41 [] (start ++ path) = .ok (.found q .directory) :=
        follow_eq_ok_iff.2 ⟨k, q, [], hk, hleads, .directory q⟩
      have hq := h.reaches (reaches_of_follow (reaches_nil t) hdir)
      rw [h.find?_eq_none_of_new hrooted hq hn hnames hfollow.symm] at hp
      cases hp
    · obtain ⟨r, m, hr, hwalked⟩ := hwalked.visit hn
      obtain ⟨j, s, rest, hj, hleads, hends⟩ := follow_eq_ok_iff.1 hr
      rw [hassoc] at hreach ⊢
      cases hends with
      | directory => exact ih (fun s hs => hnames s (by simp [hs])) (hwalked rfl) hj hleads hreach
      | file hseg hfound =>
        -- nothing comes after a file
        obtain ⟨links, hfollow⟩ := (h.leads hleads).reach_append hj names
        obtain ⟨now, hnow⟩ := isFile_iff.1 (h.files _ (isFile_iff.2 ⟨_, hfound⟩))
        rw [List.append_assoc, hreach, List.singleton_append, follow_step hseg, hnow] at hfollow
        dsimp only at hfollow
        split_ifs at hfollow with hnil
        subst hnil
        cases hfollow
        rw [List.append_nil, hr, ← Option.some.inj (hfound.symm.trans hp)]

end Names

end NamespaceMigration.FileTree
