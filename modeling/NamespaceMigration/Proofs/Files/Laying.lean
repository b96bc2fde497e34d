import NamespaceMigration.Proofs.Files.Coverage

/-! Nodes put in their places one after another. -/

namespace NamespaceMigration.FileTree

variable {t u : FileTree} {p q : Place} {n k : Node} {l l' : List (Place × Node)}

section Putting

variable (hp : p ≠ []) (hkind : t.find? p = some .directory → n = .directory)
include hp hkind

lemma Reaches.put (h : t.Reaches q) : (t.put p n).Reaches q := by
  intro r hr
  by_cases hrp : r = p
  · subst hrp
    rw [find?_put_self hp, hkind (h r hr)]
  · rw [find?_put_of_ne hrp, h r hr]

lemma Rooted.put (h : t.Rooted) (hsteps : ∀ name ∈ p, Path.IsName name ∧ name.octets.length ≤ Path.longestName)
    (hr : t.Reaches p.dropLast) : (t.put p n).Rooted := by
  have hkeys : (t.put p n).nodes.map Prod.fst = p :: (t.nodes.map Prod.fst).filter (· != p) := by
    rw [FileTree.put, erase, List.map_cons, List.filter_map]
    rfl
  refine ⟨⟨?_, ?_⟩, ?_, ?_⟩
  · rw [hkeys, List.nodup_cons]
    exact ⟨by simp, h.nodup.filter _⟩
  · rw [hkeys, List.forall_mem_cons]
    exact ⟨fun name hname => (hsteps name hname).1, fun q hq => h.names q (List.mem_of_mem_filter hq)⟩
  · intro q k hq
    by_cases hqp : q = p
    · subst hqp
      exact hr.put hp hkind
    · rw [find?_put_of_ne hqp] at hq
      exact (h.parents q k hq).put hp hkind
  · rw [hkeys, List.forall_mem_cons]
    exact ⟨fun name hname => (hsteps name hname).2, fun q hq => h.short q (List.mem_of_mem_filter hq)⟩

end Putting

section Filling

variable {content : Bytes} (hp : p ≠ []) (hkind : t.find? p ≠ some .directory)
include hp hkind

lemma Reaches.fill (h : t.Reaches q) : (t.fill p content).Reaches q :=
  fun r hr => find?_fill_of_directory hp hkind (h r hr)

lemma Rooted.fill (h : t.Rooted) (hsteps : ∀ name ∈ p, Path.IsName name ∧ name.octets.length ≤ Path.longestName)
    (hr : t.Reaches p.dropLast) : (t.fill p content).Rooted := by
  by_cases hfile : t.isFile p = true
  · have hkeys : (t.fill p content).nodes.map Prod.fst = t.nodes.map Prod.fst := by
      rw [FileTree.fill, if_pos hfile, List.map_map]
      rfl
    refine ⟨⟨hkeys ▸ h.nodup, hkeys ▸ h.names⟩, fun q k hq => Reaches.fill hp hkind ?_, hkeys ▸ h.short⟩
    rw [find?_fill hp] at hq
    split_ifs at hq with hsame
    · obtain ⟨old, hold⟩ := isFile_iff.1 ((isFile_of_isSame hsame).trans hfile)
      exact h.parents q _ hold
    · exact h.parents q k hq
  · rw [FileTree.fill, if_neg hfile]
    exact h.put hp (fun hd => absurd hd hkind) hsteps hr

end Filling

section Making

variable {cwd : Place} {path : RawText} {segs : List RawText}

lemma notMem_of_mem_splitOnP {s w : Bytes} (hw : w ∈ s.splitOnP (· == Path.slash)) : Path.slash ∉ w := by
  induction s generalizing w with
  | nil =>
    obtain rfl : w = [] := by simpa using hw
    simp
  | cons c s ih =>
    rw [List.splitOnP_cons_eq_if_modifyHead] at hw
    split_ifs at hw with hc
    · rcases List.mem_cons.1 hw with rfl | hw
      · simp
      · exact ih hw
    · obtain ⟨first, rest, hsplit⟩ := List.exists_cons_of_ne_nil (List.splitOnP_ne_nil (· == Path.slash) s)
      rw [hsplit, List.modifyHead_cons] at hw
      rcases List.mem_cons.1 hw with rfl | hw
      · rw [List.mem_cons, not_or]
        exact ⟨fun he => hc (by simp [← he]), ih (by simp [hsplit])⟩
      · exact ih (by simp [hsplit, hw])

lemma notMem_of_mem_segments {seg : RawText} (h : seg ∈ Path.segments path) : Path.slash ∉ seg.octets := by
  obtain ⟨w, hw, rfl⟩ := List.mem_map.1 h
  simpa using notMem_of_mem_splitOnP hw

lemma exists_name_of_walk {followLast : Bool} {jump : Place → List RawText → Except IoFault Target} {start : Place}
    (hj : ∀ start segs, (∀ seg ∈ segs, Path.slash ∉ seg.octets) → jump start segs = .ok (.free p) →
      ∃ q name, p = q ++ [name] ∧ Path.IsName name ∧ name.octets.length ≤ Path.longestName)
    (hsegs : ∀ seg ∈ segs, Path.slash ∉ seg.octets) (h : t.walk followLast jump start segs = .ok (.free p)) :
    ∃ q name, p = q ++ [name] ∧ Path.IsName name ∧ name.octets.length ≤ Path.longestName := by
  induction segs generalizing start with
  | nil => cases h
  | cons seg segs ih =>
    obtain ⟨hseg, hrest⟩ := List.forall_mem_cons.1 hsegs
    rw [walk] at h
    split at h
    next => exact ih hrest h
    next hempty =>
      split at h
      next => exact ih hrest h
      next hdots =>
        split at h
        next => cases h
        next hshort =>
          split at h
          next => exact ih hrest h
          next =>
            split at h
            · cases h
            · exact hj _ _ (List.forall_mem_append.2 ⟨fun _ => notMem_of_mem_segments, hrest⟩) h
          next => split at h <;> cases h
          next =>
            split at h
            · obtain rfl := Target.free.inj (Except.ok.inj h)
              exact ⟨start, seg, rfl, ⟨fun he => hempty (.inl he), hseg, fun he => hempty (.inr he), hdots⟩, Nat.not_lt.1 hshort⟩
            · cases h

lemma exists_name_of_follow {followLast : Bool} {links : ℕ} {start : Place} (hsegs : ∀ seg ∈ segs, Path.slash ∉ seg.octets)
    (h : t.follow followLast links start segs = .ok (.free p)) :
    ∃ q name, p = q ++ [name] ∧ Path.IsName name ∧ name.octets.length ≤ Path.longestName := by
  induction links generalizing start segs with
  | zero => cases h
  | succ links ih => exact exists_name_of_walk (fun _ _ hsegs hj => ih hsegs hj) hsegs h

lemma Rooted.makeDirectoryAt (hrooted : t.Rooted) (h : t.makeDirectoryAt cwd path = .ok u) : u.Rooted := by
  obtain ⟨target, hlocate, h⟩ := bind_eq_ok_iff.1 h
  cases target with
  | found => cases h
  | free p =>
    obtain ⟨q, name, rfl, hname, hshort⟩ : ∃ q name, p = q ++ [name] ∧ Path.IsName name ∧
        name.octets.length ≤ Path.longestName := by
      rw [locate] at hlocate
      split at hlocate
      next => cases hlocate
      next => exact exists_name_of_follow (fun _ => notMem_of_mem_segments) hlocate
    obtain ⟨_, henter, h⟩ := bind_eq_ok_iff.1 h
    have hr := ((enter_eq_ok_iff _ (reaches_nil t)).1 henter).2
    split_ifs at h
    obtain rfl := Except.ok.inj h
    refine hrooted.put (by simp) (fun _ => rfl) ?_ hr
    rw [List.nil_append, List.dropLast_concat] at hr
    have hsome : t.find? q ≠ none := by simp [hr q List.prefix_rfl]
    intro other hother
    rcases List.mem_append.1 hother with hother | hother
    · exact ⟨hrooted.isName hsome other hother, (hrooted.isStep hsome other hother).short⟩
    · obtain rfl := List.mem_singleton.1 hother
      exact ⟨hname, hshort⟩

lemma Rooted.makeDirectoriesAt (hrooted : t.Rooted) (h : t.makeDirectoriesAt cwd path = .ok u) : u.Rooted :=
  of_makeDirectoriesFrom (fun _ _ _ ht hm => ht.makeDirectoryAt hm) hrooted h

end Making

section One

def lay (t : FileTree) (p : Place) : Node → FileTree
  | .directory => if t.find? p = some .directory then t else t.put p .directory
  | .file content => (t.fill p []).fill p content
  | .link aim => t.put p (.link aim)

lemma Alone.lay (hp : p ≠ []) (h : t.Alone q) : (t.lay p n).Alone q := by
  cases n with
  | directory =>
    rw [FileTree.lay]
    split_ifs
    · exact h
    · exact h.put
  | file content => exact (h.fill hp).fill hp
  | link aim => exact h.put

lemma find?_lay (hp : p ≠ []) (ha : t.Alone p) : (t.lay p n).find? q = if q = p then some n else t.find? q := by
  cases n with
  | directory =>
    rw [lay]
    split_ifs with hn hq hq
    · rw [hq, hn]
    · rfl
    · rw [hq, find?_put_self hp]
    · rw [find?_put_of_ne hq]
  | file content =>
    rw [lay, (ha.fill hp).find?_fill hp, ha.find?_fill hp]
    split_ifs <;> rfl
  | link aim =>
    rw [lay]
    split_ifs with hq
    · rw [hq, find?_put_self hp]
    · rw [find?_put_of_ne hq]

structure Takes (t : FileTree) (p : Place) (n : Node) : Prop where
  reaches : t.Reaches p.dropLast
  kind : ∀ k, t.find? p = some k → k.isDirectory = n.isDirectory

lemma eq_directory_of_isDirectory (h : n.isDirectory = true) : n = .directory := by
  cases n with
  | directory => rfl
  | _ => cases h

section Taking

variable (hp : p ≠ []) (ht : t.Takes p n)
include ht

lemma Takes.eq_directory (h : t.find? p = some .directory) : n = .directory :=
  eq_directory_of_isDirectory (ht.kind _ h).symm

include hp

lemma Reaches.lay (ha : t.Alone p) (h : t.Reaches q) : (t.lay p n).Reaches q := by
  intro r hr
  rw [find?_lay hp ha]
  split_ifs with hrp
  · rw [ht.eq_directory (hrp ▸ h r hr)]
  · exact h r hr

lemma exists_find?_lay (ha : t.Alone p) (h : t.find? q = some k) :
    ∃ k', (t.lay p n).find? q = some k' ∧ k'.isDirectory = k.isDirectory := by
  rw [find?_lay hp ha]
  split_ifs with hq
  · exact ⟨n, rfl, (ht.kind k (hq ▸ h)).symm⟩
  · exact ⟨k, h, rfl⟩

lemma Rooted.lay (h : t.Rooted) (hsteps : ∀ name ∈ p, Path.IsName name ∧ name.octets.length ≤ Path.longestName) :
    (t.lay p n).Rooted := by
  cases n with
  | directory =>
    rw [FileTree.lay]
    split_ifs
    · exact h
    · exact h.put hp (fun _ => rfl) hsteps ht.reaches
  | file content =>
    have hfile : t.find? p ≠ some .directory := fun h => nomatch ht.eq_directory h
    have hfree : (t.fill p []).find? p ≠ some .directory := by simp [find?_fill_self hp]
    exact (h.fill hp hfile hsteps ht.reaches).fill hp hfree hsteps (ht.reaches.fill hp hfile)
  | link aim => exact h.put hp (fun h => ht.eq_directory h) hsteps ht.reaches

end Taking

end One

section All

def laid (t : FileTree) : List (Place × Node) → FileTree
  | [] => t
  | (p, n) :: l => (t.lay p n).laid l

def TakesAll (t : FileTree) : List (Place × Node) → Prop
  | [] => True
  | (p, n) :: l => t.Takes p n ∧ (t.lay p n).TakesAll l

def Settled (t : FileTree) (l : List (Place × Node)) : Prop :=
  ∀ x ∈ l, t.Reaches x.1.dropLast ∧ ∃ k, t.find? x.1 = some k ∧ k.isDirectory = x.2.isDirectory

def AloneAll (t : FileTree) (l : List (Place × Node)) : Prop := ∀ x ∈ l, x.1 ≠ [] ∧ t.Alone x.1

lemma AloneAll.lay (hp : p ≠ []) (h : t.AloneAll l) : (t.lay p n).AloneAll l :=
  fun x hx => ⟨(h x hx).1, (h x hx).2.lay hp⟩

lemma AloneAll.tail {x : Place × Node} (h : t.AloneAll (x :: l)) : (t.lay x.1 x.2).AloneAll l :=
  AloneAll.lay (h x (by simp)).1 fun y hy => h y (by simp [hy])

lemma AloneAll.find?_head {x : Place × Node} (h : t.AloneAll (x :: l)) :
    (t.lay x.1 x.2).find? q = if q = x.1 then some x.2 else t.find? q :=
  find?_lay (h x (by simp)).1 (h x (by simp)).2

lemma Alone.laid (h : t.Alone q) (hl : t.AloneAll l) : (t.laid l).Alone q := by
  induction l generalizing t with
  | nil => exact h
  | cons x l ih => exact ih (h.lay (hl x (by simp)).1) hl.tail

lemma AloneAll.laid (h : t.AloneAll l) (h' : t.AloneAll l') : (t.laid l').AloneAll l :=
  fun x hx => ⟨(h x hx).1, (h x hx).2.laid h'⟩

variable (hl : t.AloneAll l)
include hl

lemma find?_laid_of_notMem (hq : ∀ x ∈ l, x.1 ≠ q) : (t.laid l).find? q = t.find? q := by
  induction l generalizing t with
  | nil => rfl
  | cons x l ih =>
    rw [FileTree.laid, ih hl.tail fun y hy => hq y (by simp [hy]), hl.find?_head, if_neg (Ne.symm (hq x (by simp)))]

lemma find?_laid_congr (hu : u.AloneAll l) (hq : ∃ x ∈ l, x.1 = q) : (t.laid l).find? q = (u.laid l).find? q := by
  induction l generalizing t u with
  | nil => simp at hq
  | cons x l ih =>
    rw [FileTree.laid, FileTree.laid]
    by_cases hmem : ∃ y ∈ l, y.1 = q
    · exact ih hl.tail hu.tail hmem
    · have hnot : ∀ y ∈ l, y.1 ≠ q := fun y hy he => hmem ⟨y, hy, he⟩
      obtain rfl : x.1 = q := by
        obtain ⟨y, hy, rfl⟩ := hq
        rcases List.mem_cons.1 hy with rfl | hy
        · rfl
        · exact absurd rfl (hnot y hy)
      rw [find?_laid_of_notMem hl.tail hnot, find?_laid_of_notMem hu.tail hnot, hl.find?_head, hu.find?_head, if_pos rfl,
        if_pos rfl]

lemma find?_laid_of_mem (hq : (q, n) ∈ l) (hunique : ∀ x ∈ l, x.1 = q → x.2 = n) : (t.laid l).find? q = some n := by
  induction l generalizing t with
  | nil => simp at hq
  | cons x l ih =>
    rw [FileTree.laid]
    by_cases hmem : ∃ y ∈ l, y.1 = q
    · obtain ⟨y, hy, hyq⟩ := hmem
      have hyn : y = (q, n) := Prod.ext hyq (hunique y (by simp [hy]) hyq)
      exact ih hl.tail (hyn ▸ hy) fun z hz => hunique z (by simp [hz])
    · have hnot : ∀ y ∈ l, y.1 ≠ q := fun y hy he => hmem ⟨y, hy, he⟩
      obtain rfl : (q, n) = x := (List.mem_cons.1 hq).resolve_right fun h => hnot _ h rfl
      rw [find?_laid_of_notMem hl.tail hnot, hl.find?_head, if_pos rfl]

lemma find?_laid_laid : ((t.laid l).laid l).find? q = (t.laid l).find? q := by
  by_cases hq : ∃ x ∈ l, x.1 = q
  · exact find?_laid_congr (hl.laid hl) hl hq
  · exact find?_laid_of_notMem (hl.laid hl) fun x hx he => hq ⟨x, hx, he⟩

lemma find?_laid_cases (q : Place) :
    (t.laid l).find? q = t.find? q ∨ ∃ x ∈ l, x.1 = q ∧ (t.laid l).find? q = some x.2 := by
  induction l generalizing t with
  | nil => exact .inl rfl
  | cons x l ih =>
    rcases ih hl.tail with h | ⟨y, hy, hyq, h⟩
    · rw [hl.find?_head] at h
      split_ifs at h with hq
      · exact .inr ⟨x, by simp, hq.symm, h⟩
      · exact .inl h
    · exact .inr ⟨y, by simp [hy], hyq, h⟩

section Kinds

lemma TakesAll.reaches (h : t.TakesAll l) (hr : t.Reaches q) : (t.laid l).Reaches q := by
  induction l generalizing t with
  | nil => exact hr
  | cons x l ih =>
    obtain ⟨hp, ha⟩ := hl x (by simp)
    exact ih hl.tail h.2 (hr.lay hp h.1 ha)

lemma TakesAll.exists_find? (h : t.TakesAll l) (hn : t.find? q = some n) :
    ∃ k, (t.laid l).find? q = some k ∧ k.isDirectory = n.isDirectory := by
  induction l generalizing t n with
  | nil => exact ⟨n, hn, rfl⟩
  | cons x l ih =>
    obtain ⟨hp, ha⟩ := hl x (by simp)
    obtain ⟨k, hk, hkind⟩ := exists_find?_lay hp h.1 ha hn
    obtain ⟨k', hk', hkind'⟩ := ih hl.tail h.2 hk
    exact ⟨k', hk', hkind'.trans hkind⟩

lemma TakesAll.rooted (h : t.TakesAll l) (hrooted : t.Rooted)
    (hsteps : ∀ x ∈ l, ∀ name ∈ x.1, Path.IsName name ∧ name.octets.length ≤ Path.longestName) : (t.laid l).Rooted := by
  induction l generalizing t with
  | nil => exact hrooted
  | cons x l ih =>
    exact ih hl.tail h.2 (hrooted.lay (hl x (by simp)).1 h.1 (hsteps x (by simp))) fun y hy => hsteps y (by simp [hy])

lemma TakesAll.settled (h : t.TakesAll l) : (t.laid l).Settled l := by
  induction l generalizing t with
  | nil => exact fun _ hx => nomatch hx
  | cons x l ih =>
    have hall : (t.lay x.1 x.2).TakesAll l := h.2
    obtain ⟨hp, ha⟩ := hl x (by simp)
    intro y hy
    rcases List.mem_cons.1 hy with rfl | hy
    · have hfind : (t.lay y.1 y.2).find? y.1 = some y.2 := by rw [hl.find?_head, if_pos rfl]
      rw [FileTree.laid]
      exact ⟨hall.reaches hl.tail (h.1.reaches.lay hp h.1 ha), hall.exists_find? hl.tail hfind⟩
    · exact ih hl.tail hall y hy

lemma Settled.takesAll (h : t.Settled l) (hsub : l' ⊆ l) : t.TakesAll l' := by
  induction l' generalizing t with
  | nil => trivial
  | cons x l' ih =>
    obtain ⟨hx, hl'⟩ := List.cons_subset.1 hsub
    obtain ⟨hr, k, hk, hkind⟩ := h x hx
    obtain ⟨hp, ha⟩ := hl x hx
    have ht : t.Takes x.1 x.2 := ⟨hr, fun k' hk' => by rwa [← Option.some.inj (hk.symm.trans hk')]⟩
    -- all of `l` stays settled while a part of it is put again
    refine ⟨ht, ih (hl.lay hp) (fun y hy => ?_) hl'⟩
    obtain ⟨hr', k', hk', hkind'⟩ := h y hy
    obtain ⟨k'', hk'', hkind''⟩ := exists_find?_lay hp ht ha hk'
    exact ⟨hr'.lay hp ht ha, k'', hk'', hkind''.trans hkind'⟩

lemma TakesAll.of_agree (h : t.TakesAll l) (hu : u.AloneAll l)
    (hagree : ∀ x ∈ l, ∀ q, q <+: x.1 → u.find? q = t.find? q) : u.TakesAll l := by
  induction l generalizing t u with
  | nil => trivial
  | cons x l ih =>
    have hx := hagree x (by simp)
    refine ⟨⟨fun q hq => ?_, fun k hk => h.1.kind k ((hx _ List.prefix_rfl).symm.trans hk)⟩,
      ih hl.tail h.2 hu.tail fun y hy q hq => ?_⟩
    · rw [hx q (hq.trans (List.dropLast_prefix x.1)), h.1.reaches q hq]
    · rw [hu.find?_head, hl.find?_head, hagree y (by simp [hy]) q hq]

lemma TakesAll.grows (h : t.TakesAll l) (hplain : ∀ x ∈ l, ∀ aim, t.find? x.1 ≠ some (.link aim))
    (hnodes : ∀ x ∈ l, ∀ aim, x.2 ≠ .link aim) : t.Grows (t.laid l) := by
  have hlinks : ∀ q aim, (t.laid l).find? q = some (.link aim) → t.find? q = some (.link aim) := by
    intro q aim hn
    rcases find?_laid_cases hl q with hq | ⟨x, hx, -, hq⟩
    · rwa [hq] at hn
    · exact absurd (Option.some.inj (hq.symm.trans hn)) (hnodes x hx aim)
  refine ⟨fun q n hn hf => ?_, fun q hq => ?_, hlinks⟩
  · obtain ⟨k, hk, hkind⟩ := h.exists_find? hl hn
    cases n with
    | file content => cases hf
    | directory => rw [hk, eq_directory_of_isDirectory hkind]
    | link aim =>
      rw [find?_laid_of_notMem hl, hn]
      rintro x hx rfl
      exact hplain x hx aim hn
  · obtain ⟨content, hn⟩ := isFile_iff.1 hq
    obtain ⟨k, hk, hkind⟩ := h.exists_find? hl hn
    rw [isFile_iff, hk]
    cases k with
    | file new => exact ⟨new, rfl⟩
    | directory => cases hkind
    | link aim =>
      rw [hlinks q aim hk] at hn
      cases hn

end Kinds

end All

end NamespaceMigration.FileTree
