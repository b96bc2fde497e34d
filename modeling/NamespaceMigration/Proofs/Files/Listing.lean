import Mathlib.Data.Finset.Card
import NamespaceMigration.Proofs.Files.Coverage

/-! Walks of trees without links. -/

namespace NamespaceMigration.FileTree

variable {t u : FileTree} {start dest p q : Place} {path names : List RawText} {name : RawText} {entries : List WalkEntry}
  {e : WalkEntry} {n : Node} {above : List Ancestor} {depth : ℕ}

section Walking

lemma mem_names_iff : name ∈ t.names p ↔ t.find? (p ++ [name]) ≠ none := by
  constructor
  · intro h
    rw [names_eq, List.mem_mergeSort] at h
    obtain ⟨q, hq, hname⟩ := List.mem_filterMap.1 h
    obtain rfl := childName?_eq_some_iff.1 hname
    obtain ⟨⟨r, n⟩, hr, rfl⟩ := List.mem_map.1 hq
    rw [find?_of_ne (by simp)]
    intro hnone
    exact absurd (List.lookup_eq_none_iff.1 hnone _ hr) (by simp)
  · intro h
    obtain ⟨n, hn⟩ := Option.ne_none_iff_exists'.1 h
    exact mem_names hn

lemma names_congr (ht : t.WellFormed) (hu : u.WellFormed)
    (h : ∀ name, u.find? (p ++ [name]) ≠ none ↔ t.find? (p ++ [name]) ≠ none) : u.names p = t.names p := by
  have hperm : (u.names p).Perm (t.names p) := by
    rw [List.perm_ext_iff_of_nodup (hu.nodup_names p) (ht.nodup_names p)]
    intro name
    rw [mem_names_iff, mem_names_iff, h]
  have hsorted : ∀ v : FileTree, (v.names p).Pairwise (· ≤ ·) := by
    intro v
    rw [names_eq]
    refine (List.pairwise_mergeSort (fun a b c hab hbc => ?_) (fun a b => ?_) _).imp of_decide_eq_true
    · exact decide_eq_true (RawText.le_trans (of_decide_eq_true hab) (of_decide_eq_true hbc))
    · simpa using RawText.le_total a b
  exact hperm.eq_of_pairwise (fun a b _ _ => RawText.le_antisymm) (hsorted u) (hsorted t)

lemma length_le_of_reaches (h : t.Reaches p) : p.length ≤ t.nodes.length := by
  have hcard : (Finset.range p.length).card ≤ (t.nodes.map Prod.fst).toFinset.card := by
    refine Finset.card_le_card_of_injOn (fun i => p.take (i + 1)) ?_ ?_
    · intro i hi
      have hlt := Finset.mem_range.1 hi
      have hne : p.take (i + 1) ≠ [] := by
        rw [Ne, List.take_eq_nil_iff]
        rintro (h | rfl)
        · cases h
        · simp at hlt
      refine List.mem_toFinset.2 (mem_of_find?_ne_none hne ?_)
      simp [h _ (List.take_prefix (i + 1) p)]
    · intro i hi j hj hij
      have hlt := Finset.mem_range.1 hi
      have hlt' := Finset.mem_range.1 hj
      have hlen := congrArg List.length hij
      simp only [List.length_take] at hlen
      omega
  rw [Finset.card_range] at hcard
  exact hcard.trans ((List.toFinset_card_le _).trans (by simp))

lemma Rooted.reach_eq (h : t.Rooted) (hn : t.find? p = some n) (hlink : ∀ aim, n ≠ .link aim) :
    t.reach true p = .ok (.found p n) := by
  have hsteps := h.isStep (hn ▸ Option.some_ne_none n)
  cases n with
  | link aim => exact absurd rfl (hlink aim)
  | directory =>
    exact follow_eq_ok_iff.2 ⟨0, p, [], by decide, leads_of_reaches hsteps (h.reaches hn), .directory p⟩
  | file content =>
    obtain ⟨before, last, rfl⟩ := (List.eq_nil_or_concat p).resolve_left (by rintro rfl; cases hn)
    have hbefore := h.parents _ _ hn
    rw [List.concat_eq_append] at hn hbefore hsteps ⊢
    rw [List.dropLast_concat] at hbefore
    have hleads := (leads_of_reaches (p := []) (fun s hs => hsteps s (by simp [hs])) hbefore).append [last]
    exact follow_eq_ok_iff.2 ⟨0, before, [last], by decide, hleads, .file (hsteps last (by simp)) hn⟩

end Walking

/-- What a walk lists below a path, name after name, without what is in another directory. -/
inductive Listing (t : FileTree) (start dest : Place) : List RawText → List RawText → List WalkEntry → Prop
  | nil (path : List RawText) : Listing t start dest path [] []
  | skip {path names : List RawText} {name : RawText} {entries : List WalkEntry} (hdest : dest <+: start ++ (path ++ [name]))
      (rest : Listing t start dest path names entries) : Listing t start dest path (name :: names) entries
  | file {path names : List RawText} {name : RawText} {entries : List WalkEntry} {content : Bytes}
      (hdest : ¬ dest <+: start ++ (path ++ [name])) (hn : t.find? (start ++ (path ++ [name])) = some (.file content))
      (rest : Listing t start dest path names entries) :
      Listing t start dest path (name :: names) (⟨path ++ [name], false⟩ :: entries)
  | directory {path names : List RawText} {name : RawText} {inner entries : List WalkEntry}
      (hdest : ¬ dest <+: start ++ (path ++ [name])) (hn : t.find? (start ++ (path ++ [name])) = some .directory)
      (below : Listing t start dest (path ++ [name]) (t.names (start ++ (path ++ [name]))) inner)
      (rest : Listing t start dest path names entries) :
      Listing t start dest path (name :: names) (⟨path ++ [name], true⟩ :: (inner ++ entries))

def outside (start dest : Place) (entries : List WalkEntry) : List WalkEntry :=
  entries.filter fun e => !dest.isPrefixOf (start ++ e.path)

lemma Listing.cons {part : List WalkEntry} (h : Listing t start dest path [name] part)
    (hrest : Listing t start dest path names entries) : Listing t start dest path (name :: names) (part ++ entries) := by
  cases h with
  | skip hdest rest =>
    cases rest
    exact .skip hdest hrest
  | file hdest hn rest =>
    cases rest
    exact .file hdest hn hrest
  | directory hdest hn below rest =>
    cases rest
    rw [List.append_nil]
    exact .directory hdest hn below hrest

lemma outside_cons : outside start dest (e :: entries) =
    if dest <+: start ++ e.path then outside start dest entries else e :: outside start dest entries := by
  rw [outside, List.filter_cons, outside]
  by_cases hdest : dest <+: start ++ e.path
  · rw [if_pos hdest, List.isPrefixOf_iff_prefix.2 hdest]
    rfl
  · rw [if_neg hdest, Bool.eq_false_iff.2 (mt List.isPrefixOf_iff_prefix.1 hdest)]
    rfl

section Existing

variable (hrooted : t.Rooted) (hunlinked : ∀ q aim, start <+: q → t.find? q ≠ some (.link aim))
include hrooted hunlinked

lemma visit_eq (hn : t.find? (start ++ (path ++ [name])) = some n) :
    t.visit start ⟨path, start ++ path⟩ above name = .ok (⟨path ++ [name], n.isDirectory⟩, start ++ (path ++ [name])) := by
  have hlink : ∀ aim, n ≠ .link aim := by
    rintro aim rfl
    exact hunlinked _ aim (List.prefix_append _ _) hn
  have hno : t.isLink (start ++ path ++ [name]) = false := by
    rw [isLink, List.append_assoc, hn]
    cases n with
    | link aim => exact absurd rfl (hlink aim)
    | _ => rfl
  rw [visit, hrooted.reach_eq hn hlink]
  dsimp only [Target.node, bind, Except.bind, Except.mapError]
  rw [hno, Bool.and_false]
  split <;> rfl

lemma exists_walkBelow (hr : t.Reaches (start ++ path)) (hdepth : t.nodes.length < (start ++ path).length + depth) :
    ∃ entries, t.walkBelow start depth ⟨path, start ++ path⟩ above = .ok entries ∧
      Listing t start dest path (t.names (start ++ path)) (outside start dest entries) := by
  -- each step goes down, and no way down is longer than there are nodes
  induction depth generalizing path above with
  | zero => exact absurd hdepth (Nat.not_lt.2 (length_le_of_reaches hr))
  | succ depth ih =>
    have hpart : ∀ name ∈ t.names (start ++ path), ∃ part, (do
        let x ← t.visit start ⟨path, start ++ path⟩ above name
        if x.1.isDirectory then
          return x.1 :: (← t.walkBelow start depth ⟨x.1.path, x.2⟩ (⟨path, start ++ path⟩ :: above))
        else return [x.1]) = .ok part ∧ Listing t start dest path [name] (outside start dest part) := by
      intro name hname
      obtain ⟨n, hn⟩ := Option.ne_none_iff_exists'.1 (mem_names_iff.1 hname)
      rw [List.append_assoc] at hn
      rw [visit_eq hrooted hunlinked hn]
      cases n with
      | link aim => exact absurd hn (hunlinked _ aim (List.prefix_append _ _))
      | file content =>
        refine ⟨[⟨path ++ [name], false⟩], rfl, ?_⟩
        rw [outside_cons]
        split_ifs with hdest
        · exact .skip hdest (.nil path)
        · exact .file hdest hn (.nil path)
      | directory =>
        have hr' : t.Reaches (start ++ (path ++ [name])) := by
          rw [← List.append_assoc] at hn ⊢
          exact reaches_concat.2 ⟨hr, hn⟩
        obtain ⟨inner, hinner, hlisting⟩ := ih hr' (by simp at hdepth ⊢; omega)
        refine ⟨⟨path ++ [name], true⟩ :: inner, bind_eq_ok_iff.2 ⟨_, rfl, bind_eq_ok_iff.2 ⟨inner, hinner, rfl⟩⟩, ?_⟩
        rw [outside_cons]
        split_ifs with hdest
        · have hnames : ∀ s ∈ path ++ [name], Path.IsName s := fun s hs =>
            hrooted.isName (hn ▸ Option.some_ne_none _) s (by simp at hs ⊢; tauto)
          have hnone : outside start dest inner = [] := by
            rw [outside, List.filter_eq_nil_iff]
            intro e he
            obtain ⟨below, hbelow⟩ := (listed_walkBelow hrooted.toWellFormed hnames hinner).below e he
            have habove := (List.prefix_append_right_inj start).2 ((List.prefix_append (path ++ [name]) [below]).trans hbelow)
            simpa using hdest.trans habove
          rw [hnone]
          exact .skip hdest (.nil path)
        · have hall := Listing.directory hdest hn hlisting (.nil path)
          rwa [List.append_nil] at hall
    obtain ⟨parts, hparts⟩ := exists_forall₂ hpart
    refine ⟨parts.flatten, bind_eq_ok_iff.2 ⟨parts, mapM_eq_ok_iff.2 (hparts.imp fun _ _ h => h.1), rfl⟩, ?_⟩
    generalize t.names (start ++ path) = names at hparts
    induction hparts with
    | nil => exact .nil path
    | cons hpart _ ih =>
      rw [List.flatten_cons, outside, List.filter_append]
      exact hpart.2.cons ih

lemma exists_walkEntries (hr : t.Reaches start) :
    ∃ entries, t.walkEntries start = .ok entries ∧ Listing t start dest [] (t.names start) (outside start dest entries) := by
  have hdepth : t.nodes.length < (start ++ []).length + t.walkDepth := by
    have hle : t.nodes.length + 2 ≤ t.walkDepth := Nat.le_mul_of_pos_left _ (by omega)
    omega
  have h := @exists_walkBelow t start dest [] [] t.walkDepth hrooted hunlinked (by rwa [List.append_nil]) hdepth
  rwa [List.append_nil] at h

end Existing

def ParentsFirst (seen : List (List RawText)) : List WalkEntry → Prop
  | [] => True
  | e :: entries => e.path.dropLast ∈ seen ∧ ParentsFirst (if e.isDirectory then e.path :: seen else seen) entries

namespace ParentsFirst

variable {seen seen' : List (List RawText)} {entries' : List WalkEntry}

lemma mono (h : ParentsFirst seen entries) (hseen : seen ⊆ seen') : ParentsFirst seen' entries := by
  induction entries generalizing seen seen' with
  | nil => trivial
  | cons e entries ih =>
    refine ⟨hseen h.1, ih h.2 ?_⟩
    split_ifs
    · exact List.cons_subset_cons _ hseen
    · exact hseen

lemma append (h : ParentsFirst seen entries) (h' : ParentsFirst seen entries') : ParentsFirst seen (entries ++ entries') := by
  induction entries generalizing seen with
  | nil => exact h'
  | cons e entries ih =>
    refine ⟨h.1, ih h.2 (h'.mono ?_)⟩
    split_ifs
    · exact List.subset_cons_self _ _
    · exact List.Subset.refl _

end ParentsFirst

section Listings

lemma Listing.parentsFirst {seen : List (List RawText)} (h : Listing t start dest path names entries) (hpath : path ∈ seen) :
    ParentsFirst seen entries := by
  induction h generalizing seen with
  | nil => trivial
  | skip _ _ ih => exact ih hpath
  | file _ _ _ ih => exact ⟨by rwa [List.dropLast_concat], ih hpath⟩
  | directory _ _ _ _ ihbelow ih =>
    exact ⟨by rwa [List.dropLast_concat], (ihbelow (by simp)).append (ih (by simp [hpath]))⟩

lemma Listing.mem_iff (h : Listing t start dest path names entries) (hrooted : t.Rooted) :
    e ∈ entries ↔ ∃ name ∈ names, path ++ [name] <+: e.path ∧ ¬ dest <+: start ++ e.path ∧
      ∃ n, t.find? (start ++ e.path) = some n ∧ e.isDirectory = n.isDirectory := by
  induction h with
  | nil => simp
  | @skip path names name entries hdest _ ih =>
    rw [ih, List.exists_mem_cons_iff, or_iff_right]
    rintro ⟨habove, hout, -⟩
    exact hout (hdest.trans ((List.prefix_append_right_inj start).2 habove))
  | @file path names name entries content hdest hn _ ih =>
    rw [List.mem_cons, ih, List.exists_mem_cons_iff]
    refine or_congr_left ⟨?_, ?_⟩
    · rintro rfl
      exact ⟨List.prefix_rfl, hdest, _, hn, rfl⟩
    · rintro ⟨habove, -, n, hn', hd⟩
      by_cases hpath : path ++ [name] = e.path
      · rw [← hpath, hn] at hn'
        obtain rfl := Option.some.inj hn'
        obtain ⟨p, d⟩ := e
        obtain rfl : path ++ [name] = p := hpath
        obtain rfl : d = false := hd
        rfl
      · have hdir := hrooted.find?_above hn' ((List.prefix_append_right_inj start).2 habove) (by simpa using hpath)
        rw [hn] at hdir
        cases hdir
  | @directory path names name inner entries hdest hn _ _ ihbelow ih =>
    rw [List.mem_cons, List.mem_append, ihbelow, ih, List.exists_mem_cons_iff, ← or_assoc]
    refine or_congr_left ⟨?_, ?_⟩
    · rintro (rfl | ⟨below, -, habove, hrest⟩)
      · exact ⟨List.prefix_rfl, hdest, _, hn, rfl⟩
      · exact ⟨(List.prefix_append _ _).trans habove, hrest⟩
    · rintro ⟨⟨rest, hrest⟩, hout, n, hn', hd⟩
      cases rest with
      | nil =>
        rw [List.append_nil] at hrest
        rw [← hrest, hn] at hn'
        obtain rfl := Option.some.inj hn'
        obtain ⟨p, d⟩ := e
        obtain rfl : path ++ [name] = p := hrest
        obtain rfl : d = true := hd
        exact .inl rfl
      | cons below rest =>
        have habove : path ++ [name] ++ [below] <+: e.path := ⟨rest, by rw [← hrest]; simp⟩
        refine .inr ⟨below, mem_names_iff.2 fun hnone => ?_, habove, hout, n, hn', hd⟩
        rw [List.append_assoc] at hnone
        rw [hrooted.find?_eq_none hnone ((List.prefix_append_right_inj start).2 habove)] at hn'
        cases hn'

lemma names_eq_of_agree (ht : t.WellFormed) (hu : u.WellFormed) (hagree : ∀ q, (dest <+: q → q = dest) → u.find? q = t.find? q)
    (hp : ¬ dest <+: p) : u.names p = t.names p := by
  refine names_congr ht hu fun child => ?_
  rw [hagree]
  intro hchild
  exact ((List.prefix_concat_iff.1 hchild).resolve_right hp).symm

lemma Listing.eq {entries' : List WalkEntry} (h : Listing t start dest path names entries)
    (h' : Listing u start dest path names entries') (ht : t.WellFormed) (hu : u.WellFormed)
    (hagree : ∀ q, (dest <+: q → q = dest) → u.find? q = t.find? q) : entries' = entries := by
  induction h generalizing entries' with
  | nil =>
    cases h'
    rfl
  | skip hdest _ ih =>
    cases h' with
    | skip _ rest => exact ih rest
    | file hdest' => exact absurd hdest hdest'
    | directory hdest' => exact absurd hdest hdest'
  | file hdest hn _ ih =>
    have hsame := hagree _ fun h => absurd h hdest
    cases h' with
    | skip hdest' => exact absurd hdest' hdest
    | file _ _ rest => rw [ih rest]
    | directory _ hn' =>
      rw [hsame, hn] at hn'
      cases hn'
  | @directory path names name inner entries hdest hn _ _ ihbelow ih =>
    have hsame := hagree _ fun h => absurd h hdest
    cases h' with
    | skip hdest' => exact absurd hdest' hdest
    | file _ hn' =>
      rw [hsame, hn] at hn'
      cases hn'
    | directory _ _ below rest =>
      rw [names_eq_of_agree ht hu hagree hdest] at below
      rw [ihbelow below, ih rest]

end Listings

end NamespaceMigration.FileTree
