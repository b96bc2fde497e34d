import Mathlib.Data.List.Forall2
import Mathlib.Data.List.Nodup
import NamespaceMigration.Files.Walk
import NamespaceMigration.Proofs.Files.Spelling

/-! Walks of well-formed trees: every entry has a path of its own, and that is made of names. -/

namespace NamespaceMigration.FileTree

variable {t : FileTree} {start p q place : Place} {dir : Ancestor} {above : List Ancestor} {name : RawText}
  {entry : WalkEntry} {entries : List WalkEntry}

structure WellFormed (t : FileTree) : Prop where
  nodup : (t.nodes.map Prod.fst).Nodup
  names : ∀ p ∈ t.nodes.map Prod.fst, ∀ name ∈ p, Path.IsName name

lemma childName?_eq_some_iff : childName? p q = some name ↔ q = p ++ [name] := by
  constructor
  · intro h
    cases q with
    | nil => cases h
    | cons first q =>
      change (if (first :: q).dropLast = p then (first :: q).getLast? else none) = some name at h
      split_ifs at h with hp
      rw [← hp]
      exact (List.dropLast_append_getLast? name h).symm
  · rintro rfl
    exact childName?_concat p name

lemma names_eq (t : FileTree) (p : Place) :
    t.names p = ((t.nodes.map Prod.fst).filterMap (childName? p)).mergeSort fun a b => a ≤ b := by
  rw [names, List.filterMap_map]
  rfl

lemma WellFormed.nodup_names (h : t.WellFormed) (p : Place) : (t.names p).Nodup := by
  rw [names_eq, (List.mergeSort_perm _ _).nodup_iff]
  refine List.Nodup.filterMap (fun q q' name hq hq' => ?_) h.nodup
  rw [childName?_eq_some_iff.1 hq, childName?_eq_some_iff.1 hq']

lemma WellFormed.isName_of_mem_names (h : t.WellFormed) (hn : name ∈ t.names p) : Path.IsName name := by
  rw [names_eq, List.mem_mergeSort] at hn
  obtain ⟨q, hq, hname⟩ := List.mem_filterMap.1 hn
  obtain rfl := childName?_eq_some_iff.1 hname
  exact h.names _ hq name (by simp)

lemma path_of_visit (h : t.visit start dir above name = .ok (entry, place)) : entry.path = dir.path ++ [name] := by
  obtain ⟨⟨q, n⟩, -, h⟩ := bind_eq_ok_iff.1 h
  dsimp only at h
  split at h
  next =>
    split_ifs at h
    rw [← (Prod.mk.inj (Except.ok.inj h)).1]
  next => rw [← (Prod.mk.inj (Except.ok.inj h)).1]

lemma walkEntries_of_files (names : List RawText) (hnames : (t.nodes.map Prod.fst).filterMap (childName? start) = names)
    (hsorted : names.Pairwise (· ≤ ·))
    (hvisit : ∀ name ∈ names, (t.visit start ⟨[], start⟩ [] name).toOption = some (⟨[name], false⟩, start ++ [name])) :
    t.walkEntries start = .ok (names.map fun name => ⟨[name], false⟩) := by
  have hin : t.names start = names := by
    rw [names_eq, hnames, List.mergeSort_of_pairwise]
    simpa using hsorted
  obtain ⟨depth, hdepth⟩ : ∃ depth, t.walkDepth = depth + 1 := Nat.exists_eq_succ_of_ne_zero (by simp [walkDepth])
  rw [walkEntries, hdepth, walkBelow]
  refine bind_eq_ok_iff.2 ⟨names.map fun name => [⟨[name], false⟩], mapM_eq_ok_iff.2 ?_, ?_⟩
  · rw [hin, List.forall₂_map_right_iff, List.forall₂_same]
    intro name hname
    exact bind_eq_ok_iff.2 ⟨_, eq_ok_of_toOption_eq_some (hvisit name hname), rfl⟩
  · rw [← List.flatMap_def, ← List.map_eq_flatMap]
    rfl

structure Listed (B : List RawText → Prop) (entries : List WalkEntry) : Prop where
  nodup : (entries.map (·.path)).Nodup
  names : ∀ e ∈ entries, ∀ name ∈ e.path, Path.IsName name
  below : ∀ e ∈ entries, B e.path

lemma listed_flatten {base names : List RawText} {parts : List (List WalkEntry)} (hnames : names.Nodup)
    (h : List.Forall₂ (fun name part => Listed (base ++ [name] <+: ·) part) names parts) :
    Listed (fun path => ∃ name ∈ names, base ++ [name] <+: path) parts.flatten := by
  induction h with
  | nil => exact ⟨by simp, by simp, by simp⟩
  | @cons name part names parts hpart _ ih =>
    obtain ⟨hname, hnames⟩ := List.nodup_cons.1 hnames
    have hrest := ih hnames
    rw [List.flatten_cons]
    refine ⟨?_, ?_, ?_⟩
    · rw [List.map_append, List.nodup_append]
      refine ⟨hpart.nodup, hrest.nodup, ?_⟩
      rintro _ hp _ hq rfl
      obtain ⟨e, he, rfl⟩ := List.mem_map.1 hp
      obtain ⟨e', he', heq⟩ := List.mem_map.1 hq
      obtain ⟨name', hname', hbelow'⟩ := hrest.below e' he'
      have hsame := List.prefix_of_prefix_length_le (hpart.below e he) (heq ▸ hbelow') (by simp)
      have heq' := hsame.eq_of_length (by simp)
      obtain rfl : name = name' := by simpa using heq'
      exact hname hname'
    · intro e he
      rcases List.mem_append.1 he with he | he
      · exact hpart.names e he
      · exact hrest.names e he
    · intro e he
      rcases List.mem_append.1 he with he | he
      · exact ⟨name, by simp, hpart.below e he⟩
      · obtain ⟨name', hname', hbelow⟩ := hrest.below e he
        exact ⟨name', by simp [hname'], hbelow⟩

lemma Listed.cons (hentry : ∀ name ∈ entry.path, Path.IsName name)
    (h : Listed (fun path => ∃ name, entry.path ++ [name] <+: path) entries) : Listed (entry.path <+: ·) (entry :: entries) where
  nodup := by
    rw [List.map_cons, List.nodup_cons]
    refine ⟨fun hmem => ?_, h.nodup⟩
    obtain ⟨e, he, heq⟩ := List.mem_map.1 hmem
    obtain ⟨name, hbelow⟩ := h.below e he
    have hlen := hbelow.length_le
    rw [heq, List.length_append] at hlen
    exact absurd hlen (Nat.not_succ_le_self _)
  names e he := by
    rcases List.mem_cons.1 he with rfl | he
    · exact hentry
    · exact h.names e he
  below e he := by
    rcases List.mem_cons.1 he with rfl | he
    · exact List.prefix_rfl
    · obtain ⟨name, hbelow⟩ := h.below e he
      exact (List.prefix_append entry.path [name]).trans hbelow

lemma listed_walkBelow (h : t.WellFormed) {depth : ℕ} (hdir : ∀ name ∈ dir.path, Path.IsName name)
    (hw : t.walkBelow start depth dir above = .ok entries) :
    Listed (fun path => ∃ name, dir.path ++ [name] <+: path) entries := by
  induction depth generalizing dir above entries with
  | zero => cases hw
  | succ depth ih =>
    obtain ⟨parts, hparts, hw⟩ := bind_eq_ok_iff.1 hw
    obtain rfl := Except.ok.inj hw
    have hnames : ∀ name ∈ t.names dir.place, Path.IsName name := fun _ hname => h.isName_of_mem_names hname
    have hlisted : List.Forall₂ (fun name part => Listed (dir.path ++ [name] <+: ·) part) (t.names dir.place) parts := by
      refine ((List.forall₂_and_left _ _).2 ⟨hnames, mapM_eq_ok_iff.1 hparts⟩).imp fun name part ⟨hname, hpart⟩ => ?_
      obtain ⟨⟨entry, place⟩, hvisit, hpart⟩ := bind_eq_ok_iff.1 hpart
      have hpath := path_of_visit hvisit
      have hentry : ∀ name ∈ entry.path, Path.IsName name := by
        rw [hpath, List.forall_mem_append, List.forall_mem_singleton]
        exact ⟨hdir, hname⟩
      rw [← hpath]
      dsimp only at hpart
      split_ifs at hpart
      · obtain ⟨below, hbelow, hpart⟩ := bind_eq_ok_iff.1 hpart
        obtain rfl := Except.ok.inj hpart
        exact .cons hentry (ih hentry hbelow)
      · obtain rfl := Except.ok.inj hpart
        exact .cons hentry ⟨by simp, by simp, by simp⟩
    -- what is below one name of the directory is not below another one
    have hall := listed_flatten (h.nodup_names dir.place) hlisted
    refine ⟨hall.nodup, hall.names, fun e he => ?_⟩
    obtain ⟨name, -, hbelow⟩ := hall.below e he
    exact ⟨name, hbelow⟩

lemma listed_walkEntries (h : t.WellFormed) (hw : t.walkEntries start = .ok entries) :
    Listed (· ≠ []) entries := by
  have hall := listed_walkBelow h (by simp) hw
  refine ⟨hall.nodup, hall.names, fun e he hnil => ?_⟩
  obtain ⟨name, hbelow⟩ := hall.below e he
  rw [hnil] at hbelow
  simp at hbelow

end NamespaceMigration.FileTree
