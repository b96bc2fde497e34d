import NamespaceMigration.Files.Tree
import NamespaceMigration.Proofs.Except

/-! What is where in a file tree after its operations. -/

namespace NamespaceMigration.FileTree

variable {t t' u : FileTree} {p q start : Place} {n : Node}

section Find

@[simp]
lemma find?_nil (t : FileTree) : t.find? [] = some .directory := if_pos rfl

lemma find?_of_ne (h : p ≠ []) : t.find? p = t.nodes.lookup p := if_neg h

lemma find?_erase : (t.erase p).find? q = if q = p ∧ q ≠ [] then none else t.find? q := by
  by_cases hq : q = []
  · simp [hq]
  · rw [find?_of_ne hq, find?_of_ne hq]
    have hl := @lookup_filter _ _ _ _ q t.nodes (· != p)
    rw [erase]
    refine hl.trans ?_
    by_cases hp : q = p
    · subst hp
      simp [hq]
    · simp [hp]

lemma find?_put : (t.put p n).find? q = if q = p ∧ q ≠ [] then some n else t.find? q := by
  by_cases hq : q = []
  · simp [hq]
  · have he := @find?_erase t p q
    rw [find?_of_ne hq] at he
    rw [find?_of_ne hq, put, List.lookup_cons]
    by_cases hp : q = p
    · simp [hp, hp ▸ hq]
    · have hne : (q == p) = false := beq_eq_false_iff_ne.2 hp
      simpa [hne, hp] using he

lemma find?_put_self (h : p ≠ []) : (t.put p n).find? p = some n := by
  rw [find?_put, if_pos ⟨rfl, h⟩]

lemma find?_put_of_ne (h : q ≠ p) : (t.put p n).find? q = t.find? q := by
  rw [find?_put, if_neg fun hc => h hc.1]

lemma find?_removeAll : (t.removeAll p).find? q = if p <+: q ∧ q ≠ [] then none else t.find? q := by
  by_cases hq : q = []
  · simp [hq]
  · rw [find?_of_ne hq, find?_of_ne hq]
    have hl := @lookup_filter _ _ _ _ q t.nodes fun q => !p.isPrefixOf q
    rw [removeAll]
    refine hl.trans ?_
    by_cases hp : p <+: q
    · simp [hp, hq, List.isPrefixOf_iff_prefix.2 hp]
    · simp [hp]

lemma mem_nodes_of_find? (hp : p ≠ []) (h : t.find? p = some n) : (p, n) ∈ t.nodes := by
  rw [find?_of_ne hp, List.lookup_eq_some_iff] at h
  obtain ⟨before, behind, heq, -⟩ := h
  simp [heq]

lemma mem_of_find?_ne_none (hp : p ≠ []) (h : t.find? p ≠ none) : p ∈ t.nodes.map Prod.fst := by
  obtain ⟨node, hnode⟩ := Option.ne_none_iff_exists'.1 h
  exact List.mem_map.2 ⟨(p, node), mem_nodes_of_find? hp hnode, rfl⟩

lemma childName?_concat (p : Place) (name : RawText) : childName? p (p ++ [name]) = some name := by
  cases p with
  | nil => rfl
  | cons first p =>
    change (if (first :: p ++ [name]).dropLast = first :: p then (first :: p ++ [name]).getLast? else none) = _
    rw [if_pos List.dropLast_concat, List.getLast?_concat]

lemma mem_names {name : RawText} (h : t.find? (p ++ [name]) = some n) : name ∈ t.names p := by
  obtain ⟨⟨q, m⟩, hq, he⟩ := List.mem_map.1 (mem_of_find?_ne_none (by simp) (h ▸ Option.some_ne_none n))
  rw [names, List.mem_mergeSort, List.mem_filterMap]
  refine ⟨(q, m), hq, ?_⟩
  obtain rfl : q = p ++ [name] := he
  exact childName?_concat p name

lemma isFile_iff : t.isFile p = true ↔ ∃ content, t.find? p = some (.file content) := by
  rw [isFile]
  cases t.find? p with
  | none => simp
  | some n => cases n <;> simp [Node.isFile]

lemma append_of_file {old content : Bytes} (h : t.find? p = some (.file old)) :
    t.append p content = t.put p (.file (old ++ content)) := by
  rw [append, h]

lemma find?_append_of_ne {content : Bytes} (h : q ≠ p) : (t.append p content).find? q = t.find? q := by
  rw [append]
  split
  · exact find?_put_of_ne h
  · rfl

lemma find?_append_eq_file {content new : Bytes} (hp : p ≠ []) (h : (t.append p content).find? p = some (.file new)) :
    ∃ old, t.find? p = some (.file old) ∧ new = old ++ content := by
  rw [append] at h
  split at h
  next old hc =>
    rw [find?_put_self hp] at h
    cases h
    exact ⟨old, hc, rfl⟩
  next hne => exact absurd h (hne new)

lemma isDirectory_iff : t.isDirectory p = true ↔ t.find? p = some .directory := by
  rw [isDirectory]
  cases t.find? p with
  | none => simp
  | some n => cases n <;> simp [Node.isDirectory]

end Find

section Sharing

variable {content : Bytes} {r : Place}

lemma isSame_iff : t.isSame p q = true ↔
    q = p ∨ t.isFile p = true ∧ t.isFile q = true ∧ ∃ k, t.shared.lookup p = some k ∧ t.shared.lookup q = some k := by
  simp only [isSame, Bool.or_eq_true, Bool.and_eq_true, beq_iff_eq, Option.isSome_iff_exists, and_assoc]
  refine or_congr_right (and_congr_right fun _ => and_congr_right fun _ => ?_)
  constructor
  · rintro ⟨⟨k, hk⟩, h⟩
    exact ⟨k, hk, h.trans hk⟩
  · rintro ⟨k, hk, h⟩
    exact ⟨⟨k, hk⟩, h.trans hk.symm⟩

lemma isSame_self (t : FileTree) (p : Place) : t.isSame p p = true := isSame_iff.2 (.inl rfl)

lemma isSame_symm (h : t.isSame p q = true) : t.isSame q p = true := by
  rcases isSame_iff.1 h with rfl | ⟨hp, hq, k, hk, hk'⟩
  · exact isSame_self t q
  · exact isSame_iff.2 (.inr ⟨hq, hp, k, hk', hk⟩)

lemma isSame_trans (h : t.isSame p q = true) (h' : t.isSame q r = true) : t.isSame p r = true := by
  rcases isSame_iff.1 h with rfl | ⟨hp, hq, k, hk, hk'⟩
  · exact h'
  rcases isSame_iff.1 h' with rfl | ⟨-, hr, j, hj, hj'⟩
  · exact h
  · obtain rfl := Option.some.inj (hk'.symm.trans hj)
    exact isSame_iff.2 (.inr ⟨hp, hr, k, hk, hj'⟩)

lemma isFile_of_isSame (h : t.isSame p q = true) : t.isFile q = t.isFile p := by
  rcases isSame_iff.1 h with rfl | ⟨hp, hq, -⟩
  · rfl
  · rw [hp, hq]

lemma find?_fill (hp : p ≠ []) : (t.fill p content).find? q = if t.isSame p q = true then some (.file content) else t.find? q := by
  rw [fill]
  by_cases hfile : t.isFile p = true
  · rw [if_pos hfile]
    by_cases hq : q = []
    · subst hq
      have hne : t.isSame p [] ≠ true := by
        intro h
        rw [← isFile_of_isSame h, isFile, find?_nil] at hfile
        cases hfile
      rw [if_neg hne, find?_nil, find?_nil]
    · have hmap : ∀ l : List (Place × Node),
          (l.map fun x => (x.1, if t.isSame p x.1 then Node.file content else x.2)).lookup q =
            (l.lookup q).map fun n => if t.isSame p q then Node.file content else n := by
        intro l
        induction l with
        | nil => rfl
        | cons x l ih =>
          rw [List.map_cons, List.lookup_cons, List.lookup_cons, ih]
          by_cases hx : q = x.1
          · simp [hx]
          · rw [beq_eq_false_iff_ne.2 hx]
      rw [find?_of_ne hq, hmap, find?_of_ne hq]
      split_ifs with hsame
      · obtain ⟨old, hold⟩ := isFile_iff.1 ((isFile_of_isSame hsame).trans hfile)
        rw [find?_of_ne hq] at hold
        rw [hold, Option.map_some]
      · rw [Option.map_id']
  · rw [if_neg hfile, find?_put]
    have hsame : t.isSame p q = true ↔ q = p := by
      rw [isSame_iff, or_iff_left]
      exact fun h => hfile h.1
    by_cases hq : q = p
    · rw [if_pos ⟨hq, hq ▸ hp⟩, if_pos (hsame.2 hq)]
    · rw [if_neg fun h => hq h.1, if_neg (mt hsame.1 hq)]

lemma find?_fill_self (hp : p ≠ []) : (t.fill p content).find? p = some (.file content) := by
  rw [find?_fill hp, if_pos (isSame_self t p)]

lemma find?_fill_of_directory (hp : p ≠ []) (hkind : t.find? p ≠ some .directory) (hq : t.find? q = some .directory) :
    (t.fill p content).find? q = some .directory := by
  rw [find?_fill hp, if_neg, hq]
  intro hsame
  rcases isSame_iff.1 hsame with rfl | ⟨-, hfile, -⟩
  · exact hkind hq
  · rw [isFile, hq] at hfile
    cases hfile

lemma isFile_fill (hp : p ≠ []) : (t.fill p content).isFile q = (q == p || t.isFile q) := by
  rw [isFile, find?_fill hp]
  by_cases hsame : t.isSame p q = true
  · rw [if_pos hsame]
    rcases isSame_iff.1 hsame with rfl | ⟨-, hq, -⟩
    · simp [Node.isFile]
    · simp [hq, Node.isFile]
  · have hq : q ≠ p := by
      rintro rfl
      exact hsame (isSame_self t q)
    rw [if_neg hsame, beq_eq_false_iff_ne.2 hq, Bool.false_or, isFile]

lemma isSame_fill (hp : p ≠ []) (hfile : t.isFile p = true) : (t.fill p content).isSame q r = t.isSame q r := by
  have hshared : (t.fill p content).shared = t.shared := by rw [fill, if_pos hfile]
  have hkinds : ∀ q, (t.fill p content).isFile q = t.isFile q := by
    intro q
    rw [isFile_fill hp]
    by_cases hq : q = p
    · rw [hq, hfile, Bool.or_true]
    · rw [beq_eq_false_iff_ne.2 hq, Bool.false_or]
  rw [isSame, isSame, hshared, hkinds, hkinds]

lemma lookup_shared_put : (t.put p n).shared.lookup q = if q = p then none else t.shared.lookup q := by
  have hl := @lookup_filter _ _ _ _ q t.shared (· != p)
  rw [put, erase]
  refine hl.trans ?_
  by_cases hq : q = p <;> simp [hq]

lemma isFile_put_of_ne (h : q ≠ p) : (t.put p n).isFile q = t.isFile q := by rw [isFile, find?_put_of_ne h, isFile]

lemma isSame_put (hq : q ≠ p) : (t.put p n).isSame q r = true ↔ t.isSame q r = true ∧ r ≠ p := by
  rw [isSame_iff, isSame_iff, lookup_shared_put, if_neg hq, isFile_put_of_ne hq, lookup_shared_put]
  by_cases hr : r = p
  · simp [hr, Ne.symm hq]
  · rw [if_neg hr, isFile_put_of_ne hr, and_iff_left hr]

def Alone (t : FileTree) (p : Place) : Prop := ∀ q, t.isSame p q = true → q = p

lemma Alone.isSame_iff (h : t.Alone p) : t.isSame p q = true ↔ q = p := by
  constructor
  · exact h q
  · rintro rfl
    exact isSame_self t q

lemma Alone.put (h : t.Alone q) : (t.put p n).Alone q := by
  intro r hr
  by_cases hq : q = p
  · subst hq
    rcases FileTree.isSame_iff.1 hr with rfl | ⟨-, -, k, hk, -⟩
    · rfl
    · rw [lookup_shared_put, if_pos rfl] at hk
      cases hk
  · exact h r ((isSame_put hq).1 hr).1

lemma Alone.fill (hp : p ≠ []) (h : t.Alone q) : (t.fill p content).Alone q := by
  by_cases hfile : t.isFile p = true
  · intro r hr
    rw [isSame_fill hp hfile] at hr
    exact h r hr
  · rw [FileTree.fill, if_neg hfile]
    exact h.put

lemma Alone.find?_fill (hp : p ≠ []) (h : t.Alone p) :
    (t.fill p content).find? q = if q = p then some (.file content) else t.find? q := by
  rw [FileTree.find?_fill hp]
  simp only [h.isSame_iff]

lemma alone_of_shared_eq_nil (h : t.shared = []) (p : Place) : t.Alone p := by
  intro q hq
  rcases FileTree.isSame_iff.1 hq with rfl | ⟨-, -, k, hk, -⟩
  · rfl
  · rw [h] at hk
    cases hk

end Sharing

section Reaching

def Reaches (t : FileTree) (p : Place) : Prop := ∀ q, q <+: p → t.find? q = some .directory

lemma Reaches.of_prefix (h : t.Reaches p) (hq : q <+: p) : t.Reaches q := fun r hr => h r (hr.trans hq)

lemma reaches_concat {name : RawText} : t.Reaches (p ++ [name]) ↔ t.Reaches p ∧ t.find? (p ++ [name]) = some .directory := by
  constructor
  · intro h
    exact ⟨h.of_prefix (List.prefix_append p [name]), h _ List.prefix_rfl⟩
  · rintro ⟨h, hn⟩ q hq
    rcases List.prefix_concat_iff.1 hq with rfl | hq
    · exact hn
    · exact h q hq

lemma reaches_iff (hp : p ≠ []) : t.Reaches p ↔ t.Reaches p.dropLast ∧ t.find? p = some .directory := by
  have hsplit := List.dropLast_append_getLast hp
  generalize p.dropLast = before at hsplit ⊢
  rw [← hsplit, reaches_concat]

lemma enter_eq_ok_iff (names : List RawText) (h : t.Reaches start) :
    t.enter start names = .ok q ↔ q = start ++ names ∧ t.Reaches (start ++ names) := by
  induction names generalizing start with
  | nil =>
    rw [enter, List.append_nil]
    simp [h, eq_comm]
  | cons name names ih =>
    have hassoc : start ++ name :: names = start ++ [name] ++ names := by simp
    rw [enter]
    cases hn : t.find? (start ++ [name]) with
    | none =>
      refine ⟨fun he => (nomatch he), fun ⟨_, hr⟩ => ?_⟩
      rw [hr _ (hassoc ▸ List.prefix_append _ _)] at hn
      cases hn
    | some node =>
      cases node with
      | directory =>
        have hi := @ih (start ++ [name]) (reaches_concat.2 ⟨h, hn⟩)
        rw [hassoc]
        exact hi
      | _ =>
        refine ⟨fun he => (nomatch he), fun ⟨_, hr⟩ => ?_⟩
        rw [hr _ (hassoc ▸ List.prefix_append _ _)] at hn
        cases hn

lemma enter_append_of_reaches (names rest : List RawText) (hr : t.Reaches (start ++ names)) :
    t.enter start (names ++ rest) = t.enter (start ++ names) rest := by
  induction names generalizing start with
  | nil => rw [List.nil_append, List.append_nil]
  | cons name names ih =>
    have hassoc : start ++ name :: names = start ++ [name] ++ names := by simp
    have hname : t.find? (start ++ [name]) = some .directory := hr _ (hassoc ▸ List.prefix_append _ _)
    rw [hassoc] at hr ⊢
    rw [List.cons_append, enter, hname]
    exact ih hr

lemma reaches_nil (t : FileTree) : t.Reaches [] := by
  intro q hq
  rw [List.prefix_nil.1 hq, find?_nil]

lemma status_eq_ok_iff : t.status p = .ok n ↔ t.Reaches p.dropLast ∧ t.find? p = some n := by
  rw [status, bind_eq_ok_iff]
  simp only [enter_eq_ok_iff _ (reaches_nil t), List.nil_append]
  cases t.find? p with
  | none => simp
  | some m => simp [pure, Except.pure]

lemma read_eq_ok_iff {content : Bytes} : t.read p = .ok content ↔ t.Reaches p.dropLast ∧ t.find? p = some (.file content) := by
  rw [read, bind_eq_ok_iff]
  simp only [status_eq_ok_iff]
  constructor
  · rintro ⟨n, ⟨hr, hn⟩, h⟩
    cases n with
    | file old =>
      obtain rfl := Except.ok.inj h
      exact ⟨hr, hn⟩
    | _ => cases h
  · rintro ⟨hr, hn⟩
    exact ⟨_, ⟨hr, hn⟩, rfl⟩

lemma create_eq_ok_iff : t.create p = .ok t' ↔
    t.Reaches p.dropLast ∧ t.find? p = none ∧ t' = t.put p (.file []) := by
  rw [create, bind_eq_ok_iff]
  simp only [enter_eq_ok_iff _ (reaches_nil t), List.nil_append]
  cases t.find? p with
  | none => simp [pure, Except.pure, eq_comm]
  | some m => simp

lemma move_eq_ok_iff : t.move p q = .ok t' ↔ ∃ n, t.status p = .ok n ∧ t.Reaches q.dropLast ∧
    t.find? q ≠ some .directory ∧ t' = (t.erase p).put q n := by
  rw [move, bind_eq_ok_iff]
  refine exists_congr fun n => and_congr_right fun _ => ?_
  rw [bind_eq_ok_iff]
  simp only [enter_eq_ok_iff _ (reaches_nil t), List.nil_append, ne_eq, ← isDirectory_iff]
  cases t.isDirectory q with
  | true => simp
  | false => simp [pure, Except.pure, eq_comm]

end Reaching

section Extending

structure Extends (t t' : FileTree) : Prop where
  kept : ∀ p n, t.find? p = some n → t'.find? p = some n
  made : ∀ p n, t'.find? p = some n → t.find? p = some n ∨ n = .directory

lemma Extends.refl (t : FileTree) : t.Extends t := ⟨fun _ _ h => h, fun _ _ h => .inl h⟩

lemma Extends.trans (h : t.Extends t') (h' : t'.Extends u) : t.Extends u where
  kept p n hn := h'.kept p n (h.kept p n hn)
  made p n hn := by
    rcases h'.made p n hn with hn | hn
    · exact h.made p n hn
    · exact .inr hn

lemma extends_put_directory (h : t.find? p = none) : t.Extends (t.put p .directory) where
  kept q n hn := by
    rw [find?_put_of_ne, hn]
    rintro rfl
    rw [h] at hn
    cases hn
  made q n hn := by
    rw [find?_put] at hn
    split at hn
    · exact .inr (Option.some.inj hn).symm
    · exact .inl hn

lemma Extends.reaches (h : t.Extends t') (hr : t.Reaches p) : t'.Reaches p := fun q hq => h.kept q _ (hr q hq)

lemma makeBelow_eq_ok (names : List RawText) (hr : t.Reaches start) (h : t.makeBelow start names = .ok t') :
    t.Extends t' ∧ t'.Reaches (start ++ names) := by
  induction names generalizing t start with
  | nil =>
    obtain rfl := Except.ok.inj h
    exact ⟨.refl t, by rwa [List.append_nil]⟩
  | cons name names ih =>
    have hassoc : start ++ name :: names = start ++ [name] ++ names := by simp
    rw [makeBelow] at h
    rw [hassoc]
    cases hn : t.find? (start ++ [name]) with
    | none =>
      rw [hn] at h
      have hput := extends_put_directory hn
      have hmade : (t.put (start ++ [name]) .directory).find? (start ++ [name]) = some .directory :=
        find?_put_self (by simp)
      obtain ⟨hext, hreach⟩ := ih (reaches_concat.2 ⟨hput.reaches hr, hmade⟩) h
      exact ⟨hput.trans hext, hreach⟩
    | some node =>
      rw [hn] at h
      cases node with
      | directory => exact ih (reaches_concat.2 ⟨hr, hn⟩) h
      | _ => cases h

lemma makeBelow_of_reaches (names rest : List RawText) (hr : t.Reaches (start ++ names)) :
    t.makeBelow start (names ++ rest) = t.makeBelow (start ++ names) rest := by
  induction names generalizing start with
  | nil => rw [List.nil_append, List.append_nil]
  | cons name names ih =>
    have hassoc : start ++ name :: names = start ++ [name] ++ names := by simp
    have hname : t.find? (start ++ [name]) = some .directory := hr _ (hassoc ▸ List.prefix_append _ _)
    rw [hassoc] at hr ⊢
    rw [List.cons_append, makeBelow, hname]
    exact ih hr

lemma makeDirectories_of_reaches (hr : t.Reaches p) : t.makeDirectories p = .ok t := by
  have h := @makeBelow_of_reaches t [] p [] hr
  rwa [List.append_nil] at h

lemma makeDirectories_eq_ok (h : t.makeDirectories p = .ok t') : t.Extends t' ∧ t'.Reaches p :=
  makeBelow_eq_ok p (reaches_nil t) h

end Extending

section Sparing

variable {S S' : Place → Prop} {content : Bytes}

def Spares (S : Place → Prop) (t t' : FileTree) : Prop := ∀ p, ¬ S p → t'.find? p = t.find? p

lemma Spares.refl (t : FileTree) : t.Spares S t := fun _ _ => rfl

lemma Spares.trans (h : t.Spares S t') (h' : t'.Spares S u) : t.Spares S u :=
  fun p hp => (h' p hp).trans (h p hp)

lemma Spares.mono (h : t.Spares S t') (hS : ∀ p, S p → S' p) : t.Spares S' t' := fun p hp => h p (mt (hS p) hp)

lemma spares_put (hp : S p) : t.Spares S (t.put p n) := by
  intro q hq
  refine find?_put_of_ne ?_
  rintro rfl
  exact hq hp

lemma spares_erase (hp : S p) : t.Spares S (t.erase p) := by
  intro q hq
  rw [find?_erase, if_neg]
  rintro ⟨rfl, -⟩
  exact hq hp

lemma spares_append (hp : S p) : t.Spares S (t.append p content) := by
  intro q hq
  refine find?_append_of_ne ?_
  rintro rfl
  exact hq hp

lemma Spares.reaches (h : t.Spares S t') (hS : ∀ q, q <+: p → ¬ S q) (hr : t.Reaches p) : t'.Reaches p :=
  fun q hq => (h q (hS q hq)).trans (hr q hq)

lemma spares_makeDirectories {name : RawText} (hr : t.Reaches p) (hp : S (p ++ [name]))
    (h : t.makeDirectories (p ++ [name]) = .ok t') : t.Spares S t' := by
  rw [makeDirectories, @makeBelow_of_reaches t [] p [name] hr, List.nil_append, makeBelow] at h
  split at h
  · obtain rfl := Except.ok.inj h
    exact .refl t
  · cases h
  · obtain rfl := Except.ok.inj h
    exact spares_put hp

lemma exists_makeBelow (names : List RawText) (h : ∀ q n, q <+: start ++ names → t.find? q = some n → n = .directory) :
    ∃ t', t.makeBelow start names = .ok t' ∧ t.Spares (· <+: start ++ names) t' := by
  induction names generalizing t start with
  | nil => exact ⟨t, rfl, .refl t⟩
  | cons name names ih =>
    have hassoc : start ++ name :: names = start ++ [name] ++ names := by simp
    have hname : start ++ [name] <+: start ++ [name] ++ names := List.prefix_append _ _
    rw [hassoc] at h ⊢
    rw [makeBelow]
    cases hn : t.find? (start ++ [name]) with
    | none =>
      obtain ⟨t', ht', hspares⟩ := @ih (t.put (start ++ [name]) .directory) (start ++ [name]) fun q n hq hfind => by
        rw [find?_put] at hfind
        split at hfind
        · exact (Option.some.inj hfind).symm
        · exact h q n hq hfind
      exact ⟨t', ht', (spares_put (S := (· <+: start ++ [name] ++ names)) hname).trans hspares⟩
    | some node =>
      obtain rfl := h _ _ hname hn
      exact ih h

end Sparing

end NamespaceMigration.FileTree
