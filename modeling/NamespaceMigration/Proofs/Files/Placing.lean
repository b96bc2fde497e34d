import NamespaceMigration.Proofs.Files.Arrival

namespace NamespaceMigration

namespace Path

variable {name : RawText} {p : Place}

lemma ofPlace_ne_empty (p : Place) : ofPlace p ≠ "" := by
  rw [Ne, eq_empty_iff, ofPlace]
  split_ifs with hp
  · decide
  · obtain ⟨name, p, rfl⟩ := List.exists_cons_of_ne_nil hp
    simp

lemma exists_ofPlace_concat (p : Place) (name : RawText) : ∃ before, ofPlace (p ++ [name]) = before ++ "/" ++ name := by
  by_cases hp : p = []
  · subst hp
    exact ⟨"", ofPlace_singleton name⟩
  · exact ⟨ofPlace p, ofPlace_concat hp name⟩

lemma segments_ofPlace (hne : p ≠ []) (hp : ∀ name ∈ p, IsName name) : segments (ofPlace p) = ("" : RawText) :: p := by
  induction p using List.reverseRec with
  | nil => exact absurd rfl hne
  | append_singleton p name ih =>
    have hname := segments_of_notMem (hp name (by simp)).no_slash
    by_cases hnil : p = []
    · subst hnil
      rw [List.nil_append, ofPlace_singleton, segments_append_slash, hname]
      rfl
    · rw [ofPlace_concat hnil, segments_append_slash, ih hnil fun s hs => hp s (by simp [hs]), hname]
      rfl

lemma trimSlashes_eq {path : RawText} (h : endsWithSlash path = false) : trimSlashes path = path := by
  have hlast : path.octets.getLast? ≠ some slash := of_decide_eq_false h
  rw [trimSlashes]
  split
  next => rfl
  next hdrop =>
    have hsame : path.octets.reverse.dropWhile (· == slash) = path.octets.reverse := by
      rw [List.dropWhile_eq_self_iff]
      intro hlt hslash
      refine hlast ?_
      rw [← List.head?_reverse, List.head?_eq_getElem?, List.getElem?_eq_getElem hlt, beq_iff_eq.1 hslash]
    rw [hsame, List.reverse_reverse]

lemma trimReversed_name {l s : Bytes} (hne : l ≠ []) (hslash : slash ∉ l) (hdot : l ≠ [dot]) :
    trimReversed (l ++ slash :: s) = l ++ slash :: s := by
  obtain ⟨b, l, rfl⟩ := List.exists_cons_of_ne_nil hne
  have hb : b ≠ slash := fun h => hslash (by simp [h])
  rw [List.cons_append, trimReversed, if_neg]
  rintro (⟨h, -⟩ | ⟨rfl, h⟩)
  · exact hb h
  · -- a dot with a slash after it is the whole name
    cases l with
    | nil => exact hdot rfl
    | cons c l => exact hslash (by simp [Option.some.inj h])

lemma fileName?_ofPlace {path : List RawText} (hne : path ≠ []) (h : ∀ name ∈ path, IsName name) (p : Place) :
    fileName? (ofPlace (p ++ path)) = some (path.getLastD "") := by
  obtain ⟨names, name, rfl⟩ : ∃ names name, path = names ++ [name] := ⟨_, _, (List.dropLast_append_getLast hne).symm⟩
  have hn := h name (by simp)
  obtain ⟨before, hbefore⟩ := exists_ofPlace_concat (p ++ names) name
  have hreverse : (ofPlace (p ++ (names ++ [name]))).octets.reverse = name.octets.reverse ++ slash :: before.octets.reverse := by
    rw [← List.append_assoc, hbefore, octets_append_slash]
    simp
  have hoctets : name.octets ≠ [] := mt eq_empty_iff.2 hn.ne_empty
  have htrim := @trimReversed_name name.octets.reverse before.octets.reverse (by simpa using hoctets)
    (by simpa using hn.no_slash) fun h => hn.ne_dot (RawText.ext (List.reverse_eq_iff.1 h))
  have htake : (name.octets.reverse ++ slash :: before.octets.reverse).takeWhile (· != slash) = name.octets.reverse := by
    rw [List.takeWhile_append_of_pos]
    · simp
    · intro b hb
      exact bne_iff_ne.2 fun h => hn.no_slash (by simpa [h] using hb)
  rw [fileName?, splitLast, hreverse, htrim]
  dsimp only
  rw [htake, List.reverse_reverse, if_neg]
  · simp
  rintro (h | h | h)
  · exact hoctets h
  · exact hn.ne_dot (RawText.ext h)
  · exact hn.ne_dots (RawText.ext h)

end Path

def Path.Fits (p : Place) : Prop := Path.flaw? (Path.ofPlace p) = none ∧ ∀ name ∈ p, name.octets.length ≤ Path.longestName

namespace FileTree

variable {t u : FileTree} {start p q cwd : Place} {names : List RawText} {n : Node} {x : Target} {followLast : Bool}
  {jump : Place → List RawText → Except IoFault Target}

lemma locate_ofPlace (hp : ∀ name ∈ p, Path.IsName name) : t.locate followLast cwd (Path.ofPlace p) =
    match Path.flaw? (Path.ofPlace p) with
    | some fault => .error fault
    | none => t.follow followLast 41 [] p := by
  have hsegments : t.follow followLast 41 [] (Path.segments (Path.ofPlace p)) = t.follow followLast 41 [] p := by
    by_cases hne : p = []
    · subst hne
      rfl
    · rw [Path.segments_ofPlace hne hp, follow, walk.eq_def]
      exact if_pos (.inl rfl)
  rw [locate, (Path.spells_ofPlace hp).absolute, if_pos rfl]
  cases Path.flaw? (Path.ofPlace p) with
  | some fault => rfl
  | none => exact hsegments

def standing (t : FileTree) (p : Place) : Target :=
  match t.find? p with
  | some n => .found p n
  | none => .free p

lemma walk_eq (hnames : ∀ name ∈ names, Path.IsName name) (hne : names ≠ []) (hr : t.Reaches (start ++ names).dropLast)
    (hlink : ∀ aim, t.find? (start ++ names) ≠ some (.link aim)) :
    t.walk followLast jump start names =
      if ∀ name ∈ names, name.octets.length ≤ Path.longestName then .ok (t.standing (start ++ names)) else .error .nameTooLong := by
  induction names generalizing start with
  | nil => exact absurd rfl hne
  | cons name names ih =>
    have hname := hnames name (by simp)
    rw [walk, if_neg (by simp [hname.ne_empty, hname.ne_dot]), if_neg hname.ne_dots]
    by_cases hlong : Path.longestName < name.octets.length
    · rw [if_pos hlong, if_neg fun h => Nat.not_lt.2 (h name (by simp)) hlong]
    rw [if_neg hlong]
    by_cases hnil : names = []
    · subst hnil
      have hshort : ∀ s ∈ [name], s.octets.length ≤ Path.longestName := by simpa using Nat.not_lt.1 hlong
      rw [if_pos hshort, standing]
      cases hn : t.find? (start ++ [name]) with
      | none => rfl
      | some n =>
        cases n with
        | link aim => exact absurd hn (hlink aim)
        | _ => rfl
    · have hassoc : start ++ name :: names = start ++ [name] ++ names := by simp
      rw [hassoc] at hr hlink ⊢
      rw [List.dropLast_append_of_ne_nil hnil] at hr
      rw [hr (start ++ [name]) (List.prefix_append _ _)]
      dsimp only
      rw [ih (fun s hs => hnames s (by simp [hs])) hnil (by rwa [List.dropLast_append_of_ne_nil hnil]) hlink]
      simp [Nat.not_lt.1 hlong]

section Ready

variable (hp : p ≠ []) (hnames : ∀ name ∈ p, Path.IsName name) (hr : t.Reaches p.dropLast)
  (hlink : ∀ aim, t.find? p ≠ some (.link aim))
include hp hnames hr hlink

lemma locate_eq : t.locate followLast cwd (Path.ofPlace p) =
    match Path.flaw? (Path.ofPlace p) with
    | some fault => .error fault
    | none => if ∀ name ∈ p, name.octets.length ≤ Path.longestName then .ok (t.standing p) else .error .nameTooLong := by
  rw [locate_ofPlace hnames, follow, walk_eq hnames hp hr hlink, List.nil_append]

lemma locate_eq_ok_iff : t.locate followLast cwd (Path.ofPlace p) = .ok x ↔ Path.Fits p ∧ x = t.standing p := by
  rw [locate_eq hp hnames hr hlink, Path.Fits]
  cases Path.flaw? (Path.ofPlace p) with
  | some fault => simp
  | none =>
    dsimp only
    split_ifs with hshort
    · exact ⟨fun h => ⟨⟨rfl, hshort⟩, (Except.ok.inj h).symm⟩, fun h => congrArg Except.ok h.2.symm⟩
    · exact ⟨fun h => (nomatch h), fun h => absurd h.1.2 hshort⟩

lemma resolve_ofPlace_eq_ok_iff : t.resolve cwd (Path.ofPlace p) = .ok (q, n) ↔ Path.Fits p ∧ q = p ∧ t.find? p = some n := by
  rw [resolve_eq_ok_iff, locate_eq_ok_iff hp hnames hr hlink, standing]
  cases t.find? p with
  | none => simp
  | some n => simp [eq_comm]

lemma resolveOutput_ofPlace_eq_ok_iff :
    t.resolveOutput cwd (Path.ofPlace p) = .ok q ↔ Path.Fits p ∧ t.find? p ≠ some .directory ∧ q = p := by
  rw [resolveOutput, (Path.spells_ofPlace hnames).closed hp, if_neg Bool.false_ne_true, bind_eq_ok_iff]
  simp only [locate_eq_ok_iff hp hnames hr hlink, standing]
  cases t.find? p with
  | none => simp [Target.output, eq_comm]
  | some n => cases n <;> simp [Target.output, eq_comm]

lemma makeDirectoryAt_ofPlace : t.makeDirectoryAt cwd (Path.ofPlace p) =
    match Path.flaw? (Path.ofPlace p) with
    | some fault => .error fault
    | none =>
      if ∀ name ∈ p, name.octets.length ≤ Path.longestName then
        if t.find? p = none then .ok (t.put p .directory) else .error .alreadyExists
      else .error .nameTooLong := by
  rw [makeDirectoryAt, Path.trimSlashes_eq ((Path.spells_ofPlace hnames).closed hp), locate_eq hp hnames hr hlink]
  cases Path.flaw? (Path.ofPlace p) with
  | some fault => rfl
  | none =>
    dsimp only
    split_ifs with hshort hn
    · rw [standing, hn]
      dsimp only [bind, Except.bind]
      have henter : t.enter [] p.dropLast = .ok p.dropLast := (enter_eq_ok_iff _ (reaches_nil t)).2 ⟨rfl, hr⟩
      rw [makeDirectory, henter, hn]
      rfl
    · obtain ⟨n, hn⟩ := Option.ne_none_iff_exists'.1 ‹_›
      rw [standing, hn]
      rfl
    · rfl

lemma makeDirectoriesAt_ofPlace_eq_ok_iff : t.makeDirectoriesAt cwd (Path.ofPlace p) = .ok u ↔
    Path.Fits p ∧ (t.find? p = some .directory ∧ u = t ∨ t.find? p = none ∧ u = t.put p .directory) := by
  have hne : Path.ofPlace p ≠ "" := Path.ofPlace_ne_empty p
  have hdirectory : t.isDirectoryAt cwd (Path.ofPlace p) = true ↔ Path.Fits p ∧ t.find? p = some .directory := by
    rw [isDirectoryAt]
    cases hresolve : t.resolve cwd (Path.ofPlace p) with
    | error fault =>
      constructor
      · intro h
        cases h
      · intro h
        rw [(resolve_ofPlace_eq_ok_iff hp hnames hr hlink).2 ⟨h.1, rfl, h.2⟩] at hresolve
        cases hresolve
    | ok found =>
      obtain ⟨q, n⟩ := found
      obtain ⟨hfits, -, hn⟩ := (resolve_ofPlace_eq_ok_iff hp hnames hr hlink).1 hresolve
      rw [hn]
      cases n <;> simp [hfits, Node.isDirectory]
  -- a fault other than that of a missing parent leaves it to what is there
  have hfault : ∀ fault, fault ≠ IoFault.notFound → t.makeDirectoryAt cwd (Path.ofPlace p) = .error fault →
      (t.makeDirectoriesAt cwd (Path.ofPlace p) = .ok u ↔ t.isDirectoryAt cwd (Path.ofPlace p) = true ∧ u = t) := by
    intro fault hfault hmake
    rw [makeDirectoriesAt, makeDirectoriesFrom, if_neg (mt (fun h => Path.eq_empty_iff.2 (List.isEmpty_iff.1 h)) hne), hmake]
    cases fault with
    | notFound => exact absurd rfl hfault
    | _ => split_ifs with hd <;> simp [hd, eq_comm]
  have hmake := @makeDirectoryAt_ofPlace t p cwd hp hnames hr hlink
  cases hflaw : Path.flaw? (Path.ofPlace p) with
  | some fault =>
    rw [hflaw] at hmake
    have hnot : ¬ Path.Fits p := fun h => by rw [h.1] at hflaw; cases hflaw
    rw [hfault fault (fun he => Path.flaw?_ne_notFound hne (he ▸ hflaw)) hmake, hdirectory]
    simp [hnot]
  | none =>
    rw [hflaw] at hmake
    dsimp only at hmake
    by_cases hshort : ∀ name ∈ p, name.octets.length ≤ Path.longestName
    · have hfits : Path.Fits p := ⟨hflaw, hshort⟩
      rw [if_pos hshort] at hmake
      by_cases hn : t.find? p = none
      · rw [if_pos hn] at hmake
        rw [makeDirectoriesAt, makeDirectoriesFrom, if_neg (mt (fun h => Path.eq_empty_iff.2 (List.isEmpty_iff.1 h)) hne), hmake]
        simp [hfits, hn, eq_comm]
      · rw [if_neg hn] at hmake
        rw [hfault _ (by decide) hmake, hdirectory]
        simp [hfits, hn]
    · rw [if_neg hshort] at hmake
      have hnot : ¬ Path.Fits p := fun h => hshort h.2
      rw [hfault _ (by decide) hmake, hdirectory]
      simp [hnot]

end Ready

end FileTree

end NamespaceMigration
