import Mathlib.Data.List.Induction
import Mathlib.Data.List.TakeWhile
import NamespaceMigration.Proofs.Files.Path
import NamespaceMigration.Proofs.Text.Octets

/-! Paths that spell a place. -/

namespace NamespaceMigration

namespace Path

variable {base name path : RawText} {p : Place}

structure IsName (name : RawText) : Prop where
  ne_empty : name ≠ ""
  no_slash : slash ∉ name.octets
  ne_dot : name ≠ "."
  ne_dots : name ≠ ".."

instance : DecidablePred IsName := fun name =>
  decidable_of_iff (name ≠ "" ∧ slash ∉ name.octets ∧ name ≠ "." ∧ name ≠ "..")
    ⟨fun ⟨h, hs, hd, hds⟩ => ⟨h, hs, hd, hds⟩, fun h => ⟨h.ne_empty, h.no_slash, h.ne_dot, h.ne_dots⟩⟩

structure Spells (path : RawText) (p : Place) : Prop where
  absolute : isAbsolute path = true
  names : (segments path).filter (· ≠ ("" : RawText)) = p
  closed : p ≠ [] → endsWithSlash path = false

lemma eq_empty_iff : path = "" ↔ path.octets = [] := RawText.ext_iff

lemma octets_append_slash (a b : RawText) : (a ++ "/" ++ b).octets = a.octets ++ slash :: b.octets := by
  rw [RawText.octets_append, RawText.octets_append, List.append_assoc]
  rfl

lemma isName_ofText_iff {text : String} :
    IsName (.ofText text) ↔ text ≠ "" ∧ '/' ∉ text.toList ∧ text ≠ "." ∧ text ≠ ".." := by
  have hslash : slash ∈ (RawText.ofText text).octets ↔ '/' ∈ text.toList := Bytes.mem_utf8_iff_of_ascii (c := '/') (by decide)
  constructor
  · intro h
    exact ⟨mt RawText.ofText_inj.2 h.ne_empty, mt hslash.2 h.no_slash, mt RawText.ofText_inj.2 h.ne_dot,
      mt RawText.ofText_inj.2 h.ne_dots⟩
  · rintro ⟨hempty, hno, hdot, hdots⟩
    exact ⟨mt RawText.ofText_inj.1 hempty, mt hslash.1 hno, mt RawText.ofText_inj.1 hdot, mt RawText.ofText_inj.1 hdots⟩

lemma flaw?_ne_notFound (h : path ≠ "") : flaw? path ≠ some .notFound := by
  rw [flaw?]
  split
  · simp
  split
  next hempty => exact absurd (eq_empty_iff.2 (List.isEmpty_iff.1 hempty)) h
  next => split <;> simp

lemma segments_of_notMem (h : slash ∉ name.octets) : segments name = [name] := by
  have hall : ∀ b ∈ name.octets, (b == slash) = false := fun b hb => beq_false_of_ne (ne_of_mem_of_not_mem hb h)
  rw [segments, List.splitOnP_eq_singleton (by simpa using hall)]
  rfl

lemma segments_append_slash (a b : RawText) : segments (a ++ "/" ++ b) = segments a ++ segments b := by
  rw [segments, octets_append_slash, List.splitOnP_append_cons _ _ (by decide), List.map_append]
  rfl

lemma filter_segments_name (h : IsName name) : (segments name).filter (· ≠ ("" : RawText)) = [name] := by
  rw [segments_of_notMem h.no_slash]
  simp [h.ne_empty]

lemma endsWithSlash_append (h : IsName name) (base : RawText) : endsWithSlash (base ++ name) = false := by
  have hne : name.octets ≠ [] := mt eq_empty_iff.2 h.ne_empty
  rw [endsWithSlash, RawText.octets_append, List.getLast?_append_of_ne_nil _ hne, decide_eq_false_iff_not]
  intro hlast
  exact h.no_slash (List.mem_of_getLast? hlast)

lemma isAbsolute_append (h : isAbsolute base = true) (path : RawText) : isAbsolute (base ++ path) = true := by
  rw [isAbsolute, beq_iff_eq] at h ⊢
  rw [RawText.octets_append, List.head?_append, h]
  rfl

lemma isAbsolute_of_isName (h : IsName name) : isAbsolute name = false := by
  rw [isAbsolute, beq_eq_false_iff_ne]
  intro hhead
  exact h.no_slash (List.mem_of_head? hhead)

lemma join_eq (hb : isAbsolute base = true) (hn : IsName name) :
    join base name = if endsWithSlash base = true then base ++ name else base ++ "/" ++ name := by
  have hempty : base.octets.isEmpty = false := by
    rw [← Bool.not_eq_true, List.isEmpty_iff]
    intro hnil
    rw [isAbsolute, hnil] at hb
    cases hb
  rw [join, isAbsolute_of_isName hn, hempty, Bool.or_self, if_neg Bool.false_ne_true, endsWithSlash]
  simp only [decide_eq_true_eq]
  split_ifs
  · rfl
  · exact RawText.ext (octets_append_slash base name).symm

lemma Spells.join (h : Spells base p) (hn : IsName name) : Spells (join base name) (p ++ [name]) := by
  rw [join_eq h.absolute hn]
  split_ifs with hslash
  · obtain ⟨before, rfl⟩ : ∃ before : RawText, base = before ++ "/" ++ "" := by
      obtain ⟨l, hl⟩ := List.getLast?_eq_some_iff.1 (of_decide_eq_true hslash)
      exact ⟨⟨l⟩, RawText.ext (hl.trans (octets_append_slash ⟨l⟩ "").symm)⟩
    have hnil : segments "" = [("" : RawText)] := by decide
    have hnames := h.names
    rw [segments_append_slash, hnil, List.filter_append] at hnames
    refine ⟨isAbsolute_append h.absolute name, ?_, fun _ => endsWithSlash_append hn _⟩
    rw [RawText.append_empty, segments_append_slash, List.filter_append, filter_segments_name hn]
    simpa using hnames
  · refine ⟨isAbsolute_append (isAbsolute_append h.absolute "/") name, ?_, fun _ => endsWithSlash_append hn _⟩
    rw [segments_append_slash, List.filter_append, filter_segments_name hn, h.names]

lemma ofPlace_singleton (name : RawText) : ofPlace [name] = "" ++ "/" ++ name := by
  refine RawText.ext ?_
  rw [octets_append_slash, ofPlace, if_neg (List.cons_ne_nil name [])]
  exact List.append_nil (slash :: name.octets)

lemma ofPlace_concat (hp : p ≠ []) (name : RawText) : ofPlace (p ++ [name]) = ofPlace p ++ "/" ++ name := by
  refine RawText.ext ?_
  rw [octets_append_slash, ofPlace, if_neg (by simp), ofPlace, if_neg hp, List.flatMap_append]
  simp

lemma join_ofPlace (h : Spells (ofPlace p) p) (hn : IsName name) : join (ofPlace p) name = ofPlace (p ++ [name]) := by
  rw [join_eq h.absolute hn]
  by_cases hnil : p = []
  · subst hnil
    have hroot : ofPlace [] = "" ++ "/" := by decide
    rw [List.nil_append, ofPlace_singleton, ← hroot, if_pos (by decide)]
  · rw [h.closed hnil, if_neg Bool.false_ne_true, ofPlace_concat hnil]

lemma spells_ofPlace (h : ∀ name ∈ p, IsName name) : Spells (ofPlace p) p := by
  induction p using List.reverseRec with
  | nil => exact ⟨by decide, by decide, fun hne => absurd rfl hne⟩
  | append_singleton p name ih =>
    have hn := h name (by simp)
    have hp := ih fun x hx => h x (by simp [hx])
    rw [← join_ofPlace hp hn]
    exact hp.join hn

end Path

namespace FileTree

variable {t : FileTree} {start cwd p q : Place} {n : Node} {path : RawText} {segs : List RawText} {target : Target}
  {followLast : Bool} {jump jump' : Place → List RawText → Except IoFault Target}

section Places

def Plain (t : FileTree) (p : Place) : Prop := ∀ q target, q <+: p → t.find? q ≠ some (.link target)

inductive Stands (t : FileTree) (p : Place) : Target → Prop
  | found {n : Node} (hr : t.Reaches p.dropLast) (hn : t.find? p = some n) : Stands t p (.found p n)
  | free (hr : t.Reaches p.dropLast) (hn : t.find? p = none) : Stands t p (.free p)

lemma stands_of_walk (hr : t.Reaches start) (hsegs : ∀ s ∈ segs, s ≠ "." ∧ s ≠ "..")
    (hp : t.Plain (start ++ segs.filter (· ≠ ("" : RawText)))) (h : t.walk followLast jump start segs = .ok target) :
    t.Stands (start ++ segs.filter (· ≠ ("" : RawText))) target := by
  induction segs generalizing start with
  | nil =>
    obtain rfl := Except.ok.inj h
    simpa using Stands.found (hr.of_prefix (List.dropLast_prefix start)) (hr start List.prefix_rfl)
  | cons seg rest ih =>
    obtain ⟨hdot, hdots⟩ := hsegs seg (by simp)
    have hrest : ∀ s ∈ rest, s ≠ "." ∧ s ≠ ".." := fun s hs => hsegs s (by simp [hs])
    rw [walk] at h
    by_cases hempty : seg = ""
    · rw [if_pos (.inl hempty)] at h
      rw [List.filter_cons_of_neg (by simp [hempty])] at hp ⊢
      exact ih hr hrest hp h
    · have hnames : start ++ (seg :: rest).filter (· ≠ ("" : RawText)) = start ++ [seg] ++ rest.filter (· ≠ ("" : RawText)) := by
        rw [List.filter_cons_of_pos (by simp [hempty])]
        simp
      rw [hnames] at hp ⊢
      rw [if_neg (by simp [hempty, hdot]), if_neg hdots] at h
      split at h
      · cases h
      cases hn : t.find? (start ++ [seg]) with
      | none =>
        simp only [hn] at h
        split_ifs at h with hall
        have hnil : rest.filter (· ≠ ("" : RawText)) = [] := by simpa using hall
        obtain rfl := Except.ok.inj h
        rw [hnil, List.append_nil]
        exact .free (by simpa using hr) hn
      | some node =>
        cases node with
        | directory =>
          simp only [hn] at h
          exact ih (reaches_concat.2 ⟨hr, hn⟩) hrest hp h
        | file content =>
          simp only [hn] at h
          split_ifs at h with hnil
          obtain rfl := List.isEmpty_iff.1 hnil
          obtain rfl := Except.ok.inj h
          simpa using Stands.found (by simpa using hr) hn
        | link aim =>
          -- so the walk never jumps, and nothing has to be said about jumps
          exact absurd hn (hp _ aim (List.prefix_append _ _))

variable (hpath : Path.Spells path p) (hnames : ∀ name ∈ p, Path.IsName name) (hplain : t.Plain p)
include hpath hnames hplain

lemma stands_of_locate (h : t.locate followLast cwd path = .ok target) : t.Stands p target := by
  rw [locate] at h
  split at h
  next => cases h
  next =>
    rw [hpath.absolute, if_pos rfl] at h
    have hsegs : ∀ s ∈ Path.segments path, s ≠ "." ∧ s ≠ ".." := by
      intro s hs
      by_cases hempty : s = ""
      · subst hempty
        decide
      · have hname := hnames s (hpath.names ▸ List.mem_filter.2 ⟨hs, by simpa using hempty⟩)
        exact ⟨hname.ne_dot, hname.ne_dots⟩
    have hstands := stands_of_walk (reaches_nil t) hsegs (by rwa [hpath.names, List.nil_append]) h
    rwa [hpath.names, List.nil_append] at hstands

lemma of_resolve_spelled (h : t.resolve cwd path = .ok (q, n)) : q = p ∧ t.Reaches p.dropLast ∧ t.find? p = some n := by
  cases stands_of_locate hpath hnames hplain (resolve_eq_ok_iff.1 h) with
  | found hr hn => exact ⟨rfl, hr, hn⟩

lemma of_resolveOutput_spelled (hne : p ≠ []) (h : t.resolveOutput cwd path = .ok q) :
    q = p ∧ t.Reaches p.dropLast ∧ t.find? p ≠ some .directory := by
  rw [resolveOutput, hpath.closed hne] at h
  obtain ⟨target, htarget, h⟩ := bind_eq_ok_iff.1 h
  cases stands_of_locate hpath hnames hplain htarget with
  | @found node hr hn =>
    cases node with
    | directory => cases h
    | file content => exact ⟨(Except.ok.inj h).symm, hr, by simp [hn]⟩
    | link aim => exact absurd hn (hplain p aim List.prefix_rfl)
  | free hr hn => exact ⟨(Except.ok.inj h).symm, hr, by simp [hn]⟩

end Places

section Files

lemma find?_of_walk {content : Bytes}
    (hj : ∀ start segs, jump start segs = .ok (.found p (.file content)) → t.find? p = some (.file content))
    (h : t.walk followLast jump start segs = .ok (.found p (.file content))) : t.find? p = some (.file content) := by
  induction segs generalizing start with
  | nil => cases h
  | cons seg rest ih =>
    rw [walk] at h
    split at h
    · exact ih h
    split at h
    · exact ih h
    split at h
    · cases h
    split at h
    next => exact ih h
    next =>
      split at h
      · cases h
      · exact hj _ _ h
    next n _ _ hn =>
      split at h
      · cases h
        exact hn
      · cases h
    next => split at h <;> cases h

lemma find?_of_follow {content : Bytes} {links : ℕ} (h : t.follow followLast links start segs = .ok (.found p (.file content))) :
    t.find? p = some (.file content) := by
  induction links generalizing start segs with
  | zero => cases h
  | succ links ih => exact find?_of_walk (fun _ _ hj => ih hj) h

end Files

section Existing

lemma walk_without_last {k : ℕ}
    (hj : ∀ start segs, jump start (segs ++ List.replicate k ("" : RawText)) = .ok (.found p .directory) →
      ∃ q n, jump' start segs = .ok (.found q n))
    (h : t.walk true jump start (segs ++ List.replicate k ("" : RawText)) = .ok (.found p .directory)) :
    ∃ q n, t.walk false jump' start segs = .ok (.found q n) := by
  induction segs generalizing start with
  | nil => exact ⟨start, .directory, rfl⟩
  | cons seg rest ih =>
    rw [List.cons_append, walk] at h
    rw [walk]
    by_cases hdot : seg = "" ∨ seg = "."
    · rw [if_pos hdot] at h ⊢
      exact ih h
    by_cases hdots : seg = ".."
    · rw [if_neg hdot, if_pos hdots] at h ⊢
      exact ih h
    by_cases hlong : Path.longestName < seg.octets.length
    · rw [if_neg hdot, if_neg hdots, if_pos hlong] at h
      cases h
    · rw [if_neg hdot, if_neg hdots, if_neg hlong] at h ⊢
      cases hn : t.find? (start ++ [seg]) with
      | none =>
        simp only [hn] at h
        split at h <;> cases h
      | some node =>
        cases node with
        | directory =>
          simp only [hn] at h
          exact ih h
        | file content =>
          simp only [hn] at h
          split at h <;> cases h
        | link aim =>
          simp only [hn, Bool.not_true, Bool.and_false, Bool.false_eq_true, if_false] at h
          simp only [Bool.not_false, Bool.and_true]
          -- a link at the end is found itself when it is not followed
          by_cases hnil : rest.isEmpty = true
          · exact ⟨_, _, if_pos hnil⟩
          · rw [if_neg hnil]
            rw [← List.append_assoc] at h
            exact hj _ _ h

lemma follow_without_last {k links : ℕ} (h : t.follow true links start (segs ++ List.replicate k ("" : RawText)) = .ok (.found p .directory)) :
    ∃ q n, t.follow false links start segs = .ok (.found q n) := by
  induction links generalizing start segs with
  | zero => cases h
  | succ links ih => exact walk_without_last (fun _ _ hj => ih hj) h

lemma splitOnP_append_replicate (s : Bytes) (k : ℕ) :
    (s ++ List.replicate k Path.slash).splitOnP (· == Path.slash) = s.splitOnP (· == Path.slash) ++ List.replicate k [] := by
  induction k with
  | zero => simp
  | succ k ih =>
    rw [List.replicate_succ', ← List.append_assoc, List.splitOnP_append_cons _ _ (by decide), ih, List.replicate_succ']
    simp

lemma exists_octets_eq_trimSlashes (hne : path ≠ "") : Path.trimSlashes path ≠ "" ∧
    ∃ k, path.octets = (Path.trimSlashes path).octets ++ List.replicate k Path.slash := by
  rw [Path.trimSlashes]
  split
  next => exact ⟨hne, 0, by simp⟩
  next hdrop =>
    have hsplit := List.takeWhile_append_dropWhile (p := (· == Path.slash)) (l := path.octets.reverse)
    have hslashes : path.octets.reverse.takeWhile (· == Path.slash) =
        List.replicate (path.octets.reverse.takeWhile (· == Path.slash)).length Path.slash :=
      List.eq_replicate_of_mem fun b hb => by simpa using List.mem_takeWhile_imp hb
    have hlist := congrArg List.reverse hsplit
    rw [List.reverse_append, List.reverse_reverse, hslashes, List.reverse_replicate] at hlist
    exact ⟨fun hempty => hdrop (List.reverse_eq_nil_iff.1 (Path.eq_empty_iff.1 hempty)),
      (path.octets.reverse.takeWhile (· == Path.slash)).length, hlist.symm⟩

lemma makeDirectoriesAt_of_resolve (h : t.resolve cwd path = .ok (p, .directory)) : t.makeDirectoriesAt cwd path = .ok t := by
  rw [makeDirectoriesAt, makeDirectoriesFrom]
  by_cases hempty : path = ""
  · rw [hempty]
    rfl
  rw [if_neg (mt (fun h => Path.eq_empty_iff.2 (List.isEmpty_iff.1 h)) hempty)]
  obtain ⟨htrimmed, k, hk⟩ := exists_octets_eq_trimSlashes hempty
  have hsegments : Path.segments path = Path.segments (Path.trimSlashes path) ++ List.replicate k ("" : RawText) := by
    rw [Path.segments, hk, splitOnP_append_replicate, List.map_append, List.map_replicate]
    rfl
  have habsolute : Path.isAbsolute (Path.trimSlashes path) = Path.isAbsolute path := by
    rw [Path.isAbsolute, Path.isAbsolute, hk, List.head?_append_of_ne_nil _ (mt Path.eq_empty_iff.2 htrimmed)]
  have hfault : ∃ fault, t.makeDirectoryAt cwd path = .error fault ∧ fault ≠ .notFound := by
    have hlocate := resolve_eq_ok_iff.1 h
    rw [locate] at hlocate
    split at hlocate
    next => cases hlocate
    next =>
      rw [hsegments] at hlocate
      obtain ⟨q, n, hq⟩ := follow_without_last hlocate
      rw [makeDirectoryAt, locate, habsolute, hq]
      cases hflaw : Path.flaw? (Path.trimSlashes path) with
      | none => exact ⟨.alreadyExists, rfl, by decide⟩
      | some fault =>
        refine ⟨fault, rfl, ?_⟩
        rintro rfl
        exact Path.flaw?_ne_notFound htrimmed hflaw
  obtain ⟨fault, hmake, hne⟩ := hfault
  have hdirectory : t.isDirectoryAt cwd path = true := by
    rw [isDirectoryAt, h]
    rfl
  rw [hmake]
  cases fault with
  | notFound => exact absurd rfl hne
  | _ => exact if_pos hdirectory

end Existing

end FileTree

end NamespaceMigration
