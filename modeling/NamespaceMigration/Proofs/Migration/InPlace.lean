import NamespaceMigration.Proofs.Files.Coverage
import NamespaceMigration.Proofs.Files.Placing
import NamespaceMigration.Proofs.Migration.Stages
import NamespaceMigration.Zip.Format

/-! A directory that is migrated onto itself, also where that fails. -/

namespace NamespaceMigration.Migration

open FileTree Steps

variable {m : Migration} {w : Workspace} {t : FileTree} {source p : Place} {content : Bytes} {e : WalkEntry}
  {entries done : List WalkEntry}

def isOnto (m : Migration) (t : FileTree) (source p : Place) (e : WalkEntry) : Bool :=
  !e.isDirectory && match t.resolve m.cwd (m.targetPath source e.path) with
    | .ok (q, _) => t.isSame p q
    | .error _ => false

def writers (m : Migration) (t : FileTree) (source p : Place) : List WalkEntry :=
  match t.walkEntries source with
  | .ok entries => entries.filter (m.isOnto t source p)
  | .error _ => []

def reconvert (m : Migration) (content : Bytes) (entries : List WalkEntry) : Except ArchiveFault Bytes :=
  entries.foldlM (fun content e => (m.migrator.migrate (lastName e.path) content).map (·.bytes)) content

lemma reconvert_concat {new : Bytes} : m.reconvert content (done ++ [e]) = .ok new ↔
    ∃ now o, m.reconvert content done = .ok now ∧ m.migrator.migrate (lastName e.path) now = .ok o ∧ o.bytes = new := by
  have hlast : ∀ x : Except ArchiveFault Outcome, x.map (·.bytes) = .ok new ↔ ∃ o, x = .ok o ∧ o.bytes = new := by
    intro x
    cases x <;> simp [Except.map]
  rw [reconvert, List.foldlM_append, bind_eq_ok_iff]
  simp only [List.foldlM_cons, List.foldlM_nil, bind_pure, hlast, exists_and_left]
  rfl

/-- Whether a workspace has under the names of an old file what the file was converted to for some entries. -/
structure Kept (m : Migration) (t : FileTree) (p : Place) (content : Bytes) (done : List WalkEntry) (w : Workspace) : Prop where
  cache : w.cache = none
  grows : t.Grows w.files
  same : ∀ q, w.files.isSame p q = t.isSame p q
  holds : ∃ now, m.reconvert content done = .ok now ∧ ∀ q, t.isSame p q = true → w.files.find? q = some (.file now)

lemma ne_nil_of_file (h : t.find? p = some (.file content)) : p ≠ [] := by
  rintro rfl
  cases h

namespace Kept

variable (h : Kept m t p content done w)
include h

lemma withFiles {u : FileTree} (hu : w.files.Grows u) (hsame : ∀ q, u.isSame p q = w.files.isSame p q)
    (hp : ∀ q, w.files.isSame p q = true → u.find? q = w.files.find? q) : Kept m t p content done { w with files := u } := by
  obtain ⟨now, hnow, hn⟩ := h.holds
  refine ⟨h.cache, h.grows.trans hu, fun q => (hsame q).trans (h.same q), now, hnow, fun q hq => ?_⟩
  rw [hp q ((h.same q).trans hq), hn q hq]

lemma isFile : w.files.isFile p = true := by
  obtain ⟨now, -, hn⟩ := h.holds
  exact isFile_iff.2 ⟨now, hn p (isSame_self t p)⟩

lemma fill_of_not {q : Place} (hq : w.files.find? q = none ∨ w.files.isFile q = true) (hnil : q ≠ [])
    (hne : t.isSame p q = false) (new : Bytes) : Kept m t p content done { w with files := w.files.fill q new } := by
  have hnot : w.files.isSame p q ≠ true := by simp [h.same, hne]
  refine h.withFiles (grows_fill hnil hq) (fun r => ?_) fun r hr => ?_
  · by_cases hfile : w.files.isFile q = true
    · exact isSame_fill hnil hfile
    · have hpq : p ≠ q := fun he => hnot (he ▸ isSame_self w.files p)
      rw [FileTree.fill, if_neg hfile, Bool.eq_iff_iff, isSame_put hpq]
      exact and_iff_left_of_imp fun hr he => hnot (he ▸ hr)
  · rw [find?_fill hnil, if_neg]
    exact fun hqr => hnot (isSame_trans hr (isSame_symm hqr))

lemma fill_of_isSame {q : Place} {old : Bytes} {o : Outcome} (hq : t.isSame p q = true)
    (hold : w.files.find? q = some (.file old)) (ho : m.migrator.migrate (lastName e.path) old = .ok o) :
    Kept m t p content (done ++ [e]) { w with files := w.files.fill q o.bytes } := by
  have hnil := ne_nil_of_file hold
  have hfile := isFile_iff.2 ⟨old, hold⟩
  obtain ⟨now, hnow, hn⟩ := h.holds
  obtain rfl : now = old := by simpa using (hn q hq).symm.trans hold
  refine ⟨h.cache, h.grows.trans (grows_fill hnil (.inr hfile)), fun r => (isSame_fill hnil hfile).trans (h.same r), o.bytes,
    reconvert_concat.2 ⟨now, o, hnow, ho, rfl⟩, fun r hr => ?_⟩
  rw [find?_fill hnil, if_pos]
  exact isSame_trans (isSame_symm ((h.same q).trans hq)) ((h.same r).trans hr)

lemma ensures_write {q place : Place} (hq : w.files.find? q = none ∨ w.files.isFile q = true) (hnil : q ≠ [])
    (hne : t.isSame p q = false) (path : RawText) (name : String) :
    Ensures w (do
      putFile q []
      let o ← m.convert path name ((← get).files.contentAt place)
      putFile q o.bytes
      return o.changed) (fun _ u => Kept m t p content done u) fun _ u => Kept m t p content done u := by
  have hfill := h.fill_of_not hq hnil hne []
  have hfile : (w.files.fill q []).isFile q = true := by simp [isFile_fill hnil]
  refine ensures_modify_bind.2 (ensures_get_bind.2 ?_)
  refine ensures_bind.2 ((ensures_convert_uncached hfill.cache).mono ?_ fun _ u hu => hu ▸ hfill)
  rintro o _ ⟨-, rfl⟩
  exact hfill.fill_of_not (.inr hfile) hnil hne o.bytes

lemma ensures_rewrite {q : Place} {old : Bytes} (hold : w.files.find? q = some (.file old)) (path : RawText) :
    Ensures w (do
      let o ← m.convert path (lastName e.path) old
      putFile q o.bytes
      return o.changed) (fun _ u => Kept m t p content (done ++ if t.isSame p q = true then [e] else []) u)
      fun _ u => Kept m t p content done u := by
  refine ensures_bind.2 ((ensures_convert_uncached h.cache).mono ?_ fun _ u hu => hu ▸ h)
  rintro o _ ⟨ho, rfl⟩
  split_ifs with hq
  · exact h.fill_of_isSame hq hold ho
  · rw [List.append_nil]
    exact h.fill_of_not (.inr (isFile_iff.2 ⟨old, hold⟩)) (ne_nil_of_file hold) (Bool.eq_false_iff.2 hq) o.bytes

end Kept

lemma of_resolveOutput {cwd q : Place} {path : RawText} (h : t.resolveOutput cwd path = .ok q) :
    (∃ n, t.locate true cwd path = .ok (.found q n)) ∧ t.isFile q = true ∨
      t.locate true cwd path = .ok (.free q) ∧ t.find? q = none := by
  rw [resolveOutput] at h
  split_ifs at h with hslash
  · obtain ⟨_, -, h⟩ := bind_eq_ok_iff.1 h
    cases h
  obtain ⟨x, hx, h⟩ := bind_eq_ok_iff.1 h
  have hlocate := hx
  rw [locate] at hx
  split at hx
  next => cases hx
  next =>
    obtain ⟨k, r, rest, -, -, hends⟩ := follow_eq_ok_iff.1 hx
    cases hends with
    | directory => cases h
    | file hseg hn =>
      obtain rfl := Except.ok.inj h
      exact .inl ⟨⟨_, hlocate⟩, isFile_iff.2 ⟨_, hn⟩⟩
    | free hseg hn =>
      obtain rfl := Except.ok.inj h
      exact .inr ⟨hlocate, hn⟩

section Entries

variable (hprofile : m.migrator.profile.SparesNames) (hrooted : t.Rooted) (hsource : t.Reaches source)
  (hwalk : t.walkEntries source = .ok entries) (hp : ∀ q, t.isSame p q = true → t.find? q = some (.file content))
include hprofile hrooted hsource hwalk hp

lemma isOnto_iff {u : FileTree} (hgrows : t.Grows u) (he : e ∈ entries) (hfile : e.isDirectory = false) :
    m.isOnto t source p e = true ↔
      ∃ q n, t.isSame p q = true ∧ u.resolve m.cwd (m.targetPath source e.path) = .ok (q, n) := by
  have hnames : ∀ name ∈ source, Path.IsName name := hrooted.isName (by simp [hsource source List.prefix_rfl])
  have hpath := (listed_walkEntries hrooted.toWellFormed hwalk).names e he
  have hrenamed := isName_of_mem_renamed hprofile hpath
  have hsteps : t.Leads [] (source ++ []) 0 source [] := by
    rw [List.append_nil]
    exact leads_of_reaches (hrooted.isStep (by simp [hsource source List.prefix_rfl])) hsource
  have honto : m.isOnto t source p e = true ↔
      ∃ q n, t.isSame p q = true ∧ t.resolve m.cwd (m.targetPath source e.path) = .ok (q, n) := by
    rw [isOnto, hfile, Bool.not_false, Bool.true_and]
    cases t.resolve m.cwd (m.targetPath source e.path) with
    | error fault => simp
    | ok found =>
      obtain ⟨q, n⟩ := found
      simp
  rw [honto]
  constructor
  · rintro ⟨q, n, hq, hn⟩
    obtain ⟨n', hn', -⟩ := hgrows.resolve hn
    exact ⟨q, n', hq, hn'⟩
  · rintro ⟨q, n, hq, hn⟩
    rw [resolve_eq_ok_iff, targetPath_eq hnames hrenamed,
      locate_ofPlace (List.forall_mem_append.2 ⟨hnames, hrenamed⟩)] at hn
    refine ⟨q, .file content, hq, ?_⟩
    rw [resolve_eq_ok_iff, targetPath_eq hnames hrenamed, locate_ofPlace (List.forall_mem_append.2 ⟨hnames, hrenamed⟩)]
    split at hn
    next => cases hn
    next =>
      exact hgrows.reach_of_reach hrooted hrenamed (hp q hq) (walked_of_walkEntries hwalk) (by decide) hsteps hn

variable (hown : ∀ e ∈ entries, m.isOnto t source p e = true → ∃ q n n',
  t.reach true (source ++ e.path) = .ok (.found q n) ∧ t.resolve m.cwd (m.targetPath source e.path) = .ok (q, n'))
include hown

lemma ensures_migrateFile_in_place (h : Kept m t p content done w) (he : e ∈ entries) (hfile : e.isDirectory = false) :
    Ensures w (m.migrateFile (.ofPlace (source ++ e.path)) (.ofPath m.cwd (m.targetPath source e.path)))
      (fun _ u => Kept m t p content (done ++ [e].filter (m.isOnto t source p)) u) fun _ u => Kept m t p content done u := by
  obtain ⟨place, n, hreach, -⟩ := reach_of_mem_walkBelow hwalk he
  have hlisted := listed_walkEntries hrooted.toWellFormed hwalk
  have honto := isOnto_iff hprofile hrooted hsource hwalk hp h.grows he hfile
  refine ensures_bind.2 ((ensures_onFiles _ _ w).mono ?_ fun _ u hu => hu ▸ h)
  rintro ⟨q, old⟩ w ⟨hcontent, rfl⟩
  have hold := find?_of_content hcontent
  obtain rfl : q = place := by
    obtain ⟨n', hn', -⟩ := h.grows.follow hreach
    obtain ⟨⟨r, k⟩, hnode, hc⟩ := bind_eq_ok_iff.1 hcontent
    obtain ⟨x, hx, hnode⟩ := bind_eq_ok_iff.1 hnode
    cases hn'.symm.trans hx
    cases hnode
    cases n' with
    | file => exact (Prod.mk.inj (Except.ok.inj hc)).1.symm
    | _ => cases hc
  refine ensures_get_bind.2 ?_
  dsimp only [Location.ofPlace]
  rw [Path.fileName?_ofPlace (hlisted.below e he) (hlisted.names e he), Option.map_some, Option.getD_some]
  split_ifs with hsame
  · obtain ⟨n', hnode⟩ : ∃ n', w.files.resolve m.cwd (m.targetPath source e.path) = .ok (q, n') := by
      split at hsame
      next r n' hnode => exact ⟨n', beq_iff_eq.1 hsame ▸ hnode⟩
      next => cases hsame
    have hdone : [e].filter (m.isOnto t source p) = if t.isSame p q = true then [e] else [] := by
      have hiff : m.isOnto t source p e = true ↔ t.isSame p q = true := by
        rw [honto, hnode]
        simp
      rw [List.filter_singleton, Bool.eq_iff_iff.2 hiff]
      cases t.isSame p q <;> rfl
    rw [hdone]
    exact h.ensures_rewrite hold _
  · have hnot : m.isOnto t source p e = false := by
      rw [← Bool.not_eq_true]
      intro hyes
      obtain ⟨r, k, k', hr, hr'⟩ := hown e he hyes
      obtain ⟨n', hn', -⟩ := h.grows.resolve hr'
      have hq : q = r := (Target.found.inj (Except.ok.inj (hreach.symm.trans hr))).1
      have hnode : (Location.ofPath m.cwd (m.targetPath source e.path)).node w.files = .ok (r, n') := hn'
      rw [hnode] at hsame
      exact hsame (beq_iff_eq.2 hq.symm)
    rw [List.filter_singleton, hnot, Bool.cond_false, List.append_nil]
    refine ensures_bind.2 ((ensures_onFiles _ _ w).mono ?_ fun _ u hu => hu ▸ h)
    rintro target w ⟨houtput, rfl⟩
    have houtput := of_resolveOutput houtput
    have hfree : w.files.find? target = none ∨ w.files.isFile target = true :=
      houtput.elim (fun h => .inr h.2) fun h => .inl h.2
    have hother : t.isSame p target = false := by
      rw [← Bool.not_eq_true]
      intro htarget
      rcases houtput with ⟨⟨n', hn'⟩, -⟩ | ⟨-, hnone⟩
      · rw [← Bool.not_eq_true, honto] at hnot
        exact hnot ⟨target, n', htarget, resolve_eq_ok_iff.2 hn'⟩
      · obtain ⟨now, -, hnow⟩ := h.holds
        rw [hnow target htarget] at hnone
        cases hnone
    have hnil : target ≠ [] := by
      rintro rfl
      rcases hfree with hnone | hroot
      · cases hnone
      · cases hroot
    exact h.ensures_write hfree hnil hother _ _

lemma ensures_migrateEntry_in_place (h : Kept m t p content done w) (he : e ∈ entries) (r : Report) :
    Ensures w (m.migrateEntry source source r e) (fun _ u => Kept m t p content (done ++ [e].filter (m.isOnto t source p)) u)
      fun _ u => Kept m t p content done u := by
  rw [migrateEntry]
  by_cases hd : e.isDirectory = true
  · have hnot : m.isOnto t source p e = false := by rw [isOnto, hd, Bool.not_true, Bool.false_and]
    rw [if_pos hd, List.filter_singleton, hnot, Bool.cond_false, List.append_nil]
    refine ensures_bind.2 (ensures_bind.2 ((ensures_onFiles _ _ w).mono ?_ fun _ u hu => hu ▸ h))
    rintro u _ ⟨hu, rfl⟩
    have hextends := makeDirectoriesAt_eq_ok hu
    obtain ⟨now, -, hnow⟩ := h.holds
    refine h.withFiles hextends.grows (isSame_makeDirectoriesAt h.isFile hu) fun q hq => ?_
    have hn := hnow q ((h.same q).symm.trans hq)
    rw [hextends.kept q _ hn, hn]
  · rw [if_neg hd]
    refine ensures_bind.2 ?_
    exact (ensures_migrateFile_in_place hprofile hrooted hsource hwalk hp hown h he (Bool.eq_false_iff.2 hd)).mono
      (fun _ _ hu => hu) fun _ _ hu => hu

lemma ensures_migrateEntries_in_place {rest : List WalkEntry} (h : Kept m t p content done w)
    (hrest : ∀ e ∈ rest, e ∈ entries) (r : Report) :
    Ensures w (rest.foldlM (m.migrateEntry source source) r)
      (fun _ u => Kept m t p content (done ++ rest.filter (m.isOnto t source p)) u)
      fun _ u => ∃ more, more <+: rest.filter (m.isOnto t source p) ∧ Kept m t p content (done ++ more) u := by
  induction rest generalizing done w r with
  | nil => simpa [Ensures] using h
  | cons e rest ih =>
    have hfilter : (e :: rest).filter (m.isOnto t source p) =
        [e].filter (m.isOnto t source p) ++ rest.filter (m.isOnto t source p) := by
      rw [← List.filter_append, List.singleton_append]
    rw [List.foldlM_cons, hfilter]
    have hfirst := ensures_migrateEntry_in_place hprofile hrooted hsource hwalk hp hown h (hrest e (by simp)) r
    refine ensures_bind.2 (hfirst.mono ?_ ?_)
    · intro r' u hu
      refine (ih hu (fun f hf => hrest f (by simp [hf])) r').mono ?_ ?_
      · intro _ v hv
        rwa [List.append_assoc] at hv
      · rintro _ v ⟨more, hmore, hv⟩
        refine ⟨_, (List.prefix_append_right_inj _).2 hmore, ?_⟩
        rwa [List.append_assoc] at hv
    · intro _ u hu
      exact ⟨[], List.nil_prefix, by rwa [List.append_nil]⟩

end Entries

section Results

variable {b : BuiltIn}

lemma reconvert_of_prefix {writers : List WalkEntry} {now : Bytes} (hdone : done <+: writers)
    (hnow : m.reconvert content done = .ok now) (hone : writers.length ≤ 1) :
    now = content ∨ ∃ e ∈ writers, ∃ o, m.migrator.migrate (lastName e.path) content = .ok o ∧ now = o.bytes := by
  cases done with
  | nil => exact .inl (Except.ok.inj hnow).symm
  | cons e rest =>
    have hrest : rest = [] := List.length_eq_zero_iff.1 (Nat.le_zero.1 (Nat.le_of_succ_le_succ (hdone.length_le.trans hone)))
    subst hrest
    obtain ⟨old, o, hold, ho, rfl⟩ := reconvert_concat.1 ((List.nil_append [e]).symm ▸ hnow)
    obtain rfl := Except.ok.inj hold
    exact .inr ⟨e, hdone.subset (by simp), o, ho, rfl⟩

lemma ensures_perform_in_place (hprofile : m.migrator.profile.SparesNames) (hrooted : w.files.Rooted) (hcache : w.cache = none)
    (hcwd : w.files.Reaches m.cwd) (hsource : w.files.resolve m.cwd m.source = .ok (source, .directory))
    (hdest : w.files.resolve m.cwd m.destination = .ok (source, .directory))
    (hp : ∀ q, w.files.isSame p q = true → w.files.find? q = some (.file content))
    (hown : ∀ e ∈ m.writers w.files source p, ∃ q n n', w.files.reach true (source ++ e.path) = .ok (.found q n) ∧
      w.files.resolve m.cwd (m.targetPath source e.path) = .ok (q, n')) :
    Ensures w m.perform (fun _ u => ∃ done, done <+: m.writers w.files source p ∧ Kept m w.files p content done u)
      fun _ u => ∃ done, done <+: m.writers w.files source p ∧ Kept m w.files p content done u := by
  have hstart : Kept m w.files p content [] w := ⟨hcache, .refl _, fun _ => rfl, content, rfl, hp⟩
  rw [Ensures, run_perform_of_made hsource (makeDirectoriesAt_of_resolve hdest) hsource hdest]
  cases hwalk : w.files.walkEntries source with
  | error fault => exact ⟨[], List.nil_prefix, hstart⟩
  | ok entries =>
    have hwriters : m.writers w.files source p = entries.filter (m.isOnto w.files source p) := by
      rw [writers, hwalk]
    have hall : selected source source entries = entries := by
      rw [selected, if_neg]
      simp
    rw [hwriters] at hown ⊢
    dsimp only
    rw [hall]
    refine ensures_bind.2 ((ensures_migrateEntries_in_place hprofile hrooted (reaches_of_resolve hcwd hsource) hwalk hp
      (fun e he hyes => hown e (List.mem_filter.2 ⟨he, hyes⟩)) hstart (fun _ he => he) _).mono ?_ ?_)
    · intro r u hu
      rw [Ensures, run_bind_of_ok (run_tidyCache hu.cache)]
      exact ⟨_, List.prefix_rfl, hu⟩
    · rintro _ u ⟨more, hmore, hu⟩
      exact ⟨more, hmore, hu⟩

/-- A migration of a directory onto itself, whether it ends well or fails, leaves an old file as conversions of its content
made it, one for each entry that was migrated onto it before: as it was or converted, if there is but one such entry. So it
does if no entry has its migrated path there but those that lead there themselves. -/
theorem find?_perform_in_place (hb : m.migrator.profile = b.profile) (hrooted : w.files.Rooted) (hcache : w.cache = none)
    (hcwd : w.files.Reaches m.cwd) (hsource : w.files.resolve m.cwd m.source = .ok (source, .directory))
    (hdest : w.files.resolve m.cwd m.destination = .ok (source, .directory))
    (hp : ∀ q, w.files.isSame p q = true → w.files.find? q = some (.file content))
    (hown : ∀ e ∈ m.writers w.files source p, ∃ q n n', w.files.reach true (source ++ e.path) = .ok (.found q n) ∧
      w.files.resolve m.cwd (m.targetPath source e.path) = .ok (q, n')) :
    ∃ now, (after (m.perform.run w)).files.find? p = some (.file now) ∧
      (∃ done, done <+: m.writers w.files source p ∧ m.reconvert content done = .ok now) ∧
      ((m.writers w.files source p).length ≤ 1 → now = content ∨
        ∃ e ∈ m.writers w.files source p, ∃ o, m.migrator.migrate (lastName e.path) content = .ok o ∧ now = o.bytes) := by
  obtain ⟨done, hdone, hkept⟩ := (ensures_perform_in_place (hb ▸ Profile.sparesNames_builtIn b) hrooted hcache hcwd hsource
    hdest hp hown).after
  obtain ⟨now, hnow, hn⟩ := hkept.holds
  exact ⟨now, hn p (isSame_self w.files p), ⟨done, hdone, hnow⟩, reconvert_of_prefix hdone hnow⟩

theorem find?_perform_in_place_of_two_files :
    let t : FileTree := ⟨[(["src"], .directory), (["src", "a.txt"], .file (Bytes.utf8 "javax.servlet.A")),
      (["src", "z.class"], .file [0x00])], []⟩
    let m : Migration := ⟨.forZip BuiltIn.tomcat.profile, "src", "src", [], ⟨2024, 1, 1⟩⟩
    ∃ fault w now, m.perform.run ⟨t, none⟩ = .error fault w ∧ w.files.find? ["src", "a.txt"] = some (.file now) ∧
      (now = Bytes.utf8 "javax.servlet.A" ∨ ∃ o, m.migrator.migrate "a.txt" (Bytes.utf8 "javax.servlet.A") = .ok o ∧
        now = o.bytes) := by
  intro t m
  have hwalk : t.walkEntries ["src"] = .ok [⟨["a.txt"], false⟩, ⟨["z.class"], false⟩] :=
    walkEntries_of_files ["a.txt", "z.class"] (by decide) (by decide) (by decide +kernel)
  have hsource : t.resolve [] "src" = .ok (["src"], .directory) := eq_ok_of_toOption_eq_some (by decide +kernel)
  have hrun := @run_perform_of_made m ⟨t, none⟩ t ["src"] ["src"] hsource (makeDirectoriesAt_of_resolve hsource) hsource hsource
  have hfails : (answer (m.perform.run ⟨t, none⟩)).toOption.isNone = true := by
    rw [hrun, hwalk]
    decide +kernel
  obtain ⟨fault, hperform⟩ := exists_eq_error (Option.isNone_iff_eq_none.1 hfails)
  have hrooted : t.Rooted := rooted_of_forall_mem ⟨by decide, by decide⟩ (by decide) (by decide +kernel)
  have hwriters : m.writers t ["src"] ["src", "a.txt"] = [⟨["a.txt"], false⟩] := by
    rw [writers, hwalk]
    decide +kernel
  have hreach : t.reach true ["src", "a.txt"] = .ok (.found ["src", "a.txt"] (.file (Bytes.utf8 "javax.servlet.A"))) :=
    eq_ok_of_toOption_eq_some (by decide +kernel)
  have htarget : t.resolve [] (m.targetPath ["src"] ["a.txt"]) = .ok (["src", "a.txt"], .file (Bytes.utf8 "javax.servlet.A")) :=
    eq_ok_of_toOption_eq_some (by decide +kernel)
  have hp : ∀ q, t.isSame ["src", "a.txt"] q = true → t.find? q = some (.file (Bytes.utf8 "javax.servlet.A")) := by
    intro q hq
    rw [alone_of_shared_eq_nil rfl _ q hq]
    decide +kernel
  have hown : ∀ e ∈ m.writers t ["src"] ["src", "a.txt"], ∃ q n n', t.reach true ((["src"] : Place) ++ e.path) = .ok (.found q n) ∧
      t.resolve [] (m.targetPath ["src"] e.path) = .ok (q, n') := by
    rw [hwriters]
    exact List.forall_mem_singleton.2 ⟨_, _, _, hreach, htarget⟩
  obtain ⟨now, hnow, -, hone⟩ := @find?_perform_in_place m ⟨t, none⟩ ["src"] ["src", "a.txt"] _ .tomcat rfl hrooted rfl
    (reaches_nil t) hsource hsource hp hown
  rw [hwriters] at hone
  refine ⟨fault, _, now, hperform, hnow, ?_⟩
  have hname : lastName ["a.txt"] = "a.txt" := lastName_concat [] "a.txt"
  simpa [hname] using hone (by simp)

/-- A tree in which a name is migrated to another one that is there, whose file is lost though the migration fails. -/
theorem perform_in_place_overwrites :
    let t : FileTree := ⟨[(["src"], .directory), (["src", "jakarta.servlet.A"], .file [0x62]),
      (["src", "javax.servlet.A"], .file [0x61]), (["src", "z.class"], .file [0x00])], []⟩
    let m : Migration := ⟨.forZip BuiltIn.tomcat.profile, "src", "src", [], ⟨2024, 1, 1⟩⟩
    ∃ fault w, m.perform.run ⟨t, none⟩ = .error fault w ∧
      w.files.find? ["src", "jakarta.servlet.A"] = some (.file [0x61]) ∧
      ∀ o, m.migrator.migrate "jakarta.servlet.A" [0x62] = .ok o → o.bytes = [0x62] := by
  intro t m
  have hwalk : t.walkEntries ["src"] =
      .ok [⟨["jakarta.servlet.A"], false⟩, ⟨["javax.servlet.A"], false⟩, ⟨["z.class"], false⟩] :=
    walkEntries_of_files ["jakarta.servlet.A", "javax.servlet.A", "z.class"] (by decide) (by decide) (by decide +kernel)
  have hsource : t.resolve [] "src" = .ok (["src"], .directory) := eq_ok_of_toOption_eq_some (by decide +kernel)
  have hrun := @run_perform_of_made m ⟨t, none⟩ t ["src"] ["src"] hsource (makeDirectoriesAt_of_resolve hsource) hsource hsource
  have hfails : (answer (m.perform.run ⟨t, none⟩)).toOption.isNone = true ∧
      (after (m.perform.run ⟨t, none⟩)).files.find? ["src", "jakarta.servlet.A"] = some (.file [0x61]) := by
    rw [hrun, hwalk]
    decide +kernel
  have hkept : ((m.migrator.migrate "jakarta.servlet.A" [0x62]).toOption.map (·.bytes)) = some [0x62] := by decide +kernel
  obtain ⟨fault, hperform⟩ := exists_eq_error (Option.isNone_iff_eq_none.1 hfails.1)
  refine ⟨fault, _, hperform, hfails.2, fun o ho => ?_⟩
  rw [ho] at hkept
  exact Option.some.inj hkept

end Results

end NamespaceMigration.Migration
