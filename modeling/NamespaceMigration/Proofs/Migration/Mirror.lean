import Mathlib.Data.Set.Card
import NamespaceMigration.Proofs.Archive.CachedExtent
import NamespaceMigration.Proofs.Files.Laying
import NamespaceMigration.Proofs.Files.Walk
import NamespaceMigration.Proofs.Migration.Stages
import NamespaceMigration.Zip.Format

namespace NamespaceMigration

open FileTree CacheLayout Steps

section Trees

variable {dest p q : Place} {W : Set Place} {t t' : FileTree} {content : Bytes}

lemma below_or_above (hp : Below dest p) (hq : q <+: p) : Below dest q ∨ q <+: dest := by
  rcases List.prefix_or_prefix_of_prefix hp.1 hq with h | h
  · by_cases he : q = dest
    · exact .inr (he ▸ List.prefix_rfl)
    · exact .inl ⟨h, he⟩
  · exact .inr h

lemma find?_below_eq_none (h : ∀ q ∈ t.nodes.map Prod.fst, dest <+: q → q = dest) (p : Place)
    (hp : Below dest p) : t.find? p = none := by
  by_contra hne
  exact hp.2 (h p (mem_of_find?_ne_none hp.ne_nil hne) hp.1)

structure Mirrors (dest : Place) (W : Set Place) (t : FileTree) : Prop where
  reaches : t.Reaches dest
  only : ∀ p n, Below dest p → t.find? p = some n → n = .directory ∨ n.isFile = true ∧ p ∈ W
  holds : ∀ p ∈ W, Below dest p ∧ ∃ content, t.read p = .ok content

namespace Mirrors

variable (h : Mirrors dest W t)
include h

lemma plain (hp : Below dest p) : t.Plain p := by
  intro q target hq hlink
  rcases below_or_above hp hq with hq | hq
  · rcases h.only q _ hq hlink with hn | ⟨hn, -⟩ <;> cases hn
  · rw [h.reaches q hq] at hlink
    cases hlink

lemma of_agree (ht : ∀ q, Below dest q ∨ q <+: dest → t'.find? q = t.find? q) : Mirrors dest W t' where
  reaches q hq := (ht q (.inr hq)).trans (h.reaches q hq)
  only p n hp hn := h.only p n hp ((ht p (.inl hp)).symm.trans hn)
  holds p hp := by
    obtain ⟨hbelow, content, hread⟩ := h.holds p hp
    obtain ⟨hreach, hfile⟩ := read_eq_ok_iff.1 hread
    refine ⟨hbelow, content, read_eq_ok_iff.2 ⟨fun q hq => ?_, (ht p (.inl hbelow)).trans hfile⟩⟩
    rw [ht q (below_or_above hbelow (hq.trans (List.dropLast_prefix p))), hreach q hq]

lemma of_extends (ht : t.Extends t') : Mirrors dest W t' where
  reaches := ht.reaches h.reaches
  only p n hp hn := by
    rcases ht.made p n hn with hn | hn
    · exact h.only p n hp hn
    · exact .inl hn
  holds p hp := by
    obtain ⟨hbelow, content, hread⟩ := h.holds p hp
    obtain ⟨hreach, hfile⟩ := read_eq_ok_iff.1 hread
    exact ⟨hbelow, content, read_eq_ok_iff.2 ⟨ht.reaches hreach, ht.kept p _ hfile⟩⟩

lemma fill (hp : Below dest p) (hr : t.Reaches p.dropLast) (hd : t.find? p ≠ some .directory) :
    Mirrors dest (insert p W) (t.fill p content) := by
  refine ⟨h.reaches.fill hp.ne_nil hd, fun q n hq hn => ?_, ?_⟩
  · rw [find?_fill hp.ne_nil] at hn
    split_ifs at hn with hsame
    · obtain rfl := Option.some.inj hn
      refine .inr ⟨rfl, ?_⟩
      -- another name of the file is one of those that were written before
      rcases isSame_iff.1 hsame with rfl | ⟨-, hfile, -⟩
      · exact .inl rfl
      · obtain ⟨old, hold⟩ := isFile_iff.1 hfile
        exact .inr ((h.only q _ hq hold).resolve_left (by simp)).2
    · exact (h.only q n hq hn).imp_right fun ⟨hf, hw⟩ => ⟨hf, .inr hw⟩
  · rintro q (rfl | hq)
    · exact ⟨hp, content, read_eq_ok_iff.2 ⟨hr.fill hp.ne_nil hd, find?_fill_self hp.ne_nil⟩⟩
    · obtain ⟨hbelow, old, hread⟩ := h.holds q hq
      obtain ⟨hreach, hfile⟩ := read_eq_ok_iff.1 hread
      have hnew : (t.fill p content).isFile q = true := by rw [isFile_fill hp.ne_nil, isFile_iff.2 ⟨old, hfile⟩, Bool.or_true]
      obtain ⟨new, hnew⟩ := isFile_iff.1 hnew
      exact ⟨hbelow, new, read_eq_ok_iff.2 ⟨hreach.fill hp.ne_nil hd, hnew⟩⟩

lemma setOf_read : {p | Below dest p ∧ ∃ content, t.read p = .ok content} = W := by
  ext p
  constructor
  · rintro ⟨hp, content, hread⟩
    rcases h.only p _ hp (read_eq_ok_iff.1 hread).2 with hn | ⟨-, hw⟩
    · cases hn
    · exact hw
  · exact h.holds p

end Mirrors

end Trees

namespace Workspace

variable {w u : Workspace} {dest p : Place} {W W' : Set Place} {ε α : Type}

structure Confined (w u : Workspace) : Prop where
  cache : ∀ c, u.cache = some c → ∃ c', w.cache = some c' ∧ c.root = c'.root
  files : w.files.Spares (fun p => ∃ c, w.cache = some c ∧ Below c.root p) u.files

lemma Confined.refl (w : Workspace) : w.Confined w := ⟨fun c hc => ⟨c, hc, rfl⟩, .refl _⟩

lemma ensures_onCache {missing : Except ε α} {x : EStateM ε CacheSession α}
    (hx : ∀ c, w.cache = some c → Keeps (CacheSession.Within (Below c.root) ⟨c, w.files⟩) x) :
    Ensures w (onCache missing x) (fun _ u => w.Confined u) fun _ u => w.Confined u := by
  obtain ⟨files, cache⟩ := w
  cases cache with
  | none =>
    cases missing with
    | ok a => exact .refl _
    | error e => exact .refl _
  | some c =>
    have hconfined : ∀ s : CacheSession, CacheSession.Within (Below c.root) ⟨c, files⟩ s →
        Confined ⟨files, some c⟩ ⟨s.files, some s.cache⟩ := by
      intro s hs
      refine ⟨fun c' hc' => ⟨c, rfl, ?_⟩, hs.files.mono fun p hp => ⟨c, rfl, hp⟩⟩
      obtain rfl := Option.some.inj hc'
      exact hs.root
    rw [Ensures, EStateM.run, onCache.eq_def]
    dsimp only
    rcases (hx c rfl ⟨c, files⟩ (.refl _)).cases with ⟨a, s, hrun, hs⟩ | ⟨e, s, hrun, hs⟩
    · rw [hrun]
      exact hconfined s hs
    · rw [hrun]
      exact hconfined s hs

def Apart (dest : Place) (w : Workspace) : Prop :=
  ∀ c, w.cache = some c → w.files.Reaches c.root ∧ ¬ c.root <+: dest ∧ ¬ dest <+: c.root

structure Mirrors (dest : Place) (W : Set Place) (w : Workspace) : Prop where
  files : NamespaceMigration.Mirrors dest W w.files
  apart : w.Apart dest

namespace Mirrors

lemma confined (h : w.Mirrors dest W) (hu : w.Confined u) : u.Mirrors dest W where
  files := by
    refine h.files.of_agree fun q hq => hu.files q ?_
    rintro ⟨c, hc, hbelow⟩
    obtain ⟨-, haround, hwithin⟩ := h.apart c hc
    rcases hq with hq | hq
    · rcases List.prefix_or_prefix_of_prefix hbelow.1 hq.1 with hp | hp
      · exact haround hp
      · exact hwithin hp
    · exact haround (hbelow.1.trans hq)
  apart c hc := by
    obtain ⟨c', hc', hroot⟩ := hu.cache c hc
    rw [hroot]
    obtain ⟨hreach, hapart⟩ := h.apart c' hc'
    refine ⟨hu.files.reaches (fun q hq => ?_) hreach, hapart⟩
    rintro ⟨c'', hc'', hbelow⟩
    obtain rfl := Option.some.inj (hc''.symm.trans hc')
    exact not_below_above hq hbelow

lemma withFiles {t : FileTree} (h : w.Mirrors dest W) (ht : NamespaceMigration.Mirrors dest W' t)
    (hcache : ∀ q, w.files.find? q = some .directory → ¬ dest <+: q → t.find? q = some .directory) :
    Mirrors dest W' { w with files := t } where
  files := ht
  apart c hc := by
    obtain ⟨hreach, haround, hwithin⟩ := h.apart c hc
    exact ⟨fun q hq => hcache q (hreach q hq) fun hd => hwithin (hd.trans hq), haround, hwithin⟩

lemma fill (h : w.Mirrors dest W) (hp : Below dest p) (hr : w.files.Reaches p.dropLast)
    (hd : w.files.find? p ≠ some .directory) (content : Bytes) :
    Mirrors dest (insert p W) { w with files := w.files.fill p content } :=
  h.withFiles (h.files.fill hp hr hd) fun _ hq _ => find?_fill_of_directory hp.ne_nil hd hq

lemma fill_of_mem (h : w.Mirrors dest W) (hp : p ∈ W) (content : Bytes) :
    Mirrors dest W { w with files := w.files.fill p content } := by
  obtain ⟨hbelow, old, hread⟩ := h.files.holds p hp
  obtain ⟨hreach, hfile⟩ := read_eq_ok_iff.1 hread
  have hfill := h.fill hbelow hreach (by simp [hfile]) content
  rwa [Set.insert_eq_of_mem hp] at hfill

lemma of_extends {t : FileTree} (h : w.Mirrors dest W) (ht : w.files.Extends t) : Mirrors dest W { w with files := t } :=
  h.withFiles (h.files.of_extends ht) fun q hq _ => ht.kept q _ hq

end Mirrors

end Workspace

namespace Migration

variable {m : Migration} {w : Workspace} {dest source p : Place} {W : Set Place} {path : RawText}

lemma ensures_convert (h : w.Mirrors dest W) (path : RawText) (name : String) (content : Bytes) :
    Ensures w (m.convert path name content) (fun _ u => u.Mirrors dest W) fun _ _ => True := by
  refine ensures_adaptExcept.2 ((Workspace.ensures_onCache fun c hc => ?_).mono (fun _ u hu => h.confined hu) fun _ _ _ => trivial)
  exact Migrator.within_migrateCached (s := ⟨c, w.files⟩) (h.apart c hc).1 m.migrator m.today name content

lemma ensures_makeDirectories (h : w.Mirrors dest W) (path : RawText) :
    Ensures w (m.makeDirectories path) (fun _ u => u.Mirrors dest W) fun _ _ => True := by
  refine ensures_bind.2 ((ensures_onFiles _ _ w).mono ?_ fun _ _ _ => trivial)
  rintro t _ ⟨ht, rfl⟩
  exact h.of_extends (makeDirectoriesAt_eq_ok ht)

section Files

variable (h : w.Mirrors dest W) (hpath : Path.Spells path p) (hnames : ∀ name ∈ p, Path.IsName name) (hp : Below dest p)
include h

lemma ensures_rewrite (hp : p ∈ W) (source : RawText) (name : String) (content : Bytes) :
    Ensures w (do
      let o ← m.convert source name content
      putFile p o.bytes
      return o.changed) (fun _ u => u.Mirrors dest W) fun _ _ => True := by
  refine ensures_bind.2 ((ensures_convert h source name content).mono ?_ fun _ _ h => h)
  exact fun o u hu => hu.fill_of_mem hp o.bytes

include hpath hnames hp

lemma ensures_migrateFile (l : Place) :
    Ensures w (m.migrateFile (.ofPlace l) (.ofPath m.cwd path)) (fun _ u => u.Mirrors dest (insert p W)) fun _ _ => True := by
  have hplain := h.files.plain hp
  refine ensures_bind.2 ((ensures_onFiles _ _ w).mono ?_ fun _ _ _ => trivial)
  rintro ⟨place, content⟩ w ⟨hcontent, rfl⟩
  refine ensures_get_bind.2 ?_
  dsimp only
  split_ifs with hsame
  · -- the file is to be migrated onto itself, so it is one of those migrated before
    have hmem : place = p ∧ p ∈ W := by
      split at hsame
      next q n hnode =>
        obtain ⟨rfl, -, -⟩ := of_resolve_spelled hpath hnames hplain hnode
        obtain rfl := beq_iff_eq.1 hsame
        rcases h.files.only _ _ hp (find?_of_content hcontent) with hn | ⟨-, hw⟩
        · cases hn
        · exact ⟨rfl, hw⟩
      next => cases hsame
    obtain ⟨rfl, hmem⟩ := hmem
    rw [Set.insert_eq_of_mem hmem]
    exact ensures_rewrite h hmem _ _ content
  · refine ensures_bind.2 ((ensures_onFiles _ _ w).mono ?_ fun _ _ _ => trivial)
    rintro target w ⟨houtput, rfl⟩
    obtain ⟨rfl, hr, hd⟩ := of_resolveOutput_spelled hpath hnames hplain hp.ne_nil houtput
    refine ensures_modify_bind.2 (ensures_get_bind.2 ?_)
    exact ensures_rewrite (h.fill hp hr hd []) (Set.mem_insert _ W) _ _ _

end Files

variable {r : Report} {e : WalkEntry} {entries : List WalkEntry}

def filePaths (entries : List WalkEntry) : List (List RawText) := (entries.filter fun e => !e.isDirectory).map (·.path)

section Trees

variable (hp : m.migrator.profile.SparesNames) (hdest : ∀ name ∈ dest, Path.IsName name)
include hp hdest

lemma ensures_migrateEntry (h : w.Mirrors dest W) (hnames : ∀ name ∈ e.path, Path.IsName name) (hne : e.path ≠ [])
    (r : Report) :
    Ensures w (m.migrateEntry source dest r e) (fun r' u => r'.files = r.files + (filePaths [e]).length ∧
      u.Mirrors dest (W ∪ (fun path => dest ++ m.renamed path) '' {path | path ∈ filePaths [e]})) fun _ _ => True := by
  have hpath := spells_targetPath hp hnames hdest
  have hplace : ∀ name ∈ dest ++ m.renamed e.path, Path.IsName name :=
    List.forall_mem_append.2 ⟨hdest, isName_of_mem_renamed hp hnames⟩
  have hbelow : Below dest (dest ++ m.renamed e.path) := below_append (by simpa [renamed] using hne)
  rw [migrateEntry]
  by_cases hd : e.isDirectory = true
  · have hnone : filePaths [e] = [] := by simp [filePaths, hd]
    rw [if_pos hd, hnone]
    refine ensures_bind.2 ((ensures_makeDirectories h _).mono ?_ fun _ _ h => h)
    exact fun _ u hu => ⟨rfl, by simpa using hu⟩
  · have hsome : filePaths [e] = [e.path] := by simp [filePaths, hd]
    rw [if_neg hd, hsome]
    refine ensures_bind.2 ((ensures_migrateFile h hpath hplace hbelow _).mono ?_ fun _ _ h => h)
    exact fun changed u hu => ⟨rfl, by simpa using hu⟩

lemma ensures_migrateEntries (h : w.Mirrors dest W) (hnames : ∀ e ∈ entries, ∀ name ∈ e.path, Path.IsName name)
    (hne : ∀ e ∈ entries, e.path ≠ []) (r : Report) :
    Ensures w (entries.foldlM (m.migrateEntry source dest) r) (fun r' u => r'.files = r.files + (filePaths entries).length ∧
      u.Mirrors dest (W ∪ (fun path => dest ++ m.renamed path) '' {path | path ∈ filePaths entries})) fun _ _ => True := by
  -- `W` has the places of the files that the entries so far were migrated to
  induction entries generalizing w W r with
  | nil => exact ⟨rfl, by simpa [filePaths] using h⟩
  | cons e entries ih =>
    rw [List.foldlM_cons]
    refine ensures_bind.2 ((ensures_migrateEntry hp hdest h (hnames e (by simp)) (hne e (by simp)) r).mono ?_ fun _ _ h => h)
    rintro r' u ⟨hr, hu⟩
    refine (ih hu (fun f hf => hnames f (by simp [hf])) (fun f hf => hne f (by simp [hf])) r').mono ?_ fun _ _ h => h
    rintro r'' v ⟨hr', hv⟩
    have hpaths : filePaths (e :: entries) = filePaths [e] ++ filePaths entries := by
      rw [filePaths, filePaths, filePaths, ← List.map_append, ← List.filter_append, List.singleton_append]
    have hunion : W ∪ (fun path => dest ++ m.renamed path) '' {path | path ∈ filePaths (e :: entries)} =
        W ∪ (fun path => dest ++ m.renamed path) '' {path | path ∈ filePaths [e]} ∪
          (fun path => dest ++ m.renamed path) '' {path | path ∈ filePaths entries} := by
      rw [Set.union_assoc, ← Set.image_union, hpaths]
      simp only [List.mem_append, Set.ofPred_or]
    rw [hunion]
    refine ⟨?_, hv⟩
    rw [hr', hr, hpaths, List.length_append, Nat.add_assoc]

end Trees

lemma ensures_tidyCache (h : w.Mirrors dest W) : Ensures w m.tidyCache (fun _ u => u.Mirrors dest W) fun _ _ => True := by
  have hprune : Ensures w (Workspace.prune m.today) (fun _ u => u.Mirrors dest W) fun _ u => u.Mirrors dest W := by
    refine (Workspace.ensures_onCache fun c hc => ?_).mono (fun _ u hu => h.confined hu) fun _ u hu => h.confined hu
    intro s hs
    have hs' : s.files.Reaches s.cache.root := hs.reaches (fun _ hp => hp) (h.apart c hc).1
    have hwithin : ∀ u, s.Within (s.Tends none) u → CacheSession.Within (Below c.root) ⟨c, w.files⟩ u := by
      intro u hu
      refine hs.trans (hu.mono fun p hp => ?_)
      have hbelow := hp.below fun q hq => nomatch hq
      rwa [hs.root] at hbelow
    exact (Cache.within_prune hs' m.today s (.refl s)).mono (fun _ u hu => hwithin u hu) fun _ u hu => hwithin u hu
  refine ensures_get_bind.2 ?_
  split_ifs
  · refine ensures_tryCatch.2 ?_
    rw [map_eq_pure_bind]
    exact ensures_bind.2 (ensures_adaptExcept.2 (hprune.mono (fun _ _ hu => hu) fun _ _ hu => hu))
  · exact h

section Whole

variable (hsource : w.files.resolve m.cwd m.source = .ok (source, .directory))
  (hdest : w.files.resolve m.cwd m.destination = .ok (dest, .directory)) (houtside : ¬ source <+: dest)
include hsource hdest houtside

lemma run_perform :
    m.perform.run w = match w.files.walkEntries source with
      | .error fault => .error (.walk fault) w
      | .ok entries => (do
          let r ← entries.foldlM (m.migrateEntry source dest) (.start m.source m.destination m.migrator.profile.name)
          return { r with cache := ← m.tidyCache } : MigrationM Report).run w := by
  have hall : ∀ entries, selected source dest entries = entries := by
    intro entries
    rw [selected, if_neg]
    rw [Bool.and_eq_true, List.isPrefixOf_iff_prefix]
    exact fun h => houtside h.2
  refine (run_perform_of_made hsource (makeDirectoriesAt_of_resolve hdest) hsource hdest).trans ?_
  cases w.files.walkEntries source with
  | error fault => rfl
  | ok entries =>
    dsimp only
    rw [hall]

variable (hp : m.migrator.profile.SparesNames) (hwell : w.files.WellFormed) (hcwd : w.files.Reaches m.cwd)
  (hempty : ∀ p, Below dest p → w.files.find? p = none) (hapart : w.Apart dest)
include hp hwell hcwd hempty hapart

lemma ensures_perform :
    Ensures w m.perform (fun r u => ∃ entries, w.files.walkEntries source = .ok entries ∧
      r.files = (filePaths entries).length ∧
      u.Mirrors dest ((fun path => dest ++ m.renamed path) '' {path | path ∈ filePaths entries})) fun _ _ => True := by
  have hreach : w.files.Reaches dest := reaches_of_resolve hcwd hdest
  have hnames : ∀ name ∈ dest, Path.IsName name := by
    by_cases hnil : dest = []
    · simp [hnil]
    · refine hwell.names dest (mem_of_find?_ne_none hnil ?_)
      simp [hreach dest List.prefix_rfl]
  have hmirrors : w.Mirrors dest ∅ := by
    refine ⟨⟨hreach, fun p n hp hn => ?_, by simp⟩, hapart⟩
    rw [hempty p hp] at hn
    cases hn
  rw [Ensures, run_perform hsource hdest houtside]
  cases hwalk : w.files.walkEntries source with
  | error fault => trivial
  | ok entries =>
    have hlisted := listed_walkEntries hwell hwalk
    refine ensures_bind.2 ((ensures_migrateEntries hp hnames hmirrors hlisted.names hlisted.below _).mono ?_ fun _ _ h => h)
    rintro r u ⟨hr, hu⟩
    rw [Set.empty_union] at hu
    refine ensures_bind.2 ((ensures_tidyCache hu).mono ?_ fun _ _ h => h)
    exact fun cache v hv => ⟨entries, rfl, by simpa [Report.start] using hr, hv⟩

end Whole

section Results

variable {w' : Workspace} {r : Report} {b : BuiltIn}

def filesBelow (dest : Place) (t : FileTree) : Set Place := {p | Below dest p ∧ ∃ content, t.read p = .ok content}

/-- A migration that ends well leaves a file at each migrated path of a file and no others, so that there are as many as it
reports just if no two paths are migrated to one. The destination is an empty directory, outside the source and apart from
the cache. -/
theorem ncard_filesBelow_eq_iff (hb : m.migrator.profile = b.profile) (hwell : w.files.WellFormed)
    (hsource : w.files.resolve m.cwd m.source = .ok (source, .directory))
    (hdest : w.files.resolve m.cwd m.destination = .ok (dest, .directory)) (hcwd : w.files.Reaches m.cwd)
    (hempty : ∀ p, Below dest p → w.files.find? p = none) (houtside : ¬ source <+: dest) (hapart : w.Apart dest)
    (h : m.perform.run w = .ok r w') :
    ∃ entries, w.files.walkEntries source = .ok entries ∧ (filePaths entries).Nodup ∧ r.files = (filePaths entries).length ∧
      filesBelow dest w'.files = (fun path => dest ++ m.renamed path) '' {path | path ∈ filePaths entries} ∧
      ((filesBelow dest w'.files).ncard = r.files ↔ Set.InjOn m.renamed {path | path ∈ filePaths entries}) := by
  have hensures := ensures_perform hsource hdest houtside (hb ▸ Profile.sparesNames_builtIn b) hwell hcwd hempty hapart
  rw [Ensures, h] at hensures
  obtain ⟨entries, hwalk, hr, hw⟩ := hensures
  have hnodup : (filePaths entries).Nodup := (listed_walkEntries hwell hwalk).nodup.sublist (List.filter_sublist.map _)
  have hheld : filesBelow dest w'.files = _ := hw.files.setOf_read
  have hcount : {path | path ∈ filePaths entries}.ncard = r.files := by
    rw [hr, ← List.toFinset_card_of_nodup hnodup, ← List.coe_toFinset, Set.ncard_coe_finset]
  have hinj : Set.InjOn (fun path => dest ++ m.renamed path) {path | path ∈ filePaths entries} ↔
      Set.InjOn m.renamed {path | path ∈ filePaths entries} :=
    ⟨fun h p hp q hq he => h hp hq (congrArg (dest ++ ·) he), fun h p hp q hq he => h hp hq (List.append_cancel_left he)⟩
  refine ⟨entries, hwalk, hnodup, hr, hheld, ?_⟩
  rw [hheld, ← hcount, Set.ncard_image_iff (List.finite_toSet _), hinj]

theorem ncard_filesBelow_of_two_files :
    let t : FileTree := ⟨[(["out"], .directory), (["src"], .directory), (["src", "a.txt"], .file [0x62]),
      (["src", "javax.servlet.A"], .file [0x61])], []⟩
    let m : Migration := ⟨.forZip BuiltIn.tomcat.profile, "src", "out", [], ⟨2024, 1, 1⟩⟩
    ∃ r w, m.perform.run ⟨t, none⟩ = .ok r w ∧ r.files = 2 ∧ (filesBelow ["out"] w.files).ncard = 2 := by
  intro t m
  have hwalk : t.walkEntries ["src"] = .ok [⟨["a.txt"], false⟩, ⟨["javax.servlet.A"], false⟩] :=
    walkEntries_of_files ["a.txt", "javax.servlet.A"] (by decide) (by decide) (by decide +kernel)
  have hsource : t.resolve [] "src" = .ok (["src"], .directory) := eq_ok_of_toOption_eq_some (by decide +kernel)
  have hdest : t.resolve [] "out" = .ok (["out"], .directory) := eq_ok_of_toOption_eq_some (by decide +kernel)
  have houtside : ¬ (["src"] : Place) <+: ["out"] := by decide
  have hrun := @run_perform m ⟨t, none⟩ ["out"] ["src"] hsource hdest houtside
  have hok : (answer (m.perform.run ⟨t, none⟩)).toOption.map (·.files) = some 2 := by
    rw [hrun, hwalk]
    decide +kernel
  obtain ⟨r, hperform, hfiles⟩ := exists_eq_ok hok
  refine ⟨r, _, hperform, hfiles, ?_⟩
  have hempty : ∀ p, Below ["out"] p → t.find? p = none := find?_below_eq_none (by decide)
  obtain ⟨entries, hwalk', -, -, -, hiff⟩ := ncard_filesBelow_eq_iff (b := .tomcat) rfl ⟨by decide, by decide⟩ hsource hdest
    (reaches_nil t) hempty houtside (fun c hc => by cases hc) hperform
  obtain rfl := Except.ok.inj (hwalk.symm.trans hwalk')
  have hinj : ∀ p ∈ filePaths [⟨["a.txt"], false⟩, ⟨["javax.servlet.A"], false⟩],
      ∀ q ∈ filePaths [⟨["a.txt"], false⟩, ⟨["javax.servlet.A"], false⟩], m.renamed p = m.renamed q → p = q := by
    decide +kernel
  exact (hiff.2 fun p hp q hq he => hinj p hp q hq he).trans hfiles

/-- A tree in which a name is migrated to another one that is there, whose file is then lost. -/
theorem perform_overwrites :
    let t : FileTree := ⟨[(["out"], .directory), (["src"], .directory), (["src", "jakarta.servlet.A"], .file [0x62]),
      (["src", "javax.servlet.A"], .file [0x61])], []⟩
    let m : Migration := ⟨.forZip BuiltIn.tomcat.profile, "src", "out", [], ⟨2024, 1, 1⟩⟩
    ∃ r w, m.perform.run ⟨t, none⟩ = .ok r w ∧ r.files = 2 ∧ filesBelow ["out"] w.files = {(["out", "jakarta.servlet.A"] : Place)} ∧
      (filesBelow ["out"] w.files).ncard = 1 := by
  intro t m
  have hwalk : t.walkEntries ["src"] = .ok [⟨["jakarta.servlet.A"], false⟩, ⟨["javax.servlet.A"], false⟩] :=
    walkEntries_of_files ["jakarta.servlet.A", "javax.servlet.A"] (by decide) (by decide) (by decide +kernel)
  have hsource : t.resolve [] "src" = .ok (["src"], .directory) := eq_ok_of_toOption_eq_some (by decide +kernel)
  have hdest : t.resolve [] "out" = .ok (["out"], .directory) := eq_ok_of_toOption_eq_some (by decide +kernel)
  have houtside : ¬ (["src"] : Place) <+: ["out"] := by decide
  have hrun := @run_perform m ⟨t, none⟩ ["out"] ["src"] hsource hdest houtside
  have hok : (answer (m.perform.run ⟨t, none⟩)).toOption.map (·.files) = some 2 := by
    rw [hrun, hwalk]
    decide +kernel
  obtain ⟨r, hperform, hfiles⟩ := exists_eq_ok hok
  have hempty : ∀ p, Below ["out"] p → t.find? p = none := find?_below_eq_none (by decide)
  have hensures := @ensures_perform m ⟨t, none⟩ ["out"] ["src"] hsource hdest houtside (Profile.sparesNames_builtIn .tomcat)
    ⟨by decide, by decide⟩ (reaches_nil t) hempty fun c hc => by cases hc
  rw [Ensures, hperform] at hensures
  obtain ⟨entries, hwalk', -, hw⟩ := hensures
  obtain rfl := Except.ok.inj (hwalk.symm.trans hwalk')
  have hrenamed : (filePaths [⟨["jakarta.servlet.A"], false⟩, ⟨["javax.servlet.A"], false⟩]).map
      (fun path => (["out"] : Place) ++ m.renamed path) = List.replicate 2 (["out", "jakarta.servlet.A"] : Place) := by
    decide +kernel
  have hheld : filesBelow ["out"] (after (m.perform.run ⟨t, none⟩)).files = {(["out", "jakarta.servlet.A"] : Place)} := by
    refine hw.files.setOf_read.trans (Set.ext fun p => List.mem_map.symm.trans ?_)
    rw [hrenamed]
    simp
  exact ⟨r, _, hperform, hfiles, hheld, by rw [hheld, Set.ncard_singleton]⟩

end Results

end Migration

end NamespaceMigration
