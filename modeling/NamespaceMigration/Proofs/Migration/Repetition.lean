import Mathlib.Data.Set.Card
import NamespaceMigration.Proofs.Migration.Copying
import NamespaceMigration.Zip.Format

/-! A migration of a directory into another one that is not around it. -/

namespace NamespaceMigration.Migration

open FileTree Steps

variable {m : Migration} {t u v : FileTree} {source dest p q : Place} {path : List RawText} {content : Bytes} {e : WalkEntry}
  {entries : List WalkEntry} {n : Node} {r r' : Report} {w w' : Workspace}

def Sources (source dest : Place) (t : FileTree) (path : List RawText) : Prop :=
  ¬ dest <+: source ++ path ∧ t.find? (source ++ path) ≠ none

/-- Whether the destination of a directory is a directory not around it, with no links below the one and on the way to a
migrated path in the other, where no file has another name, and whether all migrated names are names. -/
structure Separate (m : Migration) (source dest : Place) (t : FileTree) : Prop where
  cwd : t.Reaches m.cwd
  hasSource : t.resolve m.cwd m.source = .ok (source, .directory)
  hasDest : t.resolve m.cwd m.destination = .ok (dest, .directory)
  apart : ¬ dest <+: source
  unlinked : ∀ q aim, source <+: q → t.find? q ≠ some (.link aim)
  renamed : ∀ path, Sources source dest t path → ∀ name ∈ m.renamed path, Path.IsName name
  plain : ∀ path, Sources source dest t path → t.Plain (dest ++ m.renamed path)
  alone : ∀ path, Sources source dest t path → t.Alone (dest ++ m.renamed path)

/-- What a migration of a directory leaves: the files outside the destination, and the migrated directories and files in it. -/
structure Copies (m : Migration) (source dest : Place) (t : FileTree) (r : Report) (u : FileTree) : Prop where
  kept : ∀ q content, ¬ dest <+: q → (u.find? q = some (.file content) ↔ t.find? q = some (.file content))
  directories : ∀ path, ¬ dest <+: source ++ path → t.find? (source ++ path) = some .directory →
    u.Reaches (dest ++ m.renamed path)
  contents : ∀ path content, ¬ dest <+: source ++ path → t.find? (source ++ path) = some (.file content) →
    (∀ other, ¬ dest <+: source ++ other → t.isFile (source ++ other) = true → m.renamed other = m.renamed path → other = path) →
    ∃ o, m.migrator.migrate (lastName path) content = .ok o ∧ u.read (dest ++ m.renamed path) = .ok o.bytes
  files : r.files = {path | ¬ dest <+: source ++ path ∧ t.isFile (source ++ path) = true}.ncard
  convertedFiles : r.convertedFiles = {path | ¬ dest <+: source ++ path ∧ ∃ content o,
    t.find? (source ++ path) = some (.file content) ∧ m.migrator.migrate (lastName path) content = .ok o ∧
      o.changed = true}.ncard
  converted : r.converted = true ↔ 0 < r.convertedFiles

def summary (m : Migration) (t : FileTree) (source : Place) (entries : List WalkEntry) : Report :=
  { entries.foldl (m.tally t source) (.start m.source m.destination m.migrator.profile.name) with cache := none }

lemma selected_eq (h : ¬ dest <+: source) : selected source dest entries = outside source dest entries := by
  rw [selected, outside]
  split_ifs with hnested
  · rfl
  · have hnot : ¬ source <+: dest := by
      intro habove
      refine hnested (Bool.and_eq_true_iff.2 ⟨bne_iff_ne.2 ?_, List.isPrefixOf_iff_prefix.2 habove⟩)
      rintro rfl
      exact h List.prefix_rfl
    symm
    rw [List.filter_eq_self]
    intro e _
    rw [Bool.not_eq_true', ← Bool.not_eq_true, List.isPrefixOf_iff_prefix]
    intro habove
    rcases List.prefix_or_prefix_of_prefix habove (List.prefix_append source e.path) with hd | hs
    · exact h hd
    · exact hnot hs

lemma resolve_of_perform (h : m.perform.run w = .ok r w') : ∃ p n, w.files.resolve m.cwd m.source = .ok (p, n) := by
  obtain ⟨⟨p, n⟩, _, hrun, -⟩ := run_bind_eq_ok_iff.1 h
  exact ⟨p, n, (run_onFiles_eq_ok_iff.1 hrun).1⟩

section Running

variable (hsep : m.Separate source dest t) (hrooted : t.Rooted)
include hsep hrooted

lemma Separate.exists_listing : ∃ entries, t.walkEntries source = .ok entries ∧
    Listing t source dest [] (t.names source) (outside source dest entries) :=
  exists_walkEntries hrooted hsep.unlinked (reaches_of_resolve hsep.cwd hsep.hasSource)

variable (hlisting : Listing t source dest [] (t.names source) entries)
include hlisting

omit hsep in
lemma mem_entries_iff : e ∈ entries ↔ e.path ≠ [] ∧ ¬ dest <+: source ++ e.path ∧
    ∃ n, t.find? (source ++ e.path) = some n ∧ e.isDirectory = n.isDirectory := by
  rw [hlisting.mem_iff hrooted]
  constructor
  · rintro ⟨name, -, habove, hrest⟩
    refine ⟨?_, hrest⟩
    intro hnil
    rw [hnil] at habove
    simp at habove
  · rintro ⟨hne, hout, n, hn, hkind⟩
    obtain ⟨name, rest, hpath⟩ := List.exists_cons_of_ne_nil hne
    refine ⟨name, mem_names_iff.2 fun hnone => ?_, ⟨rest, by rw [hpath]; rfl⟩, hout, n, hn, hkind⟩
    have habove : source ++ [name] <+: source ++ e.path := ⟨rest, by rw [hpath]; simp⟩
    rw [hrooted.find?_eq_none hnone habove] at hn
    cases hn

lemma Separate.movable (he : e ∈ entries) : m.Movable t source dest e := by
  obtain ⟨hne, hout, n, hn, hkind⟩ := (mem_entries_iff hrooted hlisting).1 he
  have hsome : t.find? (source ++ e.path) ≠ none := hn ▸ Option.some_ne_none n
  exact ⟨hne, fun name hname => hrooted.isName hsome name (by simp [hname]), hsep.renamed _ ⟨hout, hsome⟩, hout,
    ⟨n, hn, hkind⟩, fun aim => hsep.unlinked _ aim (List.prefix_append _ _),
    fun aim => hsep.plain _ ⟨hout, hsome⟩ _ aim List.prefix_rfl, hsep.alone _ ⟨hout, hsome⟩⟩

lemma Separate.file_mem_iff : (⟨path, false⟩ : WalkEntry) ∈ entries ↔
    ¬ dest <+: source ++ path ∧ ∃ content, t.find? (source ++ path) = some (.file content) := by
  constructor
  · intro he
    have hmovable := hsep.movable hrooted hlisting he
    exact ⟨hmovable.outside, hmovable.exists_content rfl⟩
  · rintro ⟨hout, content, hn⟩
    refine (mem_entries_iff hrooted hlisting).2 ⟨?_, hout, _, hn, rfl⟩
    rintro rfl
    rw [List.append_nil, reaches_of_resolve hsep.cwd hsep.hasSource source List.prefix_rfl] at hn
    cases hn

omit hsep hrooted hlisting in
lemma aloneAll_plan (h : ∀ e ∈ entries, e.path ≠ [] ∧ u.Alone (dest ++ m.renamed e.path)) :
    u.AloneAll (m.plan t source dest entries) := by
  intro x hx
  obtain ⟨e, he, rfl⟩ := List.mem_map.1 hx
  exact ⟨List.append_ne_nil_of_right_ne_nil _ (by simpa [Migration.renamed] using (h e he).1), (h e he).2⟩

lemma Separate.aloneAll : t.AloneAll (m.plan t source dest entries) :=
  aloneAll_plan fun _ he => ⟨(hsep.movable hrooted hlisting he).ne_nil, (hsep.movable hrooted hlisting he).alone⟩

lemma Separate.find?_laid_of_outside (hq : dest <+: q → q = dest) :
    (t.laid (m.plan t source dest entries)).find? q = t.find? q := by
  refine find?_laid_of_notMem (hsep.aloneAll hrooted hlisting) ?_
  rintro x hx rfl
  obtain ⟨e, he, rfl⟩ := List.mem_map.1 hx
  have hnil : m.renamed e.path = [] := List.append_right_eq_self.1 (hq (List.prefix_append _ _))
  exact (hsep.movable hrooted hlisting he).ne_nil (List.map_eq_nil_iff.1 hnil)

lemma Separate.run_perform_eq_ok_iff (hcache : w.cache = none)
    (hsource : w.files.resolve m.cwd m.source = .ok (source, .directory))
    (hmade : w.files.makeDirectoriesAt m.cwd m.destination = .ok t) :
    m.perform.run w = .ok r w' ↔
      (∀ e ∈ entries, Path.Fits (dest ++ m.renamed e.path) ∧
          (e.isDirectory = false → (m.outcome? t source e).isSome = true)) ∧
        t.TakesAll (m.plan t source dest entries) ∧
          r = m.summary t source entries ∧
            w' = ⟨t.laid (m.plan t source dest entries), none⟩ := by
  obtain ⟨all, hwalk, hall⟩ := hsep.exists_listing hrooted
  obtain rfl := hlisting.eq hall hrooted.toWellFormed hrooted.toWellFormed fun _ _ => rfl
  have hdest := reaches_of_resolve hsep.cwd hsep.hasDest
  have hnames : ∀ name ∈ dest, Path.IsName name := hrooted.isName (by simp [hdest dest List.prefix_rfl])
  have hseen : ∀ path ∈ [([] : List RawText)], t.Reaches (dest ++ m.renamed path) := by simpa [Migration.renamed] using hdest
  have hfold := @run_migrateEntries_eq_ok_iff m t source dest (outside source dest all)
  have htidy : ∀ (r : Report) (files : FileTree),
      (do return { r with cache := ← m.tidyCache } : MigrationM Report).run ⟨files, none⟩ =
        .ok { r with cache := none } ⟨files, none⟩ := fun r files => run_bind_of_ok (run_tidyCache rfl)
  rw [run_perform_of_made hsource hmade hsep.hasSource hsep.hasDest, hwalk, hcache]
  dsimp only
  rw [selected_eq hsep.apart, run_bind_eq_ok_iff]
  constructor
  · rintro ⟨r₁, w₁, hrun, hend⟩
    obtain ⟨hfits, htakes, rfl, rfl⟩ :=
      (hfold hnames (hlisting.parentsFirst (by simp)) hrooted (fun e he => hsep.movable hrooted hlisting he) hseen).1 hrun
    cases (htidy _ _).symm.trans hend
    exact ⟨hfits, htakes, rfl, rfl⟩
  · rintro ⟨hfits, htakes, rfl, rfl⟩
    exact ⟨_, _, (hfold hnames (hlisting.parentsFirst (by simp)) hrooted (fun e he => hsep.movable hrooted hlisting he) hseen).2
      ⟨hfits, htakes, rfl, rfl⟩, htidy _ _⟩

lemma Separate.nodup_paths : (entries.map (·.path)).Nodup := by
  obtain ⟨all, hwalk, hall⟩ := hsep.exists_listing hrooted
  obtain rfl := hlisting.eq hall hrooted.toWellFormed hrooted.toWellFormed fun _ _ => rfl
  exact (listed_walkEntries hrooted.toWellFormed hwalk).nodup.sublist (List.filter_sublist.map _)

end Running

section Counting

lemma ncard_eq_countP {P : WalkEntry → Bool} {S : Set (List RawText)} (hnodup : (entries.map (·.path)).Nodup)
    (hS : ∀ path, path ∈ S ↔ ∃ e ∈ entries, P e = true ∧ e.path = path) : S.ncard = entries.countP P := by
  have hset : S = ↑((entries.filter P).map (·.path)).toFinset := by
    ext path
    simp [hS, and_assoc]
  rw [hset, Set.ncard_coe_finset, List.toFinset_card_of_nodup (hnodup.sublist (List.filter_sublist.map _)), List.length_map,
    List.countP_eq_length_filter]

lemma foldl_tally (m : Migration) (t : FileTree) (source : Place) (entries : List WalkEntry) (r : Report) :
    (entries.foldl (m.tally t source) r).files = r.files + entries.countP (fun e => !e.isDirectory) ∧
      (entries.foldl (m.tally t source) r).convertedFiles = r.convertedFiles +
        entries.countP fun e => !e.isDirectory && ((m.outcome? t source e).map (·.changed)).getD false := by
  induction entries generalizing r with
  | nil => exact ⟨rfl, rfl⟩
  | cons e entries ih =>
    obtain ⟨hfiles, hconverted⟩ := ih (m.tally t source r e)
    rw [List.foldl_cons, hfiles, hconverted, List.countP_cons, List.countP_cons, tally]
    cases e.isDirectory with
    | true => simp
    | false =>
      cases ((m.outcome? t source e).map (·.changed)).getD false <;> simp [Report.count, Nat.add_assoc, Nat.add_comm]

end Counting

section Results

variable (hsep : m.Separate source dest t) (hrooted : t.Rooted) (hlisting : Listing t source dest [] (t.names source) entries)
  (htakes : t.TakesAll (m.plan t source dest entries))
include hsep hrooted hlisting htakes

lemma Separate.settled (he : e ∈ entries) : (t.laid (m.plan t source dest entries)).Reaches (dest ++ m.renamed e.path).dropLast ∧
    ∃ n, (t.laid (m.plan t source dest entries)).find? (dest ++ m.renamed e.path) = some n ∧ n.isDirectory = e.isDirectory := by
  obtain ⟨hr, n, hn, hkind⟩ := htakes.settled (hsep.aloneAll hrooted hlisting) _ (List.mem_map_of_mem he)
  refine ⟨hr, n, hn, hkind.trans ?_⟩
  rw [image]
  cases e.isDirectory <;> rfl

lemma Separate.reaches_laid (hout : ¬ dest <+: source ++ path) (hn : t.find? (source ++ path) = some .directory) :
    (t.laid (m.plan t source dest entries)).Reaches (dest ++ m.renamed path) := by
  by_cases hnil : path = []
  · subst hnil
    rw [Migration.renamed, List.map_nil, List.append_nil]
    exact htakes.reaches (hsep.aloneAll hrooted hlisting) (reaches_of_resolve hsep.cwd hsep.hasDest)
  · have he : ⟨path, true⟩ ∈ entries := (mem_entries_iff hrooted hlisting).2 ⟨hnil, hout, _, hn, rfl⟩
    obtain ⟨hr, n, hn', hkind⟩ := hsep.settled hrooted hlisting htakes he
    refine (reaches_iff (hsep.aloneAll hrooted hlisting _ (List.mem_map_of_mem he)).1).2 ⟨hr, ?_⟩
    rw [hn', eq_directory_of_isDirectory hkind]

lemma Separate.exists_read_laid
    (hconverts : ∀ e ∈ entries, e.isDirectory = false → (m.outcome? t source e).isSome = true)
    (hout : ¬ dest <+: source ++ path) (hn : t.find? (source ++ path) = some (.file content))
    (hunique : ∀ other, ¬ dest <+: source ++ other → t.isFile (source ++ other) = true → m.renamed other = m.renamed path →
      other = path) :
    ∃ o, m.migrator.migrate (lastName path) content = .ok o ∧
      (t.laid (m.plan t source dest entries)).read (dest ++ m.renamed path) = .ok o.bytes := by
  have he : ⟨path, false⟩ ∈ entries := (hsep.file_mem_iff hrooted hlisting).2 ⟨hout, content, hn⟩
  obtain ⟨hr, n, hn', hkind⟩ := hsep.settled hrooted hlisting htakes he
  obtain ⟨o, ho⟩ := Option.isSome_iff_exists.1 (hconverts _ he rfl)
  have himage : m.image t source ⟨path, false⟩ = .file o.bytes := by
    rw [image, if_neg Bool.false_ne_true, ho]
    rfl
  refine ⟨o, ?_, read_eq_ok_iff.2 ⟨hr, ?_⟩⟩
  · rw [outcome?] at ho
    dsimp only at ho
    rw [hn] at ho
    exact eq_ok_of_toOption_eq_some ho
  · refine find?_laid_of_mem (hsep.aloneAll hrooted hlisting) (himage ▸ List.mem_map_of_mem he) ?_
    intro x hx hplace
    obtain ⟨f, hf, rfl⟩ := List.mem_map.1 hx
    -- an entry with the same migrated path is of the same kind, and so it is the same file
    obtain ⟨-, n', hn'', hkind'⟩ := hsep.settled hrooted hlisting htakes hf
    dsimp only at hplace
    rw [hplace, hn'] at hn''
    obtain rfl := Option.some.inj hn''
    obtain ⟨other, d⟩ := f
    obtain rfl : d = false := hkind'.symm.trans hkind
    obtain ⟨hout', hfile⟩ := (hsep.file_mem_iff hrooted hlisting).1 hf
    obtain rfl := hunique other hout' (isFile_iff.2 hfile) (List.append_cancel_left hplace)
    exact himage

lemma Separate.copies (hconverts : ∀ e ∈ entries, e.isDirectory = false → (m.outcome? t source e).isSome = true)
    (hr : r = m.summary t source entries) :
    m.Copies source dest t r (t.laid (m.plan t source dest entries)) := by
  obtain ⟨hfiles, hconverted⟩ := foldl_tally m t source entries (.start m.source m.destination m.migrator.profile.name)
  have hnodup := hsep.nodup_paths hrooted hlisting
  refine ⟨fun q content hq => ?_, fun path => hsep.reaches_laid hrooted hlisting htakes,
    fun path content => hsep.exists_read_laid hrooted hlisting htakes hconverts, ?_, ?_, ?_⟩
  · rw [hsep.find?_laid_of_outside hrooted hlisting fun h => absurd h hq]
  · rw [hr, summary, ncard_eq_countP hnodup (P := fun e => !e.isDirectory)]
    · simpa [Report.start] using hfiles
    · intro path
      rw [Set.mem_ofPred_eq, isFile_iff, ← hsep.file_mem_iff hrooted hlisting]
      refine ⟨fun he => ⟨_, he, rfl, rfl⟩, ?_⟩
      rintro ⟨⟨other, d⟩, he, hd, rfl⟩
      obtain rfl : d = false := by simpa using hd
      exact he
  · rw [hr, summary, ncard_eq_countP hnodup (P := fun e => !e.isDirectory && ((m.outcome? t source e).map (·.changed)).getD false)]
    · simpa [Report.start] using hconverted
    · intro path
      rw [Set.mem_ofPred_eq]
      constructor
      · rintro ⟨hout, content, o, hn, ho, hchanged⟩
        refine ⟨⟨path, false⟩, (hsep.file_mem_iff hrooted hlisting).2 ⟨hout, content, hn⟩, ?_, rfl⟩
        rw [outcome?, hn]
        dsimp only
        rw [ho]
        exact hchanged
      · rintro ⟨⟨other, d⟩, he, hd, rfl⟩
        obtain ⟨hfile, hchanged⟩ := Bool.and_eq_true_iff.1 hd
        obtain rfl : d = false := by simpa using hfile
        obtain ⟨hout, content, hn⟩ := (hsep.file_mem_iff hrooted hlisting).1 he
        obtain ⟨o, ho⟩ := Option.isSome_iff_exists.1 (hconverts _ he rfl)
        rw [ho] at hchanged
        refine ⟨hout, content, o, hn, ?_, hchanged⟩
        rw [outcome?, hn] at ho
        exact eq_ok_of_toOption_eq_some ho
  · rw [Report.converted, decide_eq_true_eq]

lemma Separate.run_perform_of_agree
    (hfits : ∀ e ∈ entries, Path.Fits (dest ++ m.renamed e.path) ∧
      (e.isDirectory = false → (m.outcome? t source e).isSome = true))
    (hr : r = m.summary t source entries)
    (hu : m.Separate source dest u) (hurooted : u.Rooted) (hagree : ∀ q, (dest <+: q → q = dest) → u.find? q = t.find? q)
    (hutakes : u.TakesAll (m.plan t source dest entries)) :
    m.perform.run ⟨u, none⟩ = .ok r ⟨u.laid (m.plan t source dest entries), none⟩ := by
  have hwells : t.WellFormed ∧ u.WellFormed := ⟨hrooted.toWellFormed, hurooted.toWellFormed⟩
  have hnames : u.names source = t.names source := names_eq_of_agree hwells.1 hwells.2 hagree hsep.apart
  obtain ⟨all, -, hall⟩ := hu.exists_listing hurooted
  obtain rfl : outside source dest all = entries := hlisting.eq (hnames ▸ hall) hwells.1 hwells.2 hagree
  have hsame : ∀ e ∈ outside source dest all, u.find? (source ++ e.path) = t.find? (source ++ e.path) :=
    fun e he => hagree _ fun h => absurd h (hsep.movable hrooted hlisting he).outside
  have hplan : m.plan u source dest (outside source dest all) = m.plan t source dest (outside source dest all) := plan_congr hsame
  have hiff := @Separate.run_perform_eq_ok_iff m u source dest (outside source dest all) r ⟨u, none⟩
    ⟨u.laid (m.plan t source dest (outside source dest all)), none⟩ hu hurooted hall rfl hu.hasSource
    (makeDirectoriesAt_of_resolve hu.hasDest)
  rw [hiff, hplan, summary, foldl_tally_congr hsame]
  refine ⟨fun e he => ?_, hutakes, hr, rfl⟩
  rw [outcome?_congr hsame he]
  exact hfits e he

lemma Separate.rooted_laid (hfits : ∀ e ∈ entries, Path.Fits (dest ++ m.renamed e.path)) :
    (t.laid (m.plan t source dest entries)).Rooted := by
  have hdest := reaches_of_resolve hsep.cwd hsep.hasDest
  have hnames : ∀ name ∈ dest, Path.IsName name := hrooted.isName (by simp [hdest dest List.prefix_rfl])
  refine htakes.rooted (hsep.aloneAll hrooted hlisting) hrooted fun x hx => ?_
  obtain ⟨e, he, rfl⟩ := List.mem_map.1 hx
  intro name hname
  exact ⟨List.forall_mem_append.2 ⟨hnames, (hsep.movable hrooted hlisting he).renamed⟩ name hname, (hfits e he).2 name hname⟩

lemma Separate.laid : m.Separate source dest (t.laid (m.plan t source dest entries)) := by
  have hne := hsep.aloneAll hrooted hlisting
  have hgrows : t.Grows (t.laid (m.plan t source dest entries)) := by
    refine htakes.grows hne (fun x hx => ?_) fun x hx => ?_
    · obtain ⟨e, he, rfl⟩ := List.mem_map.1 hx
      exact (hsep.movable hrooted hlisting he).plain
    · obtain ⟨e, he, rfl⟩ := List.mem_map.1 hx
      exact image_ne_link e
  have hsources : ∀ path, Sources source dest (t.laid (m.plan t source dest entries)) path → Sources source dest t path := by
    rintro path ⟨hout, hsome⟩
    rw [hsep.find?_laid_of_outside hrooted hlisting fun h => absurd h hout] at hsome
    exact ⟨hout, hsome⟩
  have hdir : ∀ {path p}, t.resolve m.cwd path = .ok (p, .directory) →
      (t.laid (m.plan t source dest entries)).resolve m.cwd path = .ok (p, .directory) := by
    intro path p h
    obtain ⟨n, hn, hkind⟩ := hgrows.resolve h
    rwa [eq_directory_of_isDirectory hkind] at hn
  exact ⟨htakes.reaches hne hsep.cwd, hdir hsep.hasSource, hdir hsep.hasDest, hsep.apart,
    fun q aim hq hlink => hsep.unlinked q aim hq (hgrows.links q aim hlink),
    fun path hpath => hsep.renamed path (hsources path hpath),
    fun path hpath q aim hq hlink => hsep.plain path (hsources path hpath) q aim hq (hgrows.links q aim hlink),
    fun path hpath => (hsep.alone path (hsources path hpath)).laid hne⟩

end Results

section Agreement

lemma Separate.sources_nil (hsep : m.Separate source dest t) : Sources source dest t [] := by
  rw [Sources, List.append_nil]
  exact ⟨hsep.apart, by simp [reaches_of_resolve hsep.cwd hsep.hasSource source List.prefix_rfl]⟩

lemma Sources.of_prefix (hrooted : t.Rooted) (h : Sources source dest t path) {part : List RawText} (hpart : part <+: path) :
    Sources source dest t part := by
  have habove : source ++ part <+: source ++ path := (List.prefix_append_right_inj source).2 hpart
  exact ⟨fun hd => h.1 (hd.trans habove), fun hnone => h.2 (hrooted.find?_eq_none hnone habove)⟩

lemma Sources.exists_above (hrooted : t.Rooted) (h : Sources source dest t path) (hq : q <+: dest ++ m.renamed path)
    (hd : dest <+: q) : ∃ part, Sources source dest t part ∧ q = dest ++ m.renamed part := by
  obtain ⟨s, rfl⟩ := hd
  have hs : s <+: path.map m.rename := (List.prefix_append_right_inj dest).1 hq
  rw [List.prefix_iff_eq_take, ← List.map_take] at hs
  exact ⟨path.take s.length, h.of_prefix hrooted (List.take_prefix s.length path), congrArg (dest ++ ·) hs⟩

lemma Copies.of_extends (h : m.Copies source dest t r u) (ht : v.Extends t) : m.Copies source dest v r u := by
  have hfile : ∀ q content, t.find? q = some (.file content) ↔ v.find? q = some (.file content) := fun q content =>
    ⟨fun hn => (ht.made q _ hn).resolve_right (by simp), fun hn => ht.kept q _ hn⟩
  have hisFile : ∀ q, t.isFile q = v.isFile q := by
    intro q
    rw [Bool.eq_iff_iff, isFile_iff, isFile_iff]
    exact exists_congr (hfile q)
  refine ⟨fun q content hq => (h.kept q content hq).trans (hfile q content),
    fun path hout hn => h.directories path hout (ht.kept _ _ hn), fun path content hout hn hunique => ?_, ?_, ?_, h.converted⟩
  · refine h.contents path content hout ((hfile _ _).2 hn) fun other hout' hn' => hunique other hout' ?_
    rwa [← hisFile]
  · rw [h.files]
    simp only [hisFile]
  · rw [h.convertedFiles]
    simp only [hfile]

lemma separate_of_unlinked (hprofile : m.migrator.profile.SparesNames) (hrooted : t.Rooted) (hcwd : t.Reaches m.cwd)
    (hsource : t.resolve m.cwd m.source = .ok (source, .directory))
    (hdest : t.resolve m.cwd m.destination = .ok (dest, .directory)) (hapart : ¬ dest <+: source)
    (hunlinked : ∀ x ∈ t.nodes, ∀ aim, x.2 ≠ .link aim) (hshared : t.shared = []) : m.Separate source dest t := by
  have hlink : ∀ q aim, t.find? q ≠ some (.link aim) := by
    intro q aim hn
    by_cases hq : q = []
    · rw [hq] at hn
      cases hn
    · exact hunlinked _ (mem_nodes_of_find? hq hn) aim rfl
  refine ⟨hcwd, hsource, hdest, hapart, fun q aim _ => hlink q aim, fun path hpath => ?_, fun _ _ q aim _ => hlink q aim,
    fun _ _ => alone_of_shared_eq_nil hshared _⟩
  refine isName_of_mem_renamed hprofile fun name hname => ?_
  exact hrooted.isName hpath.2 name (List.mem_append_right source hname)

end Agreement

section Runs

lemma Separate.exists_plan (hcache : w.cache = none) (hrooted : w.files.Rooted)
    (hmade : w.files.makeDirectoriesAt m.cwd m.destination = .ok t) (hsep : m.Separate source dest t)
    (h : m.perform.run w = .ok r w') : ∃ entries, Listing t source dest [] (t.names source) entries ∧
      (∀ e ∈ entries, Path.Fits (dest ++ m.renamed e.path) ∧
          (e.isDirectory = false → (m.outcome? t source e).isSome = true)) ∧
        t.TakesAll (m.plan t source dest entries) ∧
          r = m.summary t source entries ∧
            w' = ⟨t.laid (m.plan t source dest entries), none⟩ := by
  obtain ⟨all, -, hlisting⟩ := hsep.exists_listing (hrooted.makeDirectoriesAt hmade)
  refine ⟨_, hlisting, (hsep.run_perform_eq_ok_iff (hrooted.makeDirectoriesAt hmade) hlisting hcache ?_ hmade).1 h⟩
  obtain ⟨p, n, hn⟩ := resolve_of_perform h
  obtain ⟨n', hn', hkind⟩ := (makeDirectoriesAt_eq_ok hmade).grows.resolve hn
  obtain ⟨rfl, rfl⟩ := Prod.mk.inj (Except.ok.inj (hn'.symm.trans hsep.hasSource))
  rwa [eq_directory_of_isDirectory hkind.symm] at hn

/-- A migration of a directory into another one that ends well copies the one into the other. It does so too when there are
other nodes in the destination that are not at migrated paths, and when it is repeated, which changes nothing then. -/
theorem copies_perform (hcache : w.cache = none) (hrooted : w.files.Rooted)
    (hmade : w.files.makeDirectoriesAt m.cwd m.destination = .ok t) (hsep : m.Separate source dest t)
    (h : m.perform.run w = .ok r w') :
    m.Copies source dest w.files r w'.files ∧
      (∀ u : FileTree, u.Rooted → m.Separate source dest u →
        (∀ q, (dest <+: q → ∃ path, Sources source dest t path ∧ q = dest ++ m.renamed path) → u.find? q = t.find? q) →
        ∃ u', m.perform.run ⟨u, none⟩ = .ok r ⟨u', none⟩ ∧ ∀ path, Sources source dest t path →
          u'.find? (dest ++ m.renamed path) = w'.files.find? (dest ++ m.renamed path)) ∧
      ∃ u', m.perform.run w' = .ok r ⟨u', none⟩ ∧ ∀ q, u'.find? q = w'.files.find? q := by
  obtain ⟨entries, hlisting, hfits, htakes, hr, rfl⟩ := hsep.exists_plan hcache hrooted hmade h
  have ht := hrooted.makeDirectoriesAt hmade
  have hne := hsep.aloneAll ht hlisting
  have hdest := reaches_of_resolve hsep.cwd hsep.hasDest
  have hplace : ∀ e ∈ entries, e.path ≠ [] ∧ Sources source dest t e.path := by
    intro e he
    obtain ⟨hnil, hout, n, hn, -⟩ := (mem_entries_iff ht hlisting).1 he
    exact ⟨hnil, hout, hn ▸ Option.some_ne_none n⟩
  refine ⟨(hsep.copies ht hlisting htakes (fun e he => (hfits e he).2) hr).of_extends (makeDirectoriesAt_eq_ok hmade), ?_, ?_⟩
  · intro u hu husep hagree
    have houtside : ∀ q, (dest <+: q → q = dest) → u.find? q = t.find? q := fun q hq =>
      hagree q fun hd => ⟨[], hsep.sources_nil, by rw [hq hd, Migration.renamed, List.map_nil, List.append_nil]⟩
    have hune : u.AloneAll (m.plan t source dest entries) := by
      refine aloneAll_plan fun e he => ⟨(hplace e he).1, husep.alone e.path ⟨(hplace e he).2.1, ?_⟩⟩
      rw [houtside _ fun h => absurd h (hplace e he).2.1]
      exact (hplace e he).2.2
    -- above a migrated path are the destination, what is above it, and other migrated paths
    have hutakes : u.TakesAll (m.plan t source dest entries) := by
      refine htakes.of_agree hne hune fun x hx q hq => hagree q fun hd => ?_
      obtain ⟨e, he, rfl⟩ := List.mem_map.1 hx
      exact Sources.exists_above ht (hplace e he).2 hq hd
    refine ⟨_, hsep.run_perform_of_agree ht hlisting htakes hfits hr husep hu houtside hutakes, fun path hpath => ?_⟩
    by_cases hnil : path = []
    · rw [hnil, Migration.renamed, List.map_nil, List.append_nil, htakes.reaches hne hdest dest List.prefix_rfl,
        hutakes.reaches hune (reaches_of_resolve husep.cwd husep.hasDest) dest List.prefix_rfl]
    · obtain ⟨n, hn⟩ := Option.ne_none_iff_exists'.1 hpath.2
      have he := (mem_entries_iff (e := ⟨path, n.isDirectory⟩) ht hlisting).2 ⟨hnil, hpath.1, n, hn, rfl⟩
      exact find?_laid_congr hune hne ⟨_, List.mem_map_of_mem he, rfl⟩
  · -- the nodes of the plan are in their places now, so they can be put there again
    refine ⟨_, hsep.run_perform_of_agree ht hlisting htakes hfits hr (hsep.laid ht hlisting htakes)
      (hsep.rooted_laid ht hlisting htakes fun e he => (hfits e he).1)
      (fun q hq => hsep.find?_laid_of_outside ht hlisting hq)
      ((htakes.settled hne).takesAll (hne.laid hne) (List.Subset.refl _)), fun q => find?_laid_laid hne⟩

theorem copies_perform_of_nested :
    let t : FileTree := ⟨[(["src"], .directory), (["src", "javax.servlet.A"], .file [0x61])], []⟩
    let m : Migration := ⟨.forZip BuiltIn.tomcat.profile, "src", "src/copy", [], ⟨2024, 1, 1⟩⟩
    ∃ r w u, m.perform.run ⟨t, none⟩ = .ok r w ∧ r.files = 1 ∧
      w.files.find? ["src", "javax.servlet.A"] = some (.file [0x61]) ∧
      w.files.find? ["src", "copy", "jakarta.servlet.A"] = some (.file [0x61]) ∧
      m.perform.run w = .ok r ⟨u, none⟩ ∧ ∀ q, u.find? q = w.files.find? q := by
  intro t m
  let made : FileTree := t.put ["src", "copy"] .directory
  have hmade : t.makeDirectoriesAt [] "src/copy" = .ok made := eq_ok_of_toOption_eq_some (by decide +kernel)
  have hnames : made.names ["src"] = [.ofText "copy", .ofText "javax.servlet.A"] := by
    rw [names_eq, List.mergeSort_of_pairwise] <;> decide +kernel
  have hwalk : made.walkEntries ["src"] = .ok [⟨["copy"], true⟩, ⟨["javax.servlet.A"], false⟩] := by
    rw [walkEntries, show made.walkDepth = 24 + 1 from rfl, walkBelow, hnames]
    exact eq_ok_of_toOption_eq_some (by decide +kernel)
  have hsource : t.resolve [] "src" = .ok (["src"], .directory) := eq_ok_of_toOption_eq_some (by decide +kernel)
  have hsource' : made.resolve [] "src" = .ok (["src"], .directory) := eq_ok_of_toOption_eq_some (by decide +kernel)
  have hdest : made.resolve [] "src/copy" = .ok (["src", "copy"], .directory) := eq_ok_of_toOption_eq_some (by decide +kernel)
  have hrun := @run_perform_of_made m ⟨t, none⟩ made ["src"] ["src", "copy"] hsource hmade hsource' hdest
  have hok : (answer (m.perform.run ⟨t, none⟩)).toOption.map (·.files) = some 1 ∧
      (after (m.perform.run ⟨t, none⟩)).files.find? ["src", "copy", "jakarta.servlet.A"] = some (.file [0x61]) := by
    rw [hrun, hwalk]
    decide +kernel
  obtain ⟨r, hperform, hfiles⟩ := exists_eq_ok hok.1
  have hrooted : t.Rooted := rooted_of_forall_mem ⟨by decide, by decide⟩ (by decide) (by decide +kernel)
  have hsep : m.Separate ["src"] ["src", "copy"] made :=
    separate_of_unlinked (Profile.sparesNames_builtIn .tomcat) (hrooted.makeDirectoriesAt hmade) (reaches_nil made) hsource' hdest
      (by decide) (by simp [made, t, FileTree.put, erase]) (by simp [made, t, FileTree.put, erase])
  obtain ⟨hcopies, -, u, hagain, hsame⟩ := copies_perform (w := ⟨t, none⟩) rfl hrooted hmade hsep hperform
  exact ⟨r, _, u, hperform, hfiles, (hcopies.kept _ _ (by decide)).2 rfl, hok.2, hagain, hsame⟩

/-- Trees in which a migrated path leads elsewhere: through a link, to a file that has another name, or by a name that is
migrated to a path. The first migration leaves another file at it, the second one empties its source, and the third one comes
by its own file when it is repeated. -/
theorem perform_leads_elsewhere :
    (let t : FileTree := ⟨[(["out"], .directory), (["out", "b.txt"], .link "a.txt"), (["src"], .directory),
        (["src", "a.txt"], .file [0x61]), (["src", "b.txt"], .file [0x62])], []⟩
      let m : Migration := ⟨.forZip BuiltIn.tomcat.profile, "src", "out", [], ⟨2024, 1, 1⟩⟩
      ∃ r w, m.perform.run ⟨t, none⟩ = .ok r w ∧ w.files.find? ["out", "a.txt"] = some (.file [0x62]) ∧
        ∀ o, m.migrator.migrate "a.txt" [0x61] = .ok o → o.bytes = [0x61]) ∧
      (let t : FileTree := ⟨[(["out"], .directory), (["out", "a.txt"], .file [0x61]), (["src"], .directory),
          (["src", "a.txt"], .file [0x61])], [(["out", "a.txt"], 0), (["src", "a.txt"], 0)]⟩
        let m : Migration := ⟨.forZip BuiltIn.tomcat.profile, "src", "out", [], ⟨2024, 1, 1⟩⟩
        ∃ r w, m.perform.run ⟨t, none⟩ = .ok r w ∧ w.files.find? ["src", "a.txt"] = some (.file [])) ∧
      let t : FileTree := ⟨[(["out"], .directory), (["src"], .directory), (["src", "b"], .file [0x61])], []⟩
      let m : Migration := ⟨.forZip ⟨"P", "b", "../src/a", [.whole ""]⟩, "src", "out", [], ⟨2024, 1, 1⟩⟩
      ∃ r w r' w', m.perform.run ⟨t, none⟩ = .ok r w ∧ m.perform.run w = .ok r' w' ∧ r.files = 1 ∧ r'.files = 2 := by
  refine ⟨?_, ?_, ?_⟩
  · intro t m
    have hwalk : t.walkEntries ["src"] = .ok [⟨["a.txt"], false⟩, ⟨["b.txt"], false⟩] :=
      walkEntries_of_files ["a.txt", "b.txt"] (by decide) (by decide) (by decide +kernel)
    have hsource : t.resolve [] "src" = .ok (["src"], .directory) := eq_ok_of_toOption_eq_some (by decide +kernel)
    have hdest : t.resolve [] "out" = .ok (["out"], .directory) := eq_ok_of_toOption_eq_some (by decide +kernel)
    have hrun := @run_perform_of_made m ⟨t, none⟩ t ["src"] ["out"] hsource (makeDirectoriesAt_of_resolve hdest) hsource hdest
    have hok : (answer (m.perform.run ⟨t, none⟩)).toOption.map (·.files) = some 2 ∧
        (after (m.perform.run ⟨t, none⟩)).files.find? ["out", "a.txt"] = some (.file [0x62]) := by
      rw [hrun, hwalk]
      decide +kernel
    have hbytes : ((m.migrator.migrate "a.txt" [0x61]).toOption.map (·.bytes)) = some [0x61] := by decide +kernel
    obtain ⟨r, hperform, -⟩ := exists_eq_ok hok.1
    refine ⟨r, _, hperform, hok.2, fun o ho => ?_⟩
    rw [ho] at hbytes
    exact Option.some.inj hbytes
  · intro t m
    have hwalk : t.walkEntries ["src"] = .ok [⟨["a.txt"], false⟩] :=
      walkEntries_of_files ["a.txt"] (by decide) (by decide) (by decide +kernel)
    have hsource : t.resolve [] "src" = .ok (["src"], .directory) := eq_ok_of_toOption_eq_some (by decide +kernel)
    have hdest : t.resolve [] "out" = .ok (["out"], .directory) := eq_ok_of_toOption_eq_some (by decide +kernel)
    have hrun := @run_perform_of_made m ⟨t, none⟩ t ["src"] ["out"] hsource (makeDirectoriesAt_of_resolve hdest) hsource hdest
    have hok : (answer (m.perform.run ⟨t, none⟩)).toOption.map (·.files) = some 1 ∧
        (after (m.perform.run ⟨t, none⟩)).files.find? ["src", "a.txt"] = some (.file []) := by
      rw [hrun, hwalk]
      decide +kernel
    obtain ⟨r, hperform, -⟩ := exists_eq_ok hok.1
    exact ⟨r, _, hperform, hok.2⟩
  · intro t m
    let again : FileTree := ⟨(["src", "a"], .file [0x61]) :: t.nodes, []⟩
    have hwalk : t.walkEntries ["src"] = .ok [⟨["b"], false⟩] :=
      walkEntries_of_files ["b"] (by decide) (by decide) (by decide +kernel)
    have hwalk' : again.walkEntries ["src"] = .ok [⟨["a"], false⟩, ⟨["b"], false⟩] :=
      walkEntries_of_files ["a", "b"] (by decide) (by decide) (by decide +kernel)
    have hsource : t.resolve [] "src" = .ok (["src"], .directory) ∧ again.resolve [] "src" = .ok (["src"], .directory) :=
      ⟨eq_ok_of_toOption_eq_some (by decide +kernel), eq_ok_of_toOption_eq_some (by decide +kernel)⟩
    have hdest : t.resolve [] "out" = .ok (["out"], .directory) ∧ again.resolve [] "out" = .ok (["out"], .directory) :=
      ⟨eq_ok_of_toOption_eq_some (by decide +kernel), eq_ok_of_toOption_eq_some (by decide +kernel)⟩
    have hrun := @run_perform_of_made m ⟨t, none⟩ t ["src"] ["out"] hsource.1 (makeDirectoriesAt_of_resolve hdest.1)
      hsource.1 hdest.1
    have hrun' := @run_perform_of_made m ⟨again, none⟩ again ["src"] ["out"] hsource.2 (makeDirectoriesAt_of_resolve hdest.2)
      hsource.2 hdest.2
    have hok : (answer (m.perform.run ⟨t, none⟩)).toOption.map (·.files) = some 1 ∧
        after (m.perform.run ⟨t, none⟩) = ⟨again, none⟩ := by
      rw [hrun, hwalk]
      decide +kernel
    have hok' : (answer (m.perform.run ⟨again, none⟩)).toOption.map (·.files) = some 2 := by
      rw [hrun', hwalk']
      decide +kernel
    obtain ⟨r, hperform, hfiles⟩ := exists_eq_ok hok.1
    obtain ⟨r', hperform', hfiles'⟩ := exists_eq_ok hok'
    exact ⟨r, ⟨again, none⟩, r', _, hok.2 ▸ hperform, hperform', hfiles, hfiles'⟩

end Runs

end NamespaceMigration.Migration
