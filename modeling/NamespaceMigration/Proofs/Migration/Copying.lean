import NamespaceMigration.Proofs.Files.Laying
import NamespaceMigration.Proofs.Files.Listing
import NamespaceMigration.Proofs.Files.Placing
import NamespaceMigration.Proofs.Migration.Stages

/-! A migration without a cache as a list of nodes that are put in their places. -/

namespace NamespaceMigration.Migration

open FileTree Steps

variable {m : Migration} {t u v : FileTree} {source dest p q origin : Place} {content : Bytes} {e : WalkEntry}
  {entries : List WalkEntry} {n : Node} {r r' : Report} {w : Workspace} {name : RawText} {changed : Bool}

def outcome? (m : Migration) (t : FileTree) (source : Place) (e : WalkEntry) : Option Outcome :=
  match t.find? (source ++ e.path) with
  | some (.file content) => (m.migrator.migrate (lastName e.path) content).toOption
  | _ => none

def image (m : Migration) (t : FileTree) (source : Place) (e : WalkEntry) : Node :=
  if e.isDirectory then .directory else .file (((m.outcome? t source e).map (·.bytes)).getD [])

def tally (m : Migration) (t : FileTree) (source : Place) (r : Report) (e : WalkEntry) : Report :=
  if e.isDirectory then r else r.count (((m.outcome? t source e).map (·.changed)).getD false)

def plan (m : Migration) (t : FileTree) (source dest : Place) (entries : List WalkEntry) : List (Place × Node) :=
  entries.map fun e => (dest ++ m.renamed e.path, m.image t source e)

structure Movable (m : Migration) (t : FileTree) (source dest : Place) (e : WalkEntry) : Prop where
  ne_nil : e.path ≠ []
  names : ∀ name ∈ e.path, Path.IsName name
  renamed : ∀ name ∈ m.renamed e.path, Path.IsName name
  outside : ¬ dest <+: source ++ e.path
  there : ∃ n, t.find? (source ++ e.path) = some n ∧ e.isDirectory = n.isDirectory
  unlinked : ∀ aim, t.find? (source ++ e.path) ≠ some (.link aim)
  plain : ∀ aim, t.find? (dest ++ m.renamed e.path) ≠ some (.link aim)
  alone : t.Alone (dest ++ m.renamed e.path)

lemma run_write_eq_ok_iff (path : RawText) (text : String) (files : FileTree) : (do
      putFile p []
      let o ← m.convert path text ((← get).files.contentAt origin)
      putFile p o.bytes
      return o.changed : MigrationM Bool).run ⟨files, none⟩ = .ok changed w ↔
    ∃ o, m.migrator.migrate text ((files.fill p []).contentAt origin) = .ok o ∧ o.changed = changed ∧
      (⟨files.lay p (.file o.bytes), none⟩ : Workspace) = w := by
  have hput : (putFile p []).run ⟨files, none⟩ = .ok ⟨⟩ ⟨files.fill p [], none⟩ := rfl
  have hget : (get : MigrationM Workspace).run ⟨files.fill p [], none⟩ = .ok ⟨files.fill p [], none⟩ ⟨files.fill p [], none⟩ := rfl
  have hconvert := @run_convert m ⟨files.fill p [], none⟩ path text ((files.fill p []).contentAt origin) rfl
  rw [run_bind_of_ok hput, run_bind_of_ok hget]
  cases ho : m.migrator.migrate text ((files.fill p []).contentAt origin) with
  | error cause =>
    rw [ho] at hconvert
    rw [run_bind_eq_ok_iff, hconvert]
    simp
  | ok o =>
    rw [ho] at hconvert
    rw [run_bind_of_ok hconvert]
    constructor
    · intro h
      cases h
      exact ⟨o, rfl, rfl, rfl⟩
    · rintro ⟨_, ho', rfl, rfl⟩
      cases ho'
      rfl

section Files

variable (hv : v.Rooted) (hcontent : v.find? origin = some (.file content)) (hp : p ≠ []) (hnames : ∀ name ∈ p, Path.IsName name)
  (hr : v.Reaches p.dropLast) (hlink : ∀ aim, v.find? p ≠ some (.link aim)) (halone : v.Alone p) (hne : origin ≠ p)
include hv hcontent hp hnames hr hlink halone hne

lemma run_migrateFile_eq_ok_iff (hname : Path.fileName? (Path.ofPlace origin) = some name) :
    (m.migrateFile (.ofPlace origin) (.ofPath m.cwd (Path.ofPlace p))).run ⟨v, none⟩ = .ok changed w ↔
      Path.Fits p ∧ v.find? p ≠ some .directory ∧
        ∃ o, m.migrator.migrate name.shown content = .ok o ∧ changed = o.changed ∧ w = ⟨v.lay p (.file o.bytes), none⟩ := by
  have hread : (Location.ofPlace origin).content v = .ok (origin, content) := by
    rw [Location.content, Location.node, Location.ofPlace]
    dsimp only
    rw [hv.reach_eq hcontent (by simp)]
    rfl
  have hread' : (onFiles (.io (Path.ofPlace origin)) (Location.ofPlace origin).content).run ⟨v, none⟩ =
      .ok (origin, content) ⟨v, none⟩ := run_onFiles hread
  have hget : (get : MigrationM Workspace).run ⟨v, none⟩ = .ok ⟨v, none⟩ ⟨v, none⟩ := rfl
  -- the source is not emptied with the destination, as that has no other name
  have hkept : (v.fill p []).contentAt origin = content := by rw [contentAt, halone.find?_fill hp, if_neg hne, hcontent]
  rw [migrateFile]
  dsimp only [Location.ofPlace] at hread' ⊢
  rw [hname, Option.map_some, Option.getD_some, run_bind_of_ok hread']
  dsimp only
  rw [run_bind_of_ok hget]
  split_ifs with hsame
  · exfalso
    split at hsame
    next q n hnode =>
      obtain ⟨-, rfl, -⟩ := (resolve_ofPlace_eq_ok_iff hp hnames hr hlink).1 hnode
      exact hne (beq_iff_eq.1 hsame).symm
    next => cases hsame
  rw [run_bind_eq_ok_iff]
  constructor
  · rintro ⟨target, _, htarget, h⟩
    obtain ⟨houtput, rfl⟩ := run_onFiles_eq_ok_iff.1 htarget
    obtain ⟨hfits, hd, rfl⟩ := (resolveOutput_ofPlace_eq_ok_iff hp hnames hr hlink).1 houtput
    obtain ⟨o, ho, hchanged, hw⟩ := (run_write_eq_ok_iff _ _ v).1 h
    exact ⟨hfits, hd, o, hkept ▸ ho, hchanged.symm, hw.symm⟩
  · rintro ⟨hfits, hd, o, ho, hchanged, hw⟩
    refine ⟨p, ⟨v, none⟩, run_onFiles ((resolveOutput_ofPlace_eq_ok_iff hp hnames hr hlink).2 ⟨hfits, hd, rfl⟩), ?_⟩
    exact (run_write_eq_ok_iff _ _ v).2 ⟨o, hkept.symm ▸ ho, hchanged.symm, hw.symm⟩

end Files

section Entries

lemma dropLast_renamed {path : List RawText} (hne : path ≠ []) :
    (dest ++ m.renamed path).dropLast = dest ++ m.renamed path.dropLast := by
  rw [List.dropLast_append_of_ne_nil (by simpa [renamed] using hne), renamed, renamed, List.map_dropLast]

lemma Movable.exists_content (h : m.Movable t source dest e) (hd : e.isDirectory = false) :
    ∃ content, t.find? (source ++ e.path) = some (.file content) := by
  obtain ⟨n, hn, hkind⟩ := h.there
  cases n with
  | file content => exact ⟨content, hn⟩
  | directory =>
    rw [hd] at hkind
    cases hkind
  | link aim => exact absurd hn (h.unlinked aim)

variable (hdest : ∀ name ∈ dest, Path.IsName name)
include hdest

lemma run_migrateEntry_eq_ok_iff (hv : v.Rooted) (he : m.Movable v source dest e)
    (hr : v.Reaches (dest ++ m.renamed e.path.dropLast)) :
    (m.migrateEntry source dest r e).run ⟨v, none⟩ = .ok r' w ↔
      (Path.Fits (dest ++ m.renamed e.path) ∧ (e.isDirectory = false → (m.outcome? v source e).isSome = true)) ∧
        v.Takes (dest ++ m.renamed e.path) (m.image v source e) ∧ r' = m.tally v source r e ∧
          w = ⟨v.lay (dest ++ m.renamed e.path) (m.image v source e), none⟩ := by
  rw [← dropLast_renamed he.ne_nil] at hr
  have hp : dest ++ m.renamed e.path ≠ [] := by simp [renamed, he.ne_nil]
  have hnames : ∀ name ∈ dest ++ m.renamed e.path, Path.IsName name := List.forall_mem_append.2 ⟨hdest, he.renamed⟩
  rw [migrateEntry, targetPath_eq hdest he.renamed]
  cases hd : e.isDirectory with
  | true =>
    rw [if_pos rfl, image, hd, if_pos rfl, tally, hd, if_pos rfl, run_bind_eq_ok_iff, lay]
    have hmake := @makeDirectoriesAt_ofPlace_eq_ok_iff v
    constructor
    · rintro ⟨_, _, hrun, hend⟩
      obtain ⟨u, hu, rfl⟩ := run_makeDirectories_eq_ok_iff.1 hrun
      obtain ⟨hfits, hu⟩ := (hmake hp hnames hr he.plain).1 hu
      cases hend
      rcases hu with ⟨hn, rfl⟩ | ⟨hn, rfl⟩
      · exact ⟨⟨hfits, by simp⟩, ⟨hr, by simp [hn, Node.isDirectory]⟩, rfl, by rw [if_pos hn]⟩
      · exact ⟨⟨hfits, by simp⟩, ⟨hr, by simp [hn]⟩, rfl, by rw [if_neg (by simp [hn])]⟩
    · rintro ⟨⟨hfits, -⟩, ht, rfl, rfl⟩
      refine ⟨(), _, run_makeDirectories_eq_ok_iff.2 ⟨_, (hmake hp hnames hr he.plain).2 ⟨hfits, ?_⟩, rfl⟩, rfl⟩
      split_ifs with hn
      · exact .inl ⟨hn, rfl⟩
      · refine .inr ⟨?_, rfl⟩
        by_contra hsome
        obtain ⟨k, hk⟩ := Option.ne_none_iff_exists'.1 hsome
        exact hn (hk.trans (congrArg some (eq_directory_of_isDirectory (ht.kind k hk))))
  | false =>
    obtain ⟨content, hcontent⟩ := he.exists_content hd
    have hname := Path.fileName?_ofPlace he.ne_nil he.names source
    have hne : source ++ e.path ≠ dest ++ m.renamed e.path := fun h => he.outside (h ▸ List.prefix_append _ _)
    have hfile := @run_migrateFile_eq_ok_iff m v
    have hkind : v.find? (dest ++ m.renamed e.path) ≠ some .directory ↔
        ∀ k, v.find? (dest ++ m.renamed e.path) = some k → k.isDirectory = false := by
      constructor
      · intro h k hk
        rw [← Bool.not_eq_true]
        exact fun hd => h (hk.trans (congrArg some (eq_directory_of_isDirectory hd)))
      · intro h hd
        cases h _ hd
    rw [if_neg Bool.false_ne_true, image, hd, if_neg Bool.false_ne_true, tally, hd, if_neg Bool.false_ne_true, outcome?, hcontent]
    dsimp only
    rw [run_bind_eq_ok_iff]
    constructor
    · rintro ⟨_, _, hrun, hend⟩
      obtain ⟨hfits, hfree, o, ho, rfl, rfl⟩ := (hfile hv hcontent hp hnames hr he.plain he.alone hne hname).1 hrun
      cases hend
      rw [lastName, ho]
      exact ⟨⟨hfits, fun _ => rfl⟩, ⟨hr, hkind.1 hfree⟩, rfl, rfl⟩
    · rintro ⟨⟨hfits, hsome⟩, ht, rfl, rfl⟩
      obtain ⟨o, ho⟩ := Option.isSome_iff_exists.1 (hsome rfl)
      have ho' := eq_ok_of_toOption_eq_some ho
      refine ⟨_, _, (hfile hv hcontent hp hnames hr he.plain he.alone hne hname).2 ⟨hfits, hkind.2 ht.kind, o, ho', rfl, rfl⟩, ?_⟩
      rw [ho]
      rfl

omit hdest in
lemma image_ne_link (e : WalkEntry) (aim : RawText) : m.image t source e ≠ .link aim := by
  rw [image]
  split_ifs <;> simp

omit hdest in
lemma Movable.lay {f : WalkEntry} (he : m.Movable v source dest e) (hp : dest <+: p) (hne : p ≠ []) (ha : v.Alone p) :
    m.Movable (v.lay p (m.image t source f)) source dest e := by
  have hsource : (v.lay p (m.image t source f)).find? (source ++ e.path) = v.find? (source ++ e.path) := by
    rw [find?_lay hne ha, if_neg]
    rintro rfl
    exact he.outside hp
  refine ⟨he.ne_nil, he.names, he.renamed, he.outside, hsource ▸ he.there, fun aim => hsource ▸ he.unlinked aim, fun aim => ?_,
    he.alone.lay hne⟩
  rw [find?_lay hne ha]
  split_ifs
  · exact fun h => image_ne_link f aim (Option.some.inj h)
  · exact he.plain aim

section Congruence

variable (h : ∀ e ∈ entries, u.find? (source ++ e.path) = v.find? (source ++ e.path))
include h
omit hdest

lemma outcome?_congr (he : e ∈ entries) : m.outcome? u source e = m.outcome? v source e := by
  rw [outcome?, outcome?, h e he]

lemma plan_congr : m.plan u source dest entries = m.plan v source dest entries := by
  refine List.map_congr_left fun e he => ?_
  rw [image, image, outcome?_congr h he]

lemma foldl_tally_congr (r : Report) : entries.foldl (m.tally u source) r = entries.foldl (m.tally v source) r := by
  refine List.foldl_ext _ _ r fun r e he => ?_
  rw [tally, tally, outcome?_congr h he]

end Congruence

lemma run_migrateEntries_eq_ok_iff {seen : List (List RawText)} (hfirst : ParentsFirst seen entries) (hv : v.Rooted)
    (hentries : ∀ e ∈ entries, m.Movable v source dest e) (hseen : ∀ path ∈ seen, v.Reaches (dest ++ m.renamed path)) :
    (entries.foldlM (m.migrateEntry source dest) r).run ⟨v, none⟩ = .ok r' w ↔
      (∀ e ∈ entries, Path.Fits (dest ++ m.renamed e.path) ∧ (e.isDirectory = false → (m.outcome? v source e).isSome = true)) ∧
        v.TakesAll (m.plan v source dest entries) ∧ r' = entries.foldl (m.tally v source) r ∧
          w = ⟨v.laid (m.plan v source dest entries), none⟩ := by
  induction entries generalizing v seen r with
  | nil =>
    constructor
    · intro h
      cases h
      exact ⟨by simp, trivial, rfl, rfl⟩
    · rintro ⟨-, -, rfl, rfl⟩
      rfl
  | cons e entries ih =>
    have he := hentries e (by simp)
    have hp : dest ++ m.renamed e.path ≠ [] := by simp [renamed, he.ne_nil]
    have hstep := @run_migrateEntry_eq_ok_iff m v source dest e
    -- what the first entry does is seen by the others only at their migrated paths
    have hrest : ∀ r, Path.Fits (dest ++ m.renamed e.path) → v.Takes (dest ++ m.renamed e.path) (m.image v source e) →
        ((entries.foldlM (m.migrateEntry source dest) r).run ⟨v.lay (dest ++ m.renamed e.path) (m.image v source e), none⟩ =
            .ok r' w ↔
          (∀ f ∈ entries, Path.Fits (dest ++ m.renamed f.path) ∧
              (f.isDirectory = false → (m.outcome? v source f).isSome = true)) ∧
            (v.lay (dest ++ m.renamed e.path) (m.image v source e)).TakesAll (m.plan v source dest entries) ∧
              r' = entries.foldl (m.tally v source) r ∧
                w = ⟨(v.lay (dest ++ m.renamed e.path) (m.image v source e)).laid (m.plan v source dest entries), none⟩) := by
      intro r hfits ht
      have hsteps : ∀ name ∈ dest ++ m.renamed e.path, Path.IsName name ∧ name.octets.length ≤ Path.longestName :=
        fun name hname => ⟨List.forall_mem_append.2 ⟨hdest, he.renamed⟩ name hname, hfits.2 name hname⟩
      have hsame : ∀ f ∈ entries, (v.lay (dest ++ m.renamed e.path) (m.image v source e)).find? (source ++ f.path) =
          v.find? (source ++ f.path) := by
        intro f hf
        rw [find?_lay hp he.alone, if_neg]
        exact fun h => (hentries f (by simp [hf])).outside (h ▸ List.prefix_append _ _)
      have hseen' : ∀ path ∈ (if e.isDirectory then e.path :: seen else seen),
          (v.lay (dest ++ m.renamed e.path) (m.image v source e)).Reaches (dest ++ m.renamed path) := by
        have hold : ∀ path ∈ seen, (v.lay (dest ++ m.renamed e.path) (m.image v source e)).Reaches (dest ++ m.renamed path) :=
          fun path hpath => (hseen path hpath).lay hp ht he.alone
        split_ifs with hd
        · refine List.forall_mem_cons.2 ⟨?_, hold⟩
          refine (reaches_iff hp).2 ⟨ht.reaches.lay hp ht he.alone, ?_⟩
          rw [find?_lay hp he.alone, if_pos rfl, image, if_pos hd]
        · exact hold
      rw [ih hfirst.2 (hv.lay hp ht hsteps) (fun f hf => (hentries f (by simp [hf])).lay (List.prefix_append _ _) hp he.alone) hseen',
        plan_congr hsame, foldl_tally_congr hsame]
      exact and_congr_left' (forall₂_congr fun f hf => by rw [outcome?_congr hsame hf])
    have hr := hseen _ hfirst.1
    rw [List.foldlM_cons, run_bind_eq_ok_iff]
    constructor
    · rintro ⟨r₁, w₁, hrun, hfold⟩
      obtain ⟨hfirst, ht, rfl, rfl⟩ := (hstep hdest hv he hr).1 hrun
      obtain ⟨hall, htakes, rfl, rfl⟩ := (hrest _ hfirst.1 ht).1 hfold
      exact ⟨List.forall_mem_cons.2 ⟨hfirst, hall⟩, ⟨ht, htakes⟩, rfl, rfl⟩
    · rintro ⟨hall, ⟨ht, htakes⟩, rfl, rfl⟩
      obtain ⟨hfirst, hall⟩ := List.forall_mem_cons.1 hall
      exact ⟨_, _, (hstep hdest hv he hr).2 ⟨hfirst, ht, rfl, rfl⟩, (hrest _ hfirst.1 ht).2 ⟨hall, htakes, rfl, rfl⟩⟩

end Entries

end NamespaceMigration.Migration
