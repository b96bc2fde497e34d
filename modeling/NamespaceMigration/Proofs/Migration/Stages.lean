import NamespaceMigration.Proofs.Migration.Renaming
import NamespaceMigration.Proofs.Steps

namespace NamespaceMigration.Migration

open FileTree Steps

variable {m : Migration} {w : Workspace} {t : FileTree} {source dest p q : Place} {path : RawText} {name : String} {content : Bytes}

lemma ensures_onFiles {α : Type} (wrap : IoFault → MigrationFault) (f : FileTree → Except IoFault α) (w : Workspace) :
    Ensures w (onFiles wrap f) (fun a u => f w.files = .ok a ∧ u = w) fun _ u => u = w := by
  refine ensures_get_bind.2 ?_
  cases h : f w.files with
  | ok a => exact ⟨rfl, rfl⟩
  | error fault => rfl

lemma run_onFiles_eq_ok_iff {α : Type} {wrap : IoFault → MigrationFault} {f : FileTree → Except IoFault α} {a : α}
    {u : Workspace} : (onFiles wrap f).run w = .ok a u ↔ f w.files = .ok a ∧ u = w := by
  have hget : (get : MigrationM Workspace).run w = .ok w w := rfl
  rw [onFiles, run_bind_of_ok hget]
  cases f w.files with
  | ok b => exact ⟨fun h => by cases h; exact ⟨rfl, rfl⟩, fun ⟨h, hu⟩ => by cases h; rw [hu]; rfl⟩
  | error fault => exact ⟨fun h => (nomatch h), fun h => (nomatch h.1)⟩

lemma run_onFiles {α : Type} {wrap : IoFault → MigrationFault} {f : FileTree → Except IoFault α} {a : α} (h : f w.files = .ok a) :
    (onFiles wrap f).run w = .ok a w :=
  run_onFiles_eq_ok_iff.2 ⟨h, rfl⟩

lemma run_makeDirectories_eq_ok_iff {u : Workspace} : (m.makeDirectories path).run w = .ok () u ↔
    ∃ t, w.files.makeDirectoriesAt m.cwd path = .ok t ∧ u = { w with files := t } := by
  rw [makeDirectories, changeFiles, run_bind_eq_ok_iff]
  simp only [run_onFiles_eq_ok_iff]
  constructor
  · rintro ⟨t, _, ⟨ht, rfl⟩, h⟩
    cases h
    exact ⟨t, ht, rfl⟩
  · rintro ⟨t, ht, rfl⟩
    exact ⟨t, w, ⟨ht, rfl⟩, rfl⟩

lemma run_makeDirectories (h : w.files.makeDirectoriesAt m.cwd path = .ok t) :
    (m.makeDirectories path).run w = .ok () { w with files := t } :=
  run_makeDirectories_eq_ok_iff.2 ⟨t, h, rfl⟩

lemma find?_of_content (h : (Location.ofPlace p).content t = .ok (q, content)) : t.find? q = some (.file content) := by
  obtain ⟨⟨r, n⟩, hn, h⟩ := bind_eq_ok_iff.1 h
  obtain ⟨target, htarget, hn⟩ := bind_eq_ok_iff.1 hn
  cases target with
  | free => cases hn
  | found s k =>
    cases hn
    cases n with
    | file c =>
      obtain ⟨rfl, rfl⟩ := Prod.mk.inj (Except.ok.inj h)
      exact find?_of_follow htarget
    | _ => cases h

section Uncached

variable (hcache : w.cache = none)
include hcache

lemma run_convert : (m.convert path name content).run w =
    match m.migrator.migrate name content with
    | .ok o => .ok o w
    | .error cause => .error (.convert path cause) w := by
  obtain ⟨files, cache⟩ := w
  obtain rfl : cache = none := hcache
  have hrun : ∀ answer : Except ArchiveFault Outcome, ∀ x : EStateM ArchiveFault CacheSession Outcome,
      ((Workspace.onCache answer x).adaptExcept (MigrationFault.convert path)).run ⟨files, none⟩ =
        match answer with
        | .ok o => .ok o ⟨files, none⟩
        | .error cause => .error (.convert path cause) ⟨files, none⟩ := by
    intro answer x
    cases answer <;> rfl
  exact hrun _ _

lemma ensures_convert_uncached : Ensures w (m.convert path name content)
    (fun o u => m.migrator.migrate name content = .ok o ∧ u = w) fun _ u => u = w := by
  rw [Ensures, run_convert hcache]
  cases m.migrator.migrate name content with
  | ok o => exact ⟨rfl, rfl⟩
  | error cause => rfl

lemma run_tidyCache : m.tidyCache.run w = .ok none w := by
  have hget : (get : MigrationM Workspace).run w = .ok w w := rfl
  rw [tidyCache, run_bind_of_ok hget, Workspace.isEnabled, hcache]
  rfl

end Uncached

lemma run_perform_of_made (hsource : w.files.resolve m.cwd m.source = .ok (source, .directory))
    (hmade : w.files.makeDirectoriesAt m.cwd m.destination = .ok t)
    (hsource' : t.resolve m.cwd m.source = .ok (source, .directory))
    (hdest : t.resolve m.cwd m.destination = .ok (dest, .directory)) :
    m.perform.run w = match t.walkEntries source with
      | .error fault => .error (.walk fault) { w with files := t }
      | .ok entries => (do
          let r ← (selected source dest entries).foldlM (m.migrateEntry source dest)
            (.start m.source m.destination m.migrator.profile.name)
          return { r with cache := ← m.tidyCache } : MigrationM Report).run { w with files := t } := by
  have hs : (onFiles (.sourceUnreadable m.source) (·.resolve m.cwd m.source)).run w = .ok (source, .directory) w :=
    run_onFiles hsource
  have hs' : (onFiles (.sourceUnreadable m.source) (·.resolve m.cwd m.source)).run { w with files := t } =
      .ok (source, .directory) { w with files := t } := run_onFiles hsource'
  have hd : (onFiles (.io m.destination) (·.resolve m.cwd m.destination)).run { w with files := t } =
      .ok (dest, .directory) { w with files := t } := run_onFiles hdest
  have hget : (get : MigrationM Workspace).run { w with files := t } = .ok { w with files := t } { w with files := t } := rfl
  refine (run_bind_of_ok hs).trans ((run_bind_of_ok (run_makeDirectories hmade)).trans ?_)
  have htree : ∀ r, (m.migrateTree r).run { w with files := t } = (match t.walkEntries source with
      | .error fault => throw (.walk fault)
      | .ok entries => (selected source dest entries).foldlM (m.migrateEntry source dest) r : MigrationM Report).run
        { w with files := t } := by
    intro r
    exact (run_bind_of_ok hs').trans ((run_bind_of_ok hd).trans (run_bind_of_ok hget))
  refine (run_bind_congr (htree _)).trans ?_
  cases t.walkEntries source <;> rfl

end NamespaceMigration.Migration
