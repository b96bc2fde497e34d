import NamespaceMigration.Proofs.Cache.Saving
import NamespaceMigration.Proofs.Cache.Sharing

/-! Saving the metadata of a shared directory. -/

namespace NamespaceMigration.Site

open FileTree CacheLayout Steps Cache

variable {s : Site} {root : Place} {i j : ℕ} {l : Ledger} {key : CacheKey} {d : Date} {order : List ℕ}

structure Ready (root : Place) (s : Site) : Prop where
  at_root : s.At root
  reaches : s.files.Reaches root
  lock : s.files.isFile (lockPlace root) = true
  metadata : s.files.find? (metadataPlace root) ≠ some .directory

structure Dated (root : Place) (s : Site) : Prop where
  ordered : ∀ i l, s.ledger? i = some l → l.session.cache.metadata.Ordered
  remembered : ∀ i l key d, s.ledger? i = some l → l.session.cache.metadata.get? key = some d → d.Written
  recorded : ∀ key d, (recorded root s.files).get? key = some d → d.Written

def days (root : Place) (s : Site) (key : CacheKey) : Set Date :=
  {d | (recorded root s.files).get? key = some d ∨
    ∃ i l, s.ledger? i = some l ∧ l.session.cache.metadata.get? key = some d}

def Saved (root : Place) (i : ℕ) (s : Site) : Prop :=
  ∀ l key d, s.ledger? i = some l → s.files.isFile (objectPlace root key) = true →
    l.session.cache.metadata.Knows key d → (recorded root s.files).Knows key d

def saves (order : List ℕ) : List Step := order.map fun i => .act i .save

structure AfterSave (root : Place) (s : Site) (i : ℕ) (l : Ledger) (s' : Site) : Prop where
  ledger : ∃ m, s'.ledger? i = some m ∧ m.session.cache.root = root ∧ m.session.cache.metadata = merged l.session
  others : ∀ j, j ≠ i → s'.ledger? j = (s.ledger? j).map fun m => m.withFiles s'.files
  files : ∀ p, s'.files.find? p =
    if p = metadataPlace root then some (.file (Bytes.utf8 (merged l.session).toText)) else s.files.find? p

lemma run_save (h : s.Ready root) (hl : s.ledger? i = some l) :
    ∃ u, save.run l.session = .ok () u ∧ AfterSave root s i l (s.step (.act i .save)) := by
  have hroot := h.at_root i l hl
  have hfiles := files_of_ledger? hl
  obtain ⟨_, u, hrun, ⟨n, hcache⟩, hu⟩ := (ensures_save (s := l.session) (by rw [hroot, hfiles]; exact h.reaches)
    (by rw [hroot, hfiles]; exact h.lock) (by rw [hroot, hfiles]; exact h.metadata)).exists_ok
  have hact : l.act .save = { l with session := u } := by rw [Ledger.act, hrun, after]
  rw [hroot, hfiles] at hu
  refine ⟨u, hrun, ⟨l.act .save, ledger?_step_act hl _, ?_, ?_⟩, fun j hj => ?_, ?_⟩
  · rw [hact, hcache, hroot]
  · rw [hact, hcache]
  · rw [step_act hl, ledger?_update, if_neg hj]
  · rw [step_act hl, hact]
    exact hu

lemma exists_mem_days_iff : (∃ e ∈ s.days root key, d ≤ e) ↔ (recorded root s.files).Knows key d ∨
    ∃ i l, s.ledger? i = some l ∧ l.session.cache.metadata.Knows key d := by
  constructor
  · rintro ⟨e, he | ⟨i, l, hl, he⟩, hle⟩
    · exact .inl ⟨e, he, hle⟩
    · exact .inr ⟨i, l, hl, e, he, hle⟩
  · rintro (⟨e, he, hle⟩ | ⟨i, l, hl, e, he, hle⟩)
    · exact ⟨e, .inl he, hle⟩
    · exact ⟨e, .inr ⟨i, l, hl, he⟩, hle⟩

section Merging

variable (h : s.Ready root) (hd : s.Dated root) (hl : s.ledger? i = some l)
include h hl

lemma knows_merged_iff (hkey : s.files.isFile (objectPlace root key) = true) : (merged l.session).Knows key d ↔
    l.session.cache.metadata.Knows key d ∨ (recorded root s.files).Knows key d := by
  rw [knows_merged, h.at_root i l hl, files_of_ledger? hl, hkey]
  simp

include hd

lemma written_merged (hm : (merged l.session).get? key = some d) : d.Written := by
  rcases get?_merged hm with hm | ⟨-, hm⟩
  · exact hd.remembered i l key d hl hm
  · rw [h.at_root i l hl, files_of_ledger? hl] at hm
    exact hd.recorded key d hm

omit h in
lemma ordered_merged : (merged l.session).Ordered := by
  have hwell : l.session.cache.metadata.WellFormed :=
    ⟨hd.ordered i l hl, fun key d hm => (hd.remembered i l key d hl hm).1⟩
  exact (wellFormed_merged hwell).ordered

end Merging

namespace AfterSave

variable {s' : Site} (ha : AfterSave root s i l s') (h : s.Ready root) (hd : s.Dated root) (hl : s.ledger? i = some l)
include ha

lemma find?_of_ne {p : Place} (hp : p ≠ metadataPlace root) : s'.files.find? p = s.files.find? p :=
  (ha.files p).trans (if_neg hp)

lemma isFile_objectPlace (key : CacheKey) : s'.files.isFile (objectPlace root key) = s.files.isFile (objectPlace root key) := by
  rw [isFile, isFile, ha.find?_of_ne (objectPlace_ne_append root key Metadata.fileName)]

lemma exists_ledger {m : Ledger} (hj : s'.ledger? j = some m) :
    j = i ∧ m.session.cache.root = root ∧ m.session.cache.metadata = merged l.session ∨
      j ≠ i ∧ ∃ m', s.ledger? j = some m' ∧ m.session.cache = m'.session.cache := by
  by_cases hji : j = i
  · subst hji
    obtain ⟨m', hm', hroot, hmetadata⟩ := ha.ledger
    obtain rfl := Option.some.inj (hj.symm.trans hm')
    exact .inl ⟨rfl, hroot, hmetadata⟩
  · rw [ha.others j hji] at hj
    obtain ⟨m', hm', rfl⟩ := Option.map_eq_some_iff.1 hj
    exact .inr ⟨hji, m', hm', rfl⟩

include h

lemma ready : s'.Ready root where
  at_root j m hm := by
    rcases ha.exists_ledger hm with ⟨-, hroot, -⟩ | ⟨-, m', hm', hcache⟩
    · exact hroot
    · rw [hcache, h.at_root j m' hm']
  reaches q hq := by
    have hne : q ≠ metadataPlace root := by
      rintro rfl
      have hlen := hq.length_le
      simp [metadataPlace] at hlen
    exact (ha.find?_of_ne hne).trans (h.reaches q hq)
  lock := by
    have hne : lockPlace root ≠ metadataPlace root := by
      simp [lockPlace, metadataPlace, lockName, Metadata.fileName]
    rw [isFile, ha.find?_of_ne hne]
    exact h.lock
  metadata := by
    rw [ha.files, if_pos rfl]
    simp

include hd hl

lemma get?_recorded (key : CacheKey) : (recorded root s'.files).get? key = (merged l.session).get? key := by
  rw [recorded_of_file (ha.ready h).reaches ((ha.files _).trans (if_pos rfl)),
    Metadata.get?_parse_toText_of_written (ordered_merged hd hl) fun _ _ hm => written_merged h hd hl hm]

lemma dated : s'.Dated root where
  ordered j m hm := by
    rcases ha.exists_ledger hm with ⟨-, -, hmetadata⟩ | ⟨-, m', hm', hcache⟩
    · rw [hmetadata]
      exact ordered_merged hd hl
    · rw [hcache]
      exact hd.ordered j m' hm'
  remembered j m key d hm hd' := by
    rcases ha.exists_ledger hm with ⟨-, -, hmetadata⟩ | ⟨-, m', hm', hcache⟩
    · rw [hmetadata] at hd'
      exact written_merged h hd hl hd'
    · rw [hcache] at hd'
      exact hd.remembered j m' key d hm' hd'
  recorded key d hd' := by
    rw [ha.get?_recorded h hd hl] at hd'
    exact written_merged h hd hl hd'

lemma knows_recorded_iff (hkey : s.files.isFile (objectPlace root key) = true) : (recorded root s'.files).Knows key d ↔
    l.session.cache.metadata.Knows key d ∨ (recorded root s.files).Knows key d := by
  rw [← knows_merged_iff h hl hkey, Metadata.Knows, ha.get?_recorded h hd hl, Metadata.Knows]

lemma exists_mem_days_iff (hkey : s.files.isFile (objectPlace root key) = true) :
    (∃ e ∈ s'.days root key, d ≤ e) ↔ ∃ e ∈ s.days root key, d ≤ e := by
  rw [Site.exists_mem_days_iff, Site.exists_mem_days_iff, ha.knows_recorded_iff h hd hl hkey]
  constructor
  · rintro ((hk | hk) | ⟨j, m, hm, hk⟩)
    · exact .inr ⟨i, l, hl, hk⟩
    · exact .inl hk
    · rcases ha.exists_ledger hm with ⟨-, -, hmetadata⟩ | ⟨-, m', hm', hcache⟩
      · rw [hmetadata, knows_merged_iff h hl hkey] at hk
        exact hk.elim (fun hk => .inr ⟨i, l, hl, hk⟩) .inl
      · exact .inr ⟨j, m', hm', hcache ▸ hk⟩
  · rintro (hk | ⟨j, m, hm, hk⟩)
    · exact .inl (.inr hk)
    · by_cases hj : j = i
      · subst hj
        obtain rfl := Option.some.inj (hl.symm.trans hm)
        exact .inl (.inl hk)
      · exact .inr ⟨j, _, (ha.others j hj).trans (congrArg _ hm), hk⟩

lemma saved_self : Saved root i s' := by
  intro m key d hm hkey hk
  rw [ha.isFile_objectPlace] at hkey
  obtain ⟨m', hm', -, hmetadata⟩ := ha.ledger
  obtain rfl := Option.some.inj (hm.symm.trans hm')
  rwa [hmetadata, knows_merged_iff h hl hkey, ← ha.knows_recorded_iff h hd hl hkey] at hk

lemma saved (hj : Saved root j s) : Saved root j s' := by
  by_cases hji : j = i
  · exact hji ▸ ha.saved_self h hd hl
  · intro m key d hm hkey hk
    rw [ha.isFile_objectPlace] at hkey
    rw [ha.others j hji] at hm
    obtain ⟨m', hm', rfl⟩ := Option.map_eq_some_iff.1 hm
    exact (ha.knows_recorded_iff h hd hl hkey).2 (.inr (hj m' key d hm' hkey hk))

end AfterSave

/-- What saves come to, in any order and however often. -/
structure AfterSaves (root : Place) (s : Site) (order : List ℕ) (s' : Site) : Prop where
  ready : s'.Ready root
  dated : s'.Dated root
  objects : ∀ key, s'.files.isFile (objectPlace root key) = s.files.isFile (objectPlace root key)
  known : ∀ key d, s.files.isFile (objectPlace root key) = true →
    ((∃ e ∈ s'.days root key, d ≤ e) ↔ ∃ e ∈ s.days root key, d ≤ e)
  saved : ∀ j, j ∈ order ∨ Saved root j s → Saved root j s'
  owners : ∀ j, s'.ledger? j = none ↔ s.ledger? j = none

lemma afterSaves_run (h : s.Ready root) (hd : s.Dated root) (order : List ℕ) :
    AfterSaves root s order (s.run (saves order)) := by
  induction order generalizing s with
  | nil => exact ⟨h, hd, fun _ => rfl, fun _ _ _ => .rfl, fun j hj => hj.resolve_left (by simp), fun _ => .rfl⟩
  | cons i order ih =>
    cases hl : s.ledger? i with
    | none =>
      have hidle : s.step (.act i .save) = s := by rw [step, hl]
      have hnone : Saved root i s := by
        intro l _ _ hsome
        cases hl.symm.trans hsome
      have hrest := ih h hd
      rw [saves, List.map_cons]
      change AfterSaves root s (i :: order) ((s.step (.act i .save)).run (saves order))
      rw [hidle]
      refine { hrest with saved := fun j hj => hrest.saved j ?_ }
      rcases hj with hj | hj
      · rcases List.mem_cons.1 hj with rfl | hj
        · exact .inr hnone
        · exact .inl hj
      · exact .inr hj
    | some l =>
      obtain ⟨u, -, ha⟩ := run_save h hl
      have hrest := ih (ha.ready h) (ha.dated h hd hl)
      refine ⟨hrest.ready, hrest.dated, fun key => ?_, fun key d hkey => ?_, fun j hj => hrest.saved j ?_, fun j => ?_⟩
      · exact (hrest.objects key).trans (ha.isFile_objectPlace key)
      · exact (hrest.known key d ((ha.isFile_objectPlace key).trans hkey)).trans (ha.exists_mem_days_iff h hd hl hkey)
      · rcases hj with hj | hj
        · rcases List.mem_cons.1 hj with rfl | hj
          · exact .inr (ha.saved_self h hd hl)
          · exact .inl hj
        · exact .inr (ha.saved h hd hl hj)
      · refine (hrest.owners j).trans ?_
        by_cases hj : j = i
        · obtain ⟨m, hm, -⟩ := ha.ledger
          simp [hj, hm, hl]
        · rw [ha.others j hj, Option.map_eq_none_iff]

/-- Saving loses no access: all saves end well, and when every handle has saved at least once, the latest of all days that
were recorded or remembered is recorded for each object that is there, in whatever order that was. -/
theorem recorded_saves_iff_isGreatest (h : s.Ready root) (hd : s.Dated root)
    (hall : ∀ i, s.ledger? i ≠ none → i ∈ order) :
    (∀ before i l, (s.run (saves before)).ledger? i = some l → ∃ u, save.run l.session = .ok () u) ∧
    (∀ key, (s.run (saves order)).files.isFile (objectPlace root key) = s.files.isFile (objectPlace root key)) ∧
    (∀ key, s.files.isFile (objectPlace root key) = true → ∀ d,
      (recorded root (s.run (saves order)).files).get? key = some d ↔ IsGreatest (s.days root key) d) ∧
    ∀ order', (∀ i, s.ledger? i ≠ none → i ∈ order') → ∀ key, s.files.isFile (objectPlace root key) = true →
      (recorded root (s.run (saves order')).files).get? key = (recorded root (s.run (saves order)).files).get? key := by
  have hgreatest : ∀ order, (∀ i, s.ledger? i ≠ none → i ∈ order) → ∀ key,
      s.files.isFile (objectPlace root key) = true → ∀ d,
        (recorded root (s.run (saves order)).files).get? key = some d ↔ IsGreatest (s.days root key) d := by
    intro order hall key hkey d
    have hrun := afterSaves_run h hd order
    refine Metadata.get?_eq_some_iff_isGreatest fun e => ?_
    -- what handles know when all have saved is recorded, so that the file alone has all days
    rw [← hrun.known key e hkey, exists_mem_days_iff]
    refine ⟨.inl, fun hk => hk.elim id ?_⟩
    rintro ⟨i, l, hl, hk⟩
    have hi : i ∈ order := hall i fun hnone => by
      rw [(hrun.owners i).2 hnone] at hl
      cases hl
    exact hrun.saved i (.inl hi) l key e hl ((hrun.objects key).trans hkey) hk
  refine ⟨fun before i l hl => ?_, (afterSaves_run h hd order).objects, hgreatest order hall, fun order' hall' key hkey => ?_⟩
  · obtain ⟨u, hrun, -⟩ := run_save (afterSaves_run h hd before).ready hl
    exact ⟨u, hrun⟩
  · apply Option.ext
    intro d
    rw [hgreatest order' hall' key hkey d, hgreatest order hall key hkey d]

theorem recorded_saves_of_two_owners :
    let key : CacheKey := ⟨"0123456789abcdef0123456789abcdef0123456789abcdef0123456789abcdef", by decide⟩
    let t : FileTree := ⟨[(["cache"], .directory), (["cache", ".lock"], .file []), (["cache", "01"], .directory),
      (objectPlace ["cache"] key, .file [1]),
      (metadataPlace ["cache"], .file (Bytes.utf8 (Metadata.toText ⟨[(key, ⟨2024, 2, 1⟩)]⟩)))], []⟩
    let handle (i : ℕ) (d : Date) : Ledger := .fresh ⟨⟨"cache", ["cache"], 30, i, 0, ⟨[(key, d)]⟩⟩, t⟩
    let s : Site := ⟨t, fun i => if i = 1 then some (handle 1 ⟨2024, 1, 5⟩) else
      if i = 2 then some (handle 2 ⟨2024, 3, 1⟩) else none⟩
    (recorded ["cache"] (s.run (saves [2, 1])).files).get? key = some ⟨2024, 3, 1⟩ ∧
      (recorded ["cache"] (s.run (saves [1, 2, 1])).files).get? key = some ⟨2024, 3, 1⟩ := by
  intro key t handle s
  have hledger : ∀ i l, s.ledger? i = some l → i = 1 ∧ l = handle 1 ⟨2024, 1, 5⟩ ∨ i = 2 ∧ l = handle 2 ⟨2024, 3, 1⟩ := by
    intro i l hl
    obtain ⟨m, hm, rfl⟩ := ledger?_eq_some_iff.1 hl
    dsimp only [s] at hm
    split_ifs at hm with h₁ h₂
    · obtain rfl := Option.some.inj hm
      exact .inl ⟨h₁, rfl⟩
    · obtain rfl := Option.some.inj hm
      exact .inr ⟨h₂, rfl⟩
  have hready : s.Ready ["cache"] := by
    refine ⟨?_, reaches_concat.2 ⟨reaches_nil _, by decide +kernel⟩, by decide +kernel, by decide +kernel⟩
    intro i l hl
    rcases hledger i l hl with ⟨-, rfl⟩ | ⟨-, rfl⟩ <;> rfl
  have hrecorded : recorded ["cache"] s.files = ⟨[(key, ⟨2024, 2, 1⟩)]⟩ := by
    have hfile : s.files.find? (metadataPlace ["cache"]) =
        some (.file (Bytes.utf8 (Metadata.toText ⟨[(key, ⟨2024, 2, 1⟩)]⟩))) := by decide +kernel
    rw [recorded_of_file hready.reaches hfile, Metadata.parse_toText (List.pairwise_singleton _ _)]
    decide +kernel
  have hsingle : ∀ {d d' key'}, (⟨[(key, d)]⟩ : Metadata).get? key' = some d' → d' = d := by
    intro d d' key' h
    exact (Prod.mk.inj (List.mem_singleton.1 (Metadata.mem_of_get? h))).2
  have hdated : s.Dated ["cache"] := by
    refine ⟨?_, ?_, ?_⟩
    · intro i l hl
      rcases hledger i l hl with ⟨-, rfl⟩ | ⟨-, rfl⟩ <;> exact List.pairwise_singleton _ _
    · intro i l key' d hl hd
      rcases hledger i l hl with ⟨-, rfl⟩ | ⟨-, rfl⟩
      · exact hsingle hd ▸ by decide
      · exact hsingle hd ▸ by decide
    · intro key' d hd
      rw [hrecorded] at hd
      exact hsingle hd ▸ by decide
  have hall : ∀ order : List ℕ, 1 ∈ order → 2 ∈ order → ∀ i, s.ledger? i ≠ none → i ∈ order := by
    intro order h₁ h₂ i hi
    obtain ⟨l, hl⟩ := Option.ne_none_iff_exists'.1 hi
    rcases hledger i l hl with ⟨rfl, -⟩ | ⟨rfl, -⟩
    · exact h₁
    · exact h₂
  have hgreatest : IsGreatest (s.days ["cache"] key) ⟨2024, 3, 1⟩ := by
    refine ⟨.inr ⟨2, handle 2 ⟨2024, 3, 1⟩, rfl, Metadata.get?_set .empty key ⟨2024, 3, 1⟩ key |>.trans (if_pos rfl)⟩, ?_⟩
    rintro d (hd | ⟨i, l, hl, hd⟩)
    · rw [hrecorded] at hd
      exact hsingle hd ▸ by decide
    · rcases hledger i l hl with ⟨-, rfl⟩ | ⟨-, rfl⟩
      · exact hsingle hd ▸ by decide
      · exact (hsingle hd).le
  obtain ⟨-, -, hday, hsame⟩ := recorded_saves_iff_isGreatest hready hdated (hall [2, 1] (by decide) (by decide))
  have hkey : s.files.isFile (objectPlace ["cache"] key) = true := by decide +kernel
  have hlatest := (hday key hkey _).2 hgreatest
  exact ⟨hlatest, (hsame [1, 2, 1] (hall _ (by decide) (by decide)) key hkey).trans hlatest⟩

end NamespaceMigration.Site
