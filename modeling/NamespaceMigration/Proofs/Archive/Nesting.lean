import Mathlib.Order.OrderIsoNat
import NamespaceMigration.Profile.BuiltIn
import NamespaceMigration.Proofs.Archive.Entries
import NamespaceMigration.Proofs.Archive.Related
import NamespaceMigration.Proofs.Deflate.Streams
import NamespaceMigration.Zip.Format

/-! A chain of archives, each in the one before, that does not end has deflated entries again and again. -/

namespace NamespaceMigration

namespace Zip

variable {entries : List ArchiveEntry} {e e' : ArchiveEntry} {source content : Bytes}

lemma mem_place (h : e ∈ place entries e') : e ∈ entries ∨ e = e' := by
  unfold place at h
  split at h
  · obtain ⟨old, hold, rfl⟩ := List.mem_map.1 h
    split
    · exact .inr rfl
    · exact .inl hold
  · simpa using h

lemma mem_foldl_place {found : List ArchiveEntry} (h : e ∈ found.foldl place entries) : e ∈ entries ∨ e ∈ found := by
  induction found generalizing entries with
  | nil => exact .inl h
  | cons e' found ih =>
    rcases ih h with h | h
    · rcases mem_place h with h | rfl
      · exact .inl h
      · exact .inr List.mem_cons_self
    · exact .inr (List.mem_cons_of_mem _ h)

lemma exists_header (h : list source = some entries) (he : e ∈ entries) : ∃ header : Header, e = header.entry source.toArray := by
  obtain ⟨d, -, hd⟩ := List.exists_of_findSome?_eq_some h
  obtain ⟨headers, -, hplaced⟩ := Option.bind_eq_some_iff.1 hd
  obtain rfl := Option.some.inj hplaced
  rcases mem_foldl_place he with h | h
  · cases h
  · obtain ⟨header, -, rfl⟩ := List.mem_map.1 h
    exact ⟨header, rfl⟩

lemma Header.length_lt_of_data? {h : Header} {data : Bytes} (hd : h.data? source.toArray = some data) :
    data.length < source.length := by
  unfold data? at hd
  dsimp only at hd
  split at hd
  · cases hd
  next hfits =>
    obtain rfl := Option.some.inj hd
    have hlocal : ¬ (Bytes.part source.toArray h.start localSize).length < localSize := fun hlt => hfits (by simp [hlt])
    simp only [Bytes.part_toArray, Bytes.slice, List.length_take, List.length_drop, localSize] at hlocal ⊢
    omega

lemma Header.inflated_of_unpacked {h : Header} {data : Bytes} (hu : h.unpacked data = .ok content) :
    h.inflated data = .ok content := by
  unfold unpacked at hu
  split at hu
  · cases hu
  · split at hu
    · cases hu
    · cases hi : h.inflated data with
      | error fault =>
        rw [hi] at hu
        cases hu
      | ok bytes =>
        rw [hi] at hu
        dsimp only at hu
        split at hu
        · exact hu
        · cases hu

lemma length_lt_of_ne_deflated (h : list source = some entries) (he : e ∈ entries) (hm : e.attributes.method ≠ .deflated)
    (hc : e.content? = some content) : content.length < source.length := by
  obtain ⟨header, rfl⟩ := exists_header h he
  obtain ⟨body, hbody, hcontent⟩ := Option.bind_eq_some_iff.1 hc
  obtain ⟨data, hdata, rfl⟩ := Option.map_eq_some_iff.1 hbody
  have hinflated : header.inflated data = .ok content := Header.inflated_of_unpacked (eq_ok_of_toOption_eq_some hcontent)
  unfold Header.inflated at hinflated
  split at hinflated
  · obtain rfl := Except.ok.inj hinflated
    exact Header.length_lt_of_data? hdata
  next hdeflated => exact absurd hdeflated hm
  · cases hinflated

section Endless

def endlessFacts : Bytes :=
  [20, 0, 0, 0, 8, 0, 0, 0, 0x21, 0, 0xDC, 0xE7, 0xC3, 0xAB, 0x34, 1, 0, 0, 0xD2, 1, 0, 0, 30, 0, 0, 0]

def endlessName : String := "an/archive/that/has/itself.zip"

def endlessHead : Bytes := Header.localSignature ++ endlessFacts ++ Bytes.utf8 endlessName

def endlessTail : Bytes :=
  directorySignature ++ [20, 0] ++ endlessFacts ++ List.replicate 14 0 ++ Bytes.utf8 endlessName ++
    endSignature ++ [0, 0, 0, 0, 1, 0, 1, 0, 76, 0, 0, 0, 0x70, 1, 0, 0, 0, 0]

def endless : Bytes := endlessHead ++ Deflate.reproducing endlessHead endlessTail ++ endlessTail

def endlessHeader : Header :=
  ⟨false, true, 0, 8, 0, 0x21, 0xABC3E7DC, 308, 466, 0, 0, Bytes.utf8 endlessName, endlessName, "", false⟩

lemma list_endless : list endless = some [endlessHeader.entry endless.toArray] := by
  have hdirectories : directories endless.toArray endless = [⟨368, 0, 1⟩] := by decide +kernel
  have hheaders : readHeaders? 0 1 (endless.drop 368) = some [endlessHeader] := by decide +kernel
  simp [list, hdirectories, listFrom?, hheaders, place]

lemma length_endlessHead : endlessHead.length = 60 := by decide +kernel

lemma length_endlessTail : endlessTail.length = 98 := by decide +kernel

lemma data?_endless : endlessHeader.data? endless.toArray = some (Deflate.reproducing endlessHead endlessTail) := by
  have hlocal : Bytes.slice endless 0 30 = endlessHead.take 30 := by
    rw [Bytes.slice, endless, List.drop_zero, List.append_assoc, List.take_append_of_le_length (by simp [length_endlessHead])]
  have hdata : Bytes.slice endless 60 308 = Deflate.reproducing endlessHead endlessTail := by
    have hlength := Deflate.length_reproducing length_endlessHead length_endlessTail
    rw [Bytes.slice, endless, List.append_assoc, List.drop_left' length_endlessHead, List.take_left' hlength]
  have hsigned : (Text.strip? Header.localSignature (endlessHead.take 30)).isNone = false := by decide +kernel
  have hplace : 0 + 30 + word (endlessHead.take 30) 26 + word (endlessHead.take 30) 28 = 60 := by decide +kernel
  unfold Header.data?
  simp only [Bytes.part_toArray, endlessHeader, Header.localSize, hlocal, hplace, hdata, hsigned, List.length_take,
    length_endlessHead]
  rfl

set_option maxRecDepth 10000 in
lemma checksum_endless : Crc32.checksum endless = 0xABC3E7DC := by decide +kernel

lemma content?_endless : (endlessHeader.entry endless.toArray).content? = some endless := by
  have hinflated : endlessHeader.inflated (Deflate.reproducing endlessHead endlessTail) = .ok endless := by
    have hm : endlessHeader.methodOf = .deflated := by decide
    rw [Header.inflated, hm, Deflate.decode_reproducing length_endlessHead length_endlessTail]
    rfl
  have hunpacked : endlessHeader.unpacked (Deflate.reproducing endlessHead endlessTail) = .ok endless := by
    rw [Header.unpacked, hinflated]
    simp [endlessHeader, checksum_endless]
  simp [ArchiveEntry.content?, Header.entry, data?_endless, hunpacked, Except.toOption]

lemma exists_entry_of_endless :
    ∃ entry, list endless = some [entry] ∧ entry.name = endlessName ∧ entry.content? = some endless :=
  ⟨endlessHeader.entry endless.toArray, list_endless, rfl, content?_endless⟩

end Endless

end Zip

namespace Migrator

variable {α β : Type} {g : Migrator} {archive name : String} {source outer inner : Bytes} {entry : ArchiveEntry} {body : EntryBody}

section Faults

variable {nested : String → Bytes → Except ArchiveFault Outcome}

lemma IsTooDeep.of_bind {x : Except ArchiveFault α} {f : α → Except ArchiveFault β} (h : IsTooDeep (x >>= f)) :
    IsTooDeep x ∨ ∃ a, x = .ok a ∧ IsTooDeep (f a) := by
  cases x with
  | ok a => exact .inr ⟨a, rfl, h⟩
  | error fault =>
    obtain ⟨archive, h⟩ := h
    exact .inl ⟨archive, congrArg Except.error (Except.error.inj h)⟩

lemma IsTooDeep.of_foldlM {f : β → α → Except ArchiveFault β} {l : List α} {b : β} (h : IsTooDeep (l.foldlM f b)) :
    ∃ a ∈ l, ∃ c, IsTooDeep (f c a) := by
  induction l generalizing b with
  | nil => exact absurd h (not_isTooDeep_ok b)
  | cons a l ih =>
    rw [List.foldlM_cons] at h
    rcases h.of_bind with h | ⟨c, -, h⟩
    · exact ⟨a, List.mem_cons_self, b, h⟩
    · obtain ⟨a', ha, c, h⟩ := ih h
      exact ⟨a', List.mem_cons_of_mem _ ha, c, h⟩

lemma not_isTooDeep_unpack : ¬ IsTooDeep (unpack archive body : Except ArchiveFault Bytes) := by
  unfold unpack
  rintro ⟨_, h⟩
  split at h <;> cases h

lemma isTooDeep_of_convertKept (h : IsTooDeep (g.convertKept nested archive entry body)) :
    g.treatment entry = .nested ∧ ∃ content, body.content = .ok content ∧ IsTooDeep (nested entry.name content) := by
  unfold convertKept at h
  split at h
  next ht =>
    rcases h.of_bind with h | ⟨content, hcontent, h⟩
    · exact absurd h not_isTooDeep_unpack
    · rcases h.of_bind with h | ⟨outcome, -, h⟩
      · exact ⟨ht, content, unpack_eq_ok_iff.1 hcontent, h⟩
      · exact absurd h (not_isTooDeep_ok _)
  next =>
    rcases h.of_bind with h | ⟨content, -, h⟩
    · exact absurd h not_isTooDeep_unpack
    · unfold convertEntry at h
      cases hc : g.registry.convert g.profile entry.name content with
      | ok c =>
        rw [hc] at h
        exact absurd h (not_isTooDeep_ok c)
      | error fault =>
        rw [hc] at h
        obtain ⟨_, h⟩ := h
        cases h
  next => exact absurd h (not_isTooDeep_ok _)

lemma isTooDeep_of_addEntry {d : Draft} (h : IsTooDeep (g.addEntry nested archive d entry)) :
    g.treatment entry = .nested ∧ ∃ content, entry.content? = some content ∧ IsTooDeep (nested entry.name content) := by
  unfold addEntry at h
  cases hb : entry.body with
  | none =>
    rw [hb] at h
    obtain ⟨_, h⟩ := h
    cases h
  | some body =>
    rw [hb] at h
    dsimp only at h
    split at h
    · exact absurd h (not_isTooDeep_ok _)
    · rcases h.of_bind with h | ⟨c, -, h⟩
      · obtain ⟨ht, content, hcontent, h⟩ := isTooDeep_of_convertKept h
        exact ⟨ht, content, Option.mem_def.1 ((mem_content?_iff hb).2 hcontent), h⟩
      · obtain ⟨_, h⟩ := h
        split at h <;> cases h

lemma isTooDeep_of_migrateArchiveWith (h : IsTooDeep (g.migrateArchiveWith nested archive source)) :
    ∃ name inner, g.Contains source name inner ∧ IsTooDeep (nested name inner) := by
  unfold migrateArchiveWith at h
  cases hl : g.format.list source with
  | none =>
    rw [hl] at h
    obtain ⟨_, h⟩ := h
    cases h
  | some entries =>
    rw [hl] at h
    rcases h.of_bind with h | ⟨d, -, h⟩
    · obtain ⟨entry, he, d, h⟩ := h.of_foldlM
      obtain ⟨ht, inner, hc, h⟩ := isTooDeep_of_addEntry h
      exact ⟨entry.name, inner, ⟨entries, hl, entry, he, ht, rfl, hc⟩, h⟩
    · obtain ⟨_, h⟩ := h
      split at h <;> cases h

lemma isTooDeep_of_first {entries : List ArchiveEntry}
    (hl : g.format.list source = some (entry :: entries)) (ht : g.treatment entry = .nested)
    (hc : entry.content? = some inner) (h : IsTooDeep (nested entry.name inner)) :
    IsTooDeep (g.migrateArchiveWith nested archive source) := by
  obtain ⟨body, hb, hcontent⟩ := Option.bind_eq_some_iff.1 hc
  have hunpack : (unpack archive body : Except ArchiveFault Bytes) = .ok inner :=
    unpack_eq_ok_iff.2 (eq_ok_of_toOption_eq_some hcontent)
  have hkept : IsTooDeep (g.convertKept nested archive entry body) := by
    unfold convertKept
    rw [ht]
    dsimp only
    rw [hunpack]
    exact h.bind _
  have hadd : IsTooDeep (g.addEntry nested archive .empty entry) := by
    unfold addEntry
    rw [hb, ht]
    exact hkept.bind _
  unfold migrateArchiveWith
  rw [hl]
  exact (hadd.bind _).bind _

end Faults

/-- Whether every chain of archives, each of which stands in the one before, comes to an end. -/
def ChainsEnd (g : Migrator) (source : Bytes) : Prop :=
  ∀ chain : ℕ → Bytes, chain 0 = source → ∃ n, ∀ name, ¬ g.Contains (chain n) name (chain (n + 1))

lemma chainsEnd_iff_acc : g.ChainsEnd source ↔ Acc (fun inner outer => ∃ name, g.Contains outer name inner) source := by
  rw [← not_iff_not, not_acc_iff_exists_descending_chain, ChainsEnd]
  push Not
  rfl

lemma ChainsEnd.of_contains (h : g.ChainsEnd outer) (hc : g.Contains outer name inner) : g.ChainsEnd inner :=
  chainsEnd_iff_acc.2 ((chainsEnd_iff_acc.1 h).inv ⟨name, hc⟩)

lemma migrateNested_eq_of_le {n k : ℕ} (hnk : n ≤ k) (h : ¬ IsTooDeep (g.migrateNested n archive source)) :
    g.migrateNested k archive source = g.migrateNested n archive source :=
  ((migrateNested_of_le hnk archive source).resolve_left h).symm

lemma exists_common_depth {entries : List ArchiveEntry}
    (h : ∀ entry ∈ entries, ∀ content, g.treatment entry = .nested → entry.content? = some content →
      ∃ n, ¬ IsTooDeep (g.migrateNested n entry.name content)) :
    ∃ n, ∀ entry ∈ entries, ∀ content, g.treatment entry = .nested → entry.content? = some content →
      ¬ IsTooDeep (g.migrateNested n entry.name content) := by
  induction entries with
  | nil => exact ⟨0, by simp⟩
  | cons entry entries ih =>
    obtain ⟨n, hn⟩ := ih fun e he => h e (List.mem_cons_of_mem _ he)
    have hhead : ∃ m, ∀ content, g.treatment entry = .nested → entry.content? = some content →
        ¬ IsTooDeep (g.migrateNested m entry.name content) := by
      by_cases hc : ∃ content, g.treatment entry = .nested ∧ entry.content? = some content
      · obtain ⟨content, ht, hcontent⟩ := hc
        obtain ⟨m, hm⟩ := h entry List.mem_cons_self content ht hcontent
        refine ⟨m, fun content' _ hcontent' => ?_⟩
        rw [hcontent] at hcontent'
        obtain rfl := Option.some.inj hcontent'
        exact hm
      · exact ⟨0, fun content ht hcontent => absurd ⟨content, ht, hcontent⟩ hc⟩
    obtain ⟨m, hm⟩ := hhead
    refine ⟨max m n, List.forall_mem_cons.2 ⟨fun content ht hcontent => ?_, fun e he content ht hcontent => ?_⟩⟩
    · rw [migrateNested_eq_of_le (Nat.le_max_left m n) (hm content ht hcontent)]
      exact hm content ht hcontent
    · rw [migrateNested_eq_of_le (Nat.le_max_right m n) (hn e he content ht hcontent)]
      exact hn e he content ht hcontent

lemma exists_not_isTooDeep (h : g.ChainsEnd source) (archive : String) : ∃ n, ¬ IsTooDeep (g.migrateNested n archive source) := by
  induction chainsEnd_iff_acc.1 h generalizing archive with
  | intro source _ ih =>
    cases hl : g.format.list source with
    | none =>
      refine ⟨1, fun hdeep => ?_⟩
      obtain ⟨_, _, ⟨entries, hlist, -⟩, -⟩ := isTooDeep_of_migrateArchiveWith hdeep
      cases hl.symm.trans hlist
    | some entries =>
      have hcontains : ∀ entry ∈ entries, ∀ content, g.treatment entry = .nested → entry.content? = some content →
          g.Contains source entry.name content := fun entry he content ht hc => ⟨entries, hl, entry, he, ht, rfl, hc⟩
      obtain ⟨n, hn⟩ := exists_common_depth fun entry he content ht hc =>
        ih content ⟨entry.name, hcontains entry he content ht hc⟩ (h.of_contains (hcontains entry he content ht hc)) entry.name
      refine ⟨n + 1, fun hdeep => ?_⟩
      obtain ⟨_, inner, ⟨entries', hlist, entry, he, ht, rfl, hc⟩, hdeep⟩ := isTooDeep_of_migrateArchiveWith hdeep
      obtain rfl := Option.some.inj (hl.symm.trans hlist)
      exact hn entry he inner ht hc hdeep

lemma chainsEnd_of_migrateNested {depth : ℕ} {outcome : Outcome} (h : g.migrateNested depth archive source = .ok outcome) :
    g.ChainsEnd source := by
  rw [chainsEnd_iff_acc]
  induction depth generalizing archive source outcome with
  | zero => cases h
  | succ depth ih =>
    obtain ⟨entries, hlist, d, hd, -⟩ := migrateArchiveWith_eq_ok_iff.1 h
    refine ⟨source, ?_⟩
    rintro inner ⟨name, entries', hlist', entry, he, ht, -, hc⟩
    obtain rfl := Option.some.inj (hlist.symm.trans hlist')
    obtain ⟨d, d', hadd⟩ := exists_eq_ok_of_foldlM hd he
    obtain ⟨body, hb, ⟨hdropped, -⟩ | ⟨-, c, hkept, -⟩⟩ := addEntry_eq_ok_iff.1 hadd
    · rw [ht] at hdropped
      cases hdropped
    · obtain ⟨-, content, hcontent, outcome, hnested, -⟩ | ⟨ht', -⟩ | ⟨hne, -⟩ := convertKept_eq_ok_iff.1 hkept
      · have hcontent' := (mem_content?_iff hb).2 hcontent
        obtain rfl := Option.some.inj (hc.symm.trans (Option.mem_def.1 hcontent'))
        exact ih hnested
      · rw [ht] at ht'
        cases ht'
      · exact absurd ht hne

lemma exists_deflated_of_chain (hz : g.format = Zip.format) {chain : ℕ → Bytes}
    (h : ∀ n, ∃ name, g.Contains (chain n) name (chain (n + 1))) (n : ℕ) :
    ∃ k ≥ n, (chain k).length ≤ (chain (k + 1)).length ∧ ∃ entries, Zip.list (chain k) = some entries ∧
      ∃ entry ∈ entries, g.treatment entry = .nested ∧ entry.content? = some (chain (k + 1)) ∧
        entry.attributes.method = .deflated := by
  by_contra hnone
  push Not at hnone
  -- from `n` on, the archives would get smaller and smaller
  have hshorter : ∀ i, (chain (n + i + 1)).length < (chain (n + i)).length := by
    intro i
    obtain ⟨name, entries, hlist, entry, he, ht, -, hc⟩ := h (n + i)
    rw [hz] at hlist
    by_contra hlength
    have hmethod := hnone (n + i) (Nat.le_add_right n i) (Nat.le_of_not_lt hlength) entries hlist entry he ht hc
    exact hlength (Zip.length_lt_of_ne_deflated hlist he hmethod hc)
  exact not_strictAnti_of_wellFoundedLT (fun i => (chain (n + i)).length) (strictAnti_nat_of_succ_lt hshorter)

/-- A migration ends where all chains end: from some depth on it comes to the same, however deep it may go. It succeeds only
there, and a chain of zip archives without end goes through deflated entries no smaller than their archives. -/
theorem migrateNested_of_chainsEnd (g : Migrator) (source : Bytes) :
    (g.ChainsEnd source → ∀ archive, ∃ n, ∀ depth ≥ n,
      ¬ IsTooDeep (g.migrateNested depth archive source) ∧
      g.migrateNested depth archive source = g.migrateNested n archive source) ∧
    (∀ depth archive outcome, g.migrateNested depth archive source = .ok outcome → g.ChainsEnd source) ∧
    (g.format = Zip.format → ∀ chain : ℕ → Bytes, (∀ n, ∃ name, g.Contains (chain n) name (chain (n + 1))) →
      ∀ n, ∃ k ≥ n, (chain k).length ≤ (chain (k + 1)).length ∧ ∃ entries, Zip.list (chain k) = some entries ∧
        ∃ entry ∈ entries, g.treatment entry = .nested ∧ entry.content? = some (chain (k + 1)) ∧
          entry.attributes.method = .deflated) := by
  refine ⟨fun h archive => ?_, fun _ _ _ h => chainsEnd_of_migrateNested h, fun hz _ h => exists_deflated_of_chain hz h⟩
  obtain ⟨n, hn⟩ := exists_not_isTooDeep h archive
  refine ⟨n, fun depth hdepth => ?_⟩
  have hsame := migrateNested_eq_of_le hdepth hn
  exact ⟨fun hdeep => hn (hsame ▸ hdeep), hsame⟩

set_option maxRecDepth 20000 in
theorem migrateNested_of_chainsEnd_of_nested :
    let g : Migrator := { forZip BuiltIn.tomcatProfile with excludes := .none }
    let source := nestedArchive "javax/servlet/a"
    (∃ name inner, g.Contains source name inner) ∧ g.ChainsEnd source ∧
      ∃ n outcome, outcome.changed = true ∧ ∀ depth ≥ n, g.migrateNested depth "a.jar" source = .ok outcome := by
  intro g source
  obtain ⟨hends, hchains, -⟩ := migrateNested_of_chainsEnd g source
  have hok : (g.migrateNested 2 "a.jar" source).toOption.any (·.changed) = true := by decide +kernel
  have hdeep : IsTooDeep (g.migrateNested 1 "a.jar" source) := ⟨"b.jar", by decide +kernel⟩
  obtain ⟨name, inner, hcontains, -⟩ := isTooDeep_of_migrateArchiveWith hdeep
  obtain ⟨outcome, houtcome, hchanged⟩ := (Option.any_eq_true _ _).1 hok
  have h := eq_ok_of_toOption_eq_some houtcome
  obtain ⟨n, hn⟩ := hends (hchains 2 "a.jar" outcome h) "a.jar"
  refine ⟨⟨name, inner, hcontains⟩, hchains 2 "a.jar" outcome h, n, outcome, hchanged, fun depth hdepth => ?_⟩
  calc g.migrateNested depth "a.jar" source
    _ = g.migrateNested n "a.jar" source := (hn depth hdepth).2
    _ = g.migrateNested (max n 2) "a.jar" source := (hn _ (Nat.le_max_left n 2)).2.symm
    _ = g.migrateNested 2 "a.jar" source := migrateNested_eq_of_le (Nat.le_max_right n 2) (h ▸ not_isTooDeep_ok outcome)
    _ = .ok outcome := h

/-- An archive that has itself in it is given up at every depth. -/
theorem migrateNested_endless :
    let g : Migrator := { forZip BuiltIn.tomcatProfile with excludes := .none }
    g.Contains Zip.endless Zip.endlessName Zip.endless ∧ ¬ g.ChainsEnd Zip.endless ∧
      ∀ depth archive, IsTooDeep (g.migrateNested depth archive Zip.endless) := by
  intro g
  obtain ⟨entry, hlist, hname, hcontent⟩ := Zip.exists_entry_of_endless
  have htreatment : g.treatment entry = .nested := by
    rw [treatment, ArchiveEntry.isDirectory, hname]
    decide +kernel
  have hformat : g.format.list = Zip.list := rfl
  rw [← hformat] at hlist
  have hcontains : g.Contains Zip.endless Zip.endlessName Zip.endless :=
    ⟨_, hlist, entry, List.mem_singleton_self entry, htreatment, hname, hcontent⟩
  refine ⟨hcontains, fun h => ?_, fun depth => ?_⟩
  · obtain ⟨n, hn⟩ := h (fun _ => Zip.endless) rfl
    exact hn _ hcontains
  · induction depth with
    | zero => exact fun archive => ⟨archive, rfl⟩
    | succ depth ih => exact fun archive => isTooDeep_of_first hlist htreatment hcontent (ih entry.name)

end Migrator

end NamespaceMigration
