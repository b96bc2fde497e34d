import NamespaceMigration.Proofs.Archive.Names
import NamespaceMigration.Proofs.ClassFile.Repetition
import NamespaceMigration.Proofs.Manifest.Repetition

namespace NamespaceMigration

section Converters

variable {p : Profile} {path path' : String} {source : Bytes} {c : Conversion}

/-- Whether a file is one whose conversion can be repeated: its class has slots that can be counted, its manifest is as
the format of manifests has it. -/
structure Repeatable (path : String) (source : Bytes) : Prop where
  classFile : extension path = "class" → ∀ c, ClassFile.parse source = .ok c → c.pool.slots.size ≤ 65535
  manifest : Converter.isManifestPath path = true → ∀ m, Manifest.parse source = .ok m → ∀ s ∈ m.sections, s.WellFormed

lemma Registry.find_builtIn (path : String) : builtIn.find path = .text ∨
    builtIn.find path = .classFile none ∧ extension path = "class" ∨
    builtIn.find path = .manifest ∧ Converter.isManifestPath path = true ∨ builtIn.find path = .passThrough := by
  simp only [find, builtIn, withResolver, List.find?_cons]
  cases Converter.text.accepts path with
  | true => exact .inl rfl
  | false =>
    cases hc : (Converter.classFile none).accepts path with
    | true => exact .inr (.inl ⟨rfl, beq_iff_eq.1 hc⟩)
    | false =>
      cases hm : Converter.manifest.accepts path with
      | true => exact .inr (.inr (.inl ⟨rfl, hm⟩))
      | false => exact .inr (.inr (.inr rfl))

structure Profile.Repeats (p : Profile) : Prop where
  careful : p.Careful
  names : p.SparesNames
  versions : p.SparesVersions
  directories : p.KeepsDirectories

lemma Converter.changed_convertText_convertText (hp : p.Distinct UInt8) (source : Bytes) :
    (convertText p ((convertText p source).bytes source)).changed = false := by
  have hfree : p.Free ((convertText p source).bytes source) := by
    rw [convertText]
    split
    · rw [Conversion.bytes, Conversion.replaced, Option.getD_some, hp.value_migrateBytes]
      exact hp.free_pass source
    next h => rwa [hp.changed_migrateBytes_iff, not_not] at h
  rw [convertText, if_neg]
  · rfl
  · rwa [hp.changed_migrateBytes_iff, not_not]

lemma Registry.exists_convert_again (hp : p.Repeats) (hfind : builtIn.find path' = builtIn.find path) (hs : Repeatable path source)
    (h : builtIn.convert p path source = .ok c) :
    ∃ again, builtIn.convert p path' (c.bytes source) = .ok again ∧ again.changed = false := by
  rw [convert] at h ⊢
  rw [hfind]
  rcases find_builtIn path with hf | ⟨hf, hclass⟩ | ⟨hf, hmanifest⟩ | hf
  · rw [hf] at h ⊢
    obtain rfl := Except.ok.inj h
    exact ⟨_, rfl, Converter.changed_convertText_convertText hp.careful.regular.octets source⟩
  · rw [hf] at h ⊢
    cases hc : ClassFile.parse source with
    | error fault =>
      obtain ⟨d, hd, -⟩ := bind_eq_ok_iff.1 (mapError_eq_ok_iff.1 h)
      rw [hc] at hd
      cases hd
    | ok d => exact ⟨_, ClassFile.convert_eq_kept_of_convert hp.careful hc (hs.classFile hclass d hc) h path', rfl⟩
  · rw [hf] at h ⊢
    obtain ⟨again, ha, hch⟩ := Manifest.convertBytes_convertBytes hp.versions (hs.manifest hmanifest) (mapError_eq_ok_iff.1 h)
    exact ⟨again, mapError_eq_ok_iff.2 ha, hch⟩
  · rw [hf] at h ⊢
    exact ⟨.kept, rfl, rfl⟩

end Converters

namespace Migrator

variable {g : Migrator} {archive : String} {source : Bytes} {entry read : ArchiveEntry} {d : Draft}
  {nested : String → Bytes → Except ArchiveFault Outcome}

def Settled (g : Migrator) (nested : String → Bytes → Except ArchiveFault Outcome) (entry : ArchiveEntry) : Prop :=
  g.treatment entry ≠ .dropped ∧ g.profile.migrate entry.name = ⟨entry.name, false⟩ ∧
    ∃ body c, entry.body = some body ∧ (∀ archive, g.convertKept nested archive entry body = .ok c) ∧ c.changed = false

lemma exists_foldlM_of_settled {entries : List ArchiveEntry} (h : ∀ entry ∈ entries, g.Settled nested entry)
    (hn : (entries.map ArchiveEntry.name).Nodup) (hd : d.changed = false) (ht : ∀ entry ∈ entries, d.isTaken entry.name = false) :
    ∃ d', entries.foldlM (g.addEntry nested archive) d = .ok d' ∧ d'.changed = false := by
  induction entries generalizing d with
  | nil => exact ⟨d, rfl, hd⟩
  | cons entry entries ih =>
    obtain ⟨⟨hdropped, hname, body, c, hb, hc, hch⟩, hrest⟩ := List.forall_mem_cons.1 h
    obtain ⟨hnew, hn⟩ := List.nodup_cons.1 hn
    obtain ⟨htaken, hothers⟩ := List.forall_mem_cons.1 ht
    have hadd : g.addEntry nested archive d entry = .ok { d.note false c.asked with
        written := output entry.name entry.attributes body.packed c :: d.written } := by
      refine addEntry_eq_ok_iff.2 ⟨body, hb, .inr ⟨hdropped, c, hc archive, ?_, ?_⟩⟩
      · rw [hname]
        exact htaken
      · rw [hname, hch, Bool.or_false]
    obtain ⟨d', hfold, hd'⟩ := @ih { d.note false c.asked with
        written := output entry.name entry.attributes body.packed c :: d.written } hrest hn (by simp [Draft.note, hd])
      fun other ho => by
        have hne : entry.name ≠ other.name := fun he => hnew (he ▸ List.mem_map_of_mem ho)
        have hother := hothers other ho
        simp only [Draft.isTaken, List.any_cons, name_output, beq_eq_false_iff_ne.2 hne, Bool.false_or] at hother ⊢
        exact hother
    refine ⟨d', ?_, hd'⟩
    rw [List.foldlM_cons, hadd]
    exact hfold

def HasRepeatable (g : Migrator) (source : Bytes) : Prop :=
  ∀ entries, g.format.list source = some entries → ∀ entry ∈ entries, g.treatment entry = .converted →
    ∀ content ∈ entry.content?, Repeatable entry.name content

section Repetition

variable (hp : g.profile.Repeats) (hregistry : g.registry = .builtIn) (hglobs : g.excludes.globs = [])

include hp hregistry hglobs

lemma settled_of_becomes (hd : g.treatment entry ≠ .dropped) (hb : g.Becomes nested entry read)
    (hs : g.treatment entry = .converted → ∀ content ∈ entry.content?, Repeatable entry.name content)
    (hn : ∀ content ∈ entry.content?, g.treatment entry = .nested → ∀ outcome, nested entry.name content = .ok outcome →
      ∃ again, nested read.name outcome.bytes = .ok again ∧ again.changed = false) : g.Settled nested read := by
  have htreatment : g.treatment read = g.treatment entry :=
    treatment_eq_of_migrate hp.names hglobs hb.name (hb.directory hp.directories)
  refine ⟨htreatment ▸ hd, hb.name ▸ hp.names.migrate_migrate entry.name, ?_⟩
  have hbody : ∀ content ∈ read.content?, ∃ body, read.body = some body ∧ body.content = .ok content := by
    intro content hc
    obtain ⟨body, hbody, hcontent⟩ := Option.bind_eq_some_iff.1 hc
    exact ⟨body, hbody, eq_ok_of_toOption_eq_some hcontent⟩
  cases ht : g.treatment entry with
  | dropped => exact absurd ht hd
  | copied =>
    obtain ⟨_, -, hpacked, -⟩ := hb.copied ht
    obtain ⟨body, hbody, -⟩ := Option.map_eq_some_iff.1 hpacked
    refine ⟨body, .kept, hbody, fun archive => convertKept_eq_ok_iff.2 (.inr (.inr ⟨?_, ?_, rfl⟩)), rfl⟩
    · rw [htreatment, ht]
      nofun
    · rw [htreatment, ht]
      nofun
  | nested =>
    obtain ⟨content, hc, outcome, ho, hread⟩ := hb.nested ht
    obtain ⟨body, hbody, hcontent⟩ := hbody _ hread
    obtain ⟨again, hagain, hch⟩ := hn content hc ht outcome ho
    exact ⟨body, again.conversion, hbody, fun archive =>
      convertKept_eq_ok_iff.2 (.inl ⟨htreatment.trans ht, _, hcontent, again, hagain, rfl⟩), hch⟩
  | converted =>
    obtain ⟨content, hc, c, hconvert, hread⟩ := hb.converted ht
    obtain ⟨body, hbody, hcontent⟩ := hbody _ hread
    rw [hregistry] at hconvert
    have hmoved := hp.names.moved_migrate entry.name
    rw [← hb.name] at hmoved
    obtain ⟨again, hagain, hch⟩ := Registry.exists_convert_again hp (hp.names.find_eq hmoved).symm (hs ht content hc) hconvert
    refine ⟨body, again, hbody, fun archive => convertKept_eq_ok_iff.2 (.inr (.inl ⟨htreatment.trans ht, _, hcontent, ?_⟩)), hch⟩
    rw [convertEntry, hregistry]
    exact mapError_eq_ok_iff.2 hagain

lemma exists_migrateNested_again {depth : ℕ} {outcome : Outcome} (hkeeps : ∀ inner, g.Within source inner → g.KeepsContents inner)
    (hrepeatable : ∀ inner, g.Within source inner → g.HasRepeatable inner)
    (h : g.migrateNested depth archive source = .ok outcome) (again : String) :
    ∃ o, g.migrateNested depth again outcome.bytes = .ok o ∧ o.changed = false := by
  induction depth generalizing archive source outcome again with
  | zero => cases h
  | succ depth ih =>
    cases hch : outcome.changed with
    | false =>
      rw [bytes_of_not_changed h hch]
      exact ⟨outcome, (migrateNested_name_congr _ archive again source outcome).1 h, hch⟩
    | true =>
      obtain ⟨entries, hlist, -, hread⟩ := exists_becomes (hkeeps source .self) (fun _ _ _ h => h) (fun _ _ _ => bytes_of_not_changed) h
      obtain ⟨read, hread, hnames, hall⟩ := hread hch
      have hsettled : ∀ e ∈ read, g.Settled (g.migrateNested depth) e := by
        intro e he
        obtain ⟨entry, hentry, hmem, hbecomes⟩ := exists_of_forall₂ hall.flip he
        have hdropped : g.treatment entry ≠ .dropped := by simpa using (List.mem_filter.1 hentry).2
        refine settled_of_becomes hp hregistry hglobs hdropped hbecomes
          (fun ht => hrepeatable source .self entries hlist entry hmem ht) fun content hc ht inner ho => ?_
        have hcontains : g.Contains source entry.name content := ⟨entries, hlist, entry, hmem, ht, rfl, hc⟩
        exact ih (fun x hx => hkeeps x (.head hcontains hx)) (fun x hx => hrepeatable x (.head hcontains hx)) ho e.name
      obtain ⟨d, hd, hchanged⟩ := @exists_foldlM_of_settled _ again .empty _ _ hsettled hnames rfl fun _ _ => rfl
      refine ⟨⟨outcome.bytes, false, d.asked⟩, migrateArchiveWith_eq_ok_iff.2 ⟨read, hread, d, hd, ?_⟩, rfl⟩
      rw [hchanged]
      rfl

end Repetition

lemma repeats_builtIn (b : BuiltIn) : b.profile.Repeats :=
  ⟨Profile.careful_builtIn b, Profile.sparesNames_builtIn b, Profile.sparesVersions_builtIn b, Profile.keepsDirectories_builtIn b⟩

/-- What a migration by a built-in profile gives is migrated again without a change, and handed out as it came. -/
theorem migrateArchive_migrateArchive (b : BuiltIn) (hprofile : g.profile = b.profile) (hregistry : g.registry = .builtIn)
    (hexcludes : g.excludes = .standard ∨ g.excludes = .none)
    (hkeeps : ∀ inner, g.Within source inner → g.KeepsContents inner)
    (hrepeatable : ∀ inner, g.Within source inner → g.HasRepeatable inner) {outcome : Outcome}
    (h : g.migrateArchive archive source = .ok outcome) (again : String) :
    ∃ o, g.migrateArchive again outcome.bytes = .ok o ∧ o.changed = false ∧ o.bytes = outcome.bytes := by
  have hp : g.profile.Repeats := hprofile ▸ repeats_builtIn b
  have hglobs : g.excludes.globs = [] := by
    rcases hexcludes with he | he <;> rw [he] <;> rfl
  obtain ⟨o, ho, hch⟩ := exists_migrateNested_again hp hregistry hglobs hkeeps hrepeatable h again
  exact ⟨o, ho, hch, bytes_of_not_changed ho hch⟩

def versionedText : Bytes := Bytes.utf8 "Implementation-Version: 1\r\nX: javax.servlet\r\n\r\n"

def versionedArchive : Bytes := Zip.format.write [.fresh Manifest.fileName ⟨.stored, none, none⟩ versionedText]

set_option maxRecDepth 20000 in
theorem migrateArchive_migrateArchive_of_versioned :
    let g : Migrator := { forZip BuiltIn.tomcatProfile with excludes := .none }
    (∀ inner, g.Within versionedArchive inner → g.KeepsContents inner) ∧
      (∀ inner, g.Within versionedArchive inner → g.HasRepeatable inner) ∧
      ∃ outcome, g.migrateArchive "a.jar" versionedArchive = .ok outcome ∧ outcome.changed = true ∧
        ∃ o, g.migrateArchive "a.jar" outcome.bytes = .ok o ∧ o.changed = false ∧ o.bytes = outcome.bytes := by
  intro g
  have hwithin : ∀ inner, g.Within versionedArchive inner → inner = versionedArchive :=
    fun inner hw => eq_of_within_of_rereads (by decide +kernel) hw
  have hkeeps : g.KeepsContents versionedArchive := @keepsContents_of_rereadsAt g versionedArchive 1 (by decide +kernel)
  have hrepeatable : g.HasRepeatable versionedArchive := by
    intro entries hlist entry hentry _ content hc
    have hknown : (g.format.list versionedArchive).map (List.map fun e => (e.name, e.content?)) =
        some [(Manifest.fileName, some versionedText)] := by decide +kernel
    rw [hlist, Option.map_some, Option.some.injEq, List.map_eq_singleton_iff] at hknown
    obtain ⟨e, rfl, he⟩ := hknown
    obtain rfl := List.mem_singleton.1 hentry
    obtain ⟨hname, hcontent⟩ := Prod.mk.inj he
    obtain rfl : versionedText = content := Option.some.inj (hcontent.symm.trans hc)
    rw [hname]
    refine ⟨fun hclass => absurd hclass (by decide +kernel), fun _ m hm => ?_⟩
    have hparse : Manifest.parse versionedText = .ok ⟨⟨[("Implementation-Version", "1"), ("X", "javax.servlet")]⟩, []⟩ :=
      eq_ok_of_toOption_eq_some (by decide +kernel)
    obtain rfl := Except.ok.inj (hparse.symm.trans hm)
    exact List.forall_mem_singleton.2 (by decide +kernel)
  have hok : ∃ outcome, g.migrateArchive "a.jar" versionedArchive = .ok outcome ∧ outcome.changed = true := by
    have hchecked : (g.migrateArchive "a.jar" versionedArchive).toOption.any Outcome.changed = true := by decide +kernel
    obtain ⟨outcome, ho, hch⟩ := (Option.any_eq_true _ _).1 hchecked
    exact ⟨outcome, eq_ok_of_toOption_eq_some ho, hch⟩
  obtain ⟨outcome, ho, hch⟩ := hok
  have hkeeps' : ∀ inner, g.Within versionedArchive inner → g.KeepsContents inner := fun inner hw => hwithin inner hw ▸ hkeeps
  have hrepeatable' : ∀ inner, g.Within versionedArchive inner → g.HasRepeatable inner :=
    fun inner hw => hwithin inner hw ▸ hrepeatable
  exact ⟨hkeeps', hrepeatable', outcome, ho, hch,
    migrateArchive_migrateArchive .tomcat rfl rfl (.inr rfl) hkeeps' hrepeatable' ho "a.jar"⟩

end Migrator

end NamespaceMigration
