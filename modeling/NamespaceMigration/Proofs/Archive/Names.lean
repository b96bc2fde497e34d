import NamespaceMigration.Proofs.Archive.Entries
import NamespaceMigration.Proofs.Glob.Matching
import NamespaceMigration.Proofs.Profile.Words

namespace NamespaceMigration

open Text (Clear)

namespace Profile

section Texts

variable {α : Type} [Alphabet α] {p : Profile} {s t w : List α} {d : α} {ok : List α → Prop}

lemma Moved.eq_of_plain [BEq α] (hr : ∀ r ∈ p.rules, r.path ≠ []) (hs : ∀ c ∈ s, Alphabet.isSeparator c = false)
    (h : Moved p (Leads p.rules) s t) : t = s := by
  induction h with
  | nil => rfl
  | keep c _ ih => rw [ih fun d hd => hs d (by simp [hd])]
  | @move s t hl _ _ =>
    obtain ⟨r, hm, hstrip⟩ := hl
    obtain ⟨word, path, hpath⟩ := List.exists_cons_of_ne_nil (hr r hm)
    rw [hpath] at hstrip
    cases s with
    | nil => cases hstrip
    | cons c s =>
      have hc := hs c (by simp)
      simp [Rule.stripSegments, hc] at hstrip

lemma Moved.eq_of_clear (hp : p.Distinct α) (hw : Clear (Alphabet.spell p.source) w) (h : Moved p ok w t) : t = w := by
  rw [← List.append_nil w] at h
  obtain ⟨t', rfl, ht⟩ := h.of_clear_append hw
  rw [ht.eq_nil hp, List.append_nil]

lemma Moved.eq_iff (hp : p.Distinct α) (hw : ∀ token ∈ p.tokens α, Clear token w) (h : Moved p ok s t) : s = w ↔ t = w := by
  constructor
  · rintro rfl
    exact h.eq_of_clear hp (hw _ p.source_mem_tokens)
  · rintro rfl
    have hback := (h.mono fun _ _ => trivial).symm (fun _ _ _ h => h) ""
    exact hback.eq_of_clear (hp.reversedAs "") (hw _ p.target_mem_tokens)

lemma Moved.suffix_iff (hp : p.Distinct α) (hd : ∀ token ∈ p.tokens α, d ∉ token) (hw : ∀ token ∈ p.tokens α, Clear token w)
    (h : Moved p ok s t) : d :: w <:+ s ↔ d :: w <:+ t := by
  have hkeep : ∀ {q : Profile} {s t : List α}, q.Distinct α → d ∉ (Alphabet.spell q.source : List α) →
      Clear (Alphabet.spell q.source) w → Moved q (fun _ => True) s t → d :: w <:+ s → d :: w <:+ t := by
    rintro q s t hq hd hc h ⟨a, rfl⟩
    obtain ⟨a', b', rfl, -, hb⟩ := h.of_append_cons hd fun _ h => h
    rw [hb.eq_of_clear hq hc]
    exact List.suffix_append a' _
  have h := h.mono fun _ _ => trivial
  exact ⟨hkeep hp (hd _ p.source_mem_tokens) (hw _ p.source_mem_tokens) h,
    hkeep (hp.reversedAs "") (hd _ p.target_mem_tokens) (hw _ p.target_mem_tokens) (h.symm (fun _ _ _ h => h) "")⟩

lemma Moved.afterLast {k : α → Bool} (hk : ∀ d, k d = true → ∀ token ∈ p.tokens α, d ∉ token) (h : Moved p ok s t) :
    Moved p ok (Text.afterLast k s) (Text.afterLast k t) := by
  have hnone : ∀ {s t : List α}, Moved p ok s t → (∀ c ∈ s, k c = false) → ∀ c ∈ t, k c = false := by
    intro s t h hs c hc
    by_contra hn
    have hc' : k c = true := by simpa using hn
    rw [← h.mem_iff (hk c hc' _ p.source_mem_tokens) (hk c hc' _ p.target_mem_tokens)] at hc
    rw [hs c hc] at hc'
    cases hc'
  rcases Text.exists_last k s with hs | ⟨a, d, w, hd, hw, rfl⟩
  · rwa [Text.afterLast_eq_self hs, Text.afterLast_eq_self (hnone h hs)]
  · have hok : ∀ a, ok (a ++ d :: w) → (fun _ => True : List α → Prop) a := fun _ _ => trivial
    obtain ⟨a', w', rfl, -, hmoved⟩ := h.of_append_cons (hk d hd _ p.source_mem_tokens) hok
    rwa [Text.afterLast_append_cons hd hw, Text.afterLast_append_cons hd (hnone hmoved hw)]

end Texts

lemma Moved.utf8 {p : Profile} {ok : List Char → Prop} {s t : List Char} (h : Moved p ok s t) :
    Moved p (fun _ => True) (Bytes.utf8 (String.ofList s)) (Bytes.utf8 (String.ofList t)) := by
  simp only [Bytes.utf8_eq_flatMap, String.toList_ofList]
  induction h with
  | nil => exact .nil
  | keep c _ ih => exact Moved.append (.refl _) ih fun _ _ => trivial
  | move _ _ ih =>
    have hspell : ∀ word : String, (Alphabet.spell word : List Char).flatMap String.utf8EncodeChar = Alphabet.spell word :=
      fun word => (Bytes.utf8_eq_flatMap word).symm
    rw [List.flatMap_append, List.flatMap_append, hspell, hspell]
    exact .move trivial ih

def nameWords : List String := ["META-INF/", "SF", "RSA", "DSA", "EC", Manifest.fileName]

def patternHead (pattern : String) : Bytes :=
  Bytes.utf8 (String.ofList (pattern.toList.takeWhile (· != '*')))

structure SparesNames (p : Profile) : Prop where
  regular : p.Regular
  words : ∀ word ∈ nameWords, ∀ token ∈ p.tokens Char, Clear token word.toList
  lower : ∀ token ∈ p.tokens UInt8, token.map Glob.lowerOctet = token
  heads : ∀ pattern ∈ ExcludePatterns.defaultPatterns, ∀ token ∈ p.tokens UInt8, Clear token ((patternHead pattern).map Glob.lowerOctet)
  dots : ∀ token ∈ p.tokens UInt8, 0x2E ∉ token
  ends : ∀ token ∈ p.tokens UInt8, Clear token (Bytes.utf8 "jar")

lemma mem_tokens_reversedAs {α : Type} [Alphabet α] {p : Profile} {name : String} {token : List α} :
    token ∈ (p.reversedAs name).tokens α ↔ token ∈ p.tokens α := by
  simp only [tokens, Profile.reversedAs, List.mem_cons, List.not_mem_nil, or_false]
  exact or_comm

lemma SparesNames.reversedAs {p : Profile} (h : p.SparesNames) (name : String) : (p.reversedAs name).SparesNames :=
  ⟨h.regular.reversedAs name, fun word hw token ht => h.words word hw token (mem_tokens_reversedAs.1 ht),
    fun token ht => h.lower token (mem_tokens_reversedAs.1 ht),
    fun pattern hm token ht => h.heads pattern hm token (mem_tokens_reversedAs.1 ht),
    fun token ht => h.dots token (mem_tokens_reversedAs.1 ht), fun token ht => h.ends token (mem_tokens_reversedAs.1 ht)⟩

lemma sparesNames_builtIn (b : BuiltIn) : b.profile.SparesNames := by
  have hee : BuiltIn.eeProfile.SparesNames := by
    refine ⟨regular_builtIn .ee, ?_, ?_, ?_, ?_, ?_⟩ <;> decide +kernel
  cases b with
  | tomcat => exact ⟨regular_builtIn .tomcat, hee.words, hee.lower, hee.heads, hee.dots, hee.ends⟩
  | ee => exact hee
  | jee8 => exact hee.reversedAs "JEE8"

end Profile

section Globs

open Glob

def Glob.spelled (w : Bytes) (g : Glob) : Glob := w.foldr (fun c g => append (append (octet c) empty) g) g

lemma Glob.spans_spelled {w : Bytes} {g : Glob} {s : Bytes} : (Glob.spelled w g).Spans s ↔
    ∃ u v, s = u ++ v ∧ u.map lowerOctet = w.map lowerOctet ∧ g.Spans v := by
  induction w generalizing s with
  | nil => simp [Glob.spelled]
  | cons c w ih =>
    have hunfold : (Glob.spelled (c :: w) g).Spans s ↔
        ∃ b v, s = b :: v ∧ lowerOctet b = lowerOctet c ∧ (Glob.spelled w g).Spans v := by
      simp only [Glob.spelled, List.foldr_cons, Spans, beq_iff_eq]
      constructor
      · rintro ⟨_, v, rfl, ⟨_, _, rfl, ⟨b, rfl, hb⟩, rfl⟩, hv⟩
        exact ⟨b, v, rfl, hb, hv⟩
      · rintro ⟨b, v, rfl, hb, hv⟩
        exact ⟨[b], v, rfl, ⟨[b], [], rfl, ⟨b, rfl, hb⟩, rfl⟩, hv⟩
    rw [hunfold]
    simp only [ih]
    constructor
    · rintro ⟨b, _, rfl, hb, u, v, rfl, hu, hv⟩
      exact ⟨b :: u, v, rfl, by simp [hb, hu], hv⟩
    · rintro ⟨u, v, rfl, hu, hv⟩
      obtain ⟨b, u, rfl, hb, hu⟩ := List.map_eq_cons_iff.1 hu
      exact ⟨b, u ++ v, rfl, hb, u, v, rfl, hu, hv⟩

def libraryGlob (pattern : String) : Glob :=
  Glob.spelled (Profile.patternHead pattern) (append anyOctets (Glob.spelled (Bytes.utf8 ".jar") empty))

lemma defaultGlobs_eq : ExcludePatterns.defaultGlobs = ExcludePatterns.defaultPatterns.map libraryGlob := by
  decide +kernel

lemma spans_libraryGlob {pattern : String} {s : Bytes} : (libraryGlob pattern).Spans s ↔ ∃ u m v, s = u ++ (m ++ 0x2E :: v) ∧
    u.map lowerOctet = (Profile.patternHead pattern).map lowerOctet ∧ v.map lowerOctet = Bytes.utf8 "jar" := by
  have hdot : ∀ b : UInt8, lowerOctet b = lowerOctet 0x2E ↔ b = 0x2E := by
    intro b
    have hconst : lowerOctet 0x2E = 0x2E := by decide
    rw [hconst, lowerOctet]
    split
    next h =>
      simp only [← UInt8.toNat_inj, UInt8.toNat_add, UInt8.le_iff_toNat_le, UInt8.reduceToNat] at h ⊢
      omega
    next => rfl
  have hjar : (Bytes.utf8 ".jar").map lowerOctet = lowerOctet 0x2E :: Bytes.utf8 "jar" := by decide
  rw [libraryGlob, Glob.spans_spelled]
  simp only [Spans, true_and, Glob.spans_spelled, hjar, List.map_eq_cons_iff, hdot]
  constructor
  · rintro ⟨u, _, rfl, hu, m, _, rfl, _, _, rfl, ⟨_, v, rfl, rfl, hv⟩, rfl⟩
    exact ⟨u, m, v, by simp, hu, hv⟩
  · rintro ⟨u, m, v, rfl, hu, hv⟩
    exact ⟨u, m ++ 0x2E :: v, rfl, hu, m, 0x2E :: v, rfl, 0x2E :: v, [], by simp, ⟨0x2E, v, rfl, rfl, hv⟩, rfl⟩

lemma Text.Clear.of_map {α : Type} {f : α → α} {token w : List α} (ht : token.map f = token) (h : Clear token (w.map f)) :
    Clear token w := by
  intro u hu hne
  have hmem : u.map f ∈ (w.map f).tails := (List.mem_tails _ _).2 (((List.mem_tails _ _).1 hu).map f)
  obtain ⟨hl, hr⟩ := h _ hmem (by simpa using hne)
  constructor
  · intro hp
    exact hl (ht ▸ hp.map f)
  · intro hp
    exact hr (ht ▸ hp.map f)

end Globs

namespace Profile.SparesNames

variable {p : Profile} {s t : String}

lemma spans_of_moved (hp : p.SparesNames) {a b : Bytes} (h : Moved p (fun _ => True) a b) {pattern : String}
    (hm : pattern ∈ ExcludePatterns.defaultPatterns) (hs : (libraryGlob pattern).Spans a) : (libraryGlob pattern).Spans b := by
  obtain ⟨u, m, v, rfl, hu, hv⟩ := spans_libraryGlob.1 hs
  have htoken := hp.lower _ p.source_mem_tokens
  have hhead : Clear (Alphabet.spell p.source) u := .of_map htoken (hu ▸ hp.heads pattern hm _ p.source_mem_tokens)
  have hend : Clear (Alphabet.spell p.source) v := .of_map htoken (hv ▸ hp.ends _ p.source_mem_tokens)
  obtain ⟨_, rfl, hrest⟩ := h.of_clear_append hhead
  obtain ⟨m', v', rfl, -, hlast⟩ := hrest.of_append_cons (hp.dots _ p.source_mem_tokens) fun _ h => h
  rw [hlast.eq_of_clear hp.regular.octets hend]
  exact spans_libraryGlob.2 ⟨u, m', v, rfl, hu, hv⟩

lemma not_mem_of_not_isAlphanum (hp : p.SparesNames) {c : Char} (hc : c.isAlphanum = false) : ∀ token ∈ p.tokens Char, c ∉ token := by
  intro token ht hm
  have hword : ∃ word ∈ p.source :: p.target :: p.words, token = word.toList := by
    simp only [tokens, List.mem_cons, List.not_mem_nil, or_false] at ht
    rcases ht with rfl | rfl
    · exact ⟨p.source, by simp, rfl⟩
    · exact ⟨p.target, by simp, rfl⟩
  obtain ⟨word, hw, rfl⟩ := hword
  rw [hp.regular.alphanumeric word hw c hm] at hc
  cases hc

variable (hp : p.SparesNames) (h : Moved p (Leads p.rules) s.toList t.toList)

include hp h

lemma moved_fileName : Moved p (Leads p.rules) (fileName s).toList (fileName t).toList := by
  rw [fileName, fileName, String.toList_ofList, String.toList_ofList]
  refine h.afterLast fun d hd => hp.not_mem_of_not_isAlphanum ?_
  rcases Bool.or_eq_true _ _ ▸ hd with hd | hd
  · rw [beq_iff_eq.1 hd]; decide
  · rw [beq_iff_eq.1 hd]; decide

lemma extension_eq : extension s = extension t := by
  have hname := hp.moved_fileName h
  have hdot := hp.not_mem_of_not_isAlphanum (c := '.') (by decide)
  have hmem : (fileName s).toList.contains '.' = (fileName t).toList.contains '.' := by
    rw [Bool.eq_iff_iff, List.contains_iff_mem, List.contains_iff_mem]
    exact hname.mem_iff (hdot _ p.source_mem_tokens) (hdot _ p.target_mem_tokens)
  have hlast := hname.afterLast (k := (· == '.')) fun d hd => (beq_iff_eq.1 hd) ▸ hdot
  have hplain : ∀ c ∈ Text.afterLast (· == '.') (fileName s).toList, Alphabet.isSeparator c = false := by
    intro c hc
    have hc' := Text.afterLast_subset hc
    rw [fileName, String.toList_ofList] at hc'
    have hslash := Text.of_mem_afterLast hc'
    have hdot := Text.of_mem_afterLast hc
    simp only [Bool.or_eq_false_iff] at hslash
    exact Bool.or_eq_false_iff.2 ⟨hdot, hslash.1⟩
  simp only [extension]
  rw [← hmem, hlast.eq_of_plain hp.regular.chars.paths hplain]

lemma isArchiveName_eq : isArchiveName s = isArchiveName t := by
  rw [isArchiveName, isArchiveName, hp.extension_eq h]

lemma isManifestPath_eq : Converter.isManifestPath s = Converter.isManifestPath t := by
  have hd := hp.regular.chars
  have hword := hp.words Manifest.fileName (by simp [nameWords])
  have hwhole : s = Manifest.fileName ↔ t = Manifest.fileName := by
    rw [← String.toList_inj, ← String.toList_inj]
    exact h.eq_iff hd hword
  have hend := h.suffix_iff hd (hp.not_mem_of_not_isAlphanum (c := '/') (by decide)) hword
  rw [Bool.eq_iff_iff, Converter.isManifestPath, Converter.isManifestPath]
  simp only [Bool.or_eq_true, beq_iff_eq, Text.strip?_reverse_isSome_iff]
  exact or_congr hwhole hend

lemma isSignatureName_eq : isSignatureName s = isSignatureName t := by
  have hd := hp.regular.chars
  have hfolder : (Text.strip? "META-INF/".toList s.toList).isSome = (Text.strip? "META-INF/".toList t.toList).isSome := by
    have hword := hp.words "META-INF/" (by simp [nameWords])
    exact isSome_eq_of_rel (h.strip? (hword _ p.source_mem_tokens) (hword _ p.target_mem_tokens))
  have hends : ∀ suffix ∈ signatureSuffixes, (Text.strip? suffix.toList.reverse s.toList.reverse).isSome =
      (Text.strip? suffix.toList.reverse t.toList.reverse).isSome := by
    have hdot := hp.not_mem_of_not_isAlphanum (c := '.') (by decide)
    have hword : ∀ word ∈ ["SF", "RSA", "DSA", "EC"], '.' :: word.toList <:+ s.toList ↔ '.' :: word.toList <:+ t.toList := by
      intro word hw
      refine h.suffix_iff hd hdot (hp.words word ?_)
      simp only [List.mem_cons, List.not_mem_nil, or_false, nameWords] at hw ⊢
      tauto
    intro suffix hm
    rw [Bool.eq_iff_iff, Text.strip?_reverse_isSome_iff, Text.strip?_reverse_isSome_iff]
    have hcases : ∃ word ∈ ["SF", "RSA", "DSA", "EC"], suffix.toList = '.' :: word.toList := by
      revert suffix
      decide
    obtain ⟨word, hw, he⟩ := hcases
    rw [he]
    exact hword word hw
  rw [isSignatureName, isSignatureName, hfolder, Bool.eq_iff_iff]
  simp only [Bool.and_eq_true, List.any_eq_true]
  exact and_congr_right fun _ => exists_congr fun suffix => and_congr_right fun hm => by rw [hends suffix hm]

lemma matchesAny_eq : ExcludePatterns.matchesAny ExcludePatterns.defaultGlobs (fileName s) =
    ExcludePatterns.matchesAny ExcludePatterns.defaultGlobs (fileName t) := by
  have hmoved := (hp.moved_fileName h).utf8
  rw [String.ofList_toList, String.ofList_toList] at hmoved
  rw [Bool.eq_iff_iff, ExcludePatterns.matchesAny, ExcludePatterns.matchesAny, defaultGlobs_eq]
  simp only [List.any_map, List.any_eq_true, Function.comp_apply, Glob.matchesBytes_iff]
  refine exists_congr fun pattern => and_congr_right fun hm => ?_
  exact ⟨hp.spans_of_moved hmoved hm, (hp.reversedAs "").spans_of_moved (hmoved.symm (fun _ _ _ h => h) "") hm⟩

lemma skips_eq {e : ExcludePatterns} (he : e.globs = []) : e.skips s = e.skips t := by
  rw [ExcludePatterns.skips, ExcludePatterns.skips, hp.matchesAny_eq h, he]
  rfl

lemma find_eq : Registry.builtIn.find s = Registry.builtIn.find t := by
  have haccepts : ∀ converter : Converter, converter.accepts s = converter.accepts t := by
    intro converter
    cases converter with
    | text => rw [Converter.accepts, Converter.accepts, hp.extension_eq h]
    | classFile => rw [Converter.accepts, Converter.accepts, hp.extension_eq h]
    | manifest => exact hp.isManifestPath_eq h
    | passThrough => rfl
  simp only [Registry.find, haccepts]

omit h in
lemma moved_migrate (name : String) : Moved p (Leads p.rules) name.toList (p.migrate name).value.toList := by
  rw [hp.regular.chars.toList_migrate]
  exact (hp.regular.chars.moved_pass _).mono fun _ h => h.leads

omit h in
lemma migrate_migrate (name : String) : p.migrate (p.migrate name).value = ⟨(p.migrate name).value, false⟩ := by
  have hd := hp.regular.chars
  have hkept : (p.migrate (p.migrate name).value).changed = false := by
    rw [Bool.eq_false_iff, ne_eq, hd.changed_migrate_iff, not_not]
    exact hd.free_migrate name
  have hvalue : (p.migrate (p.migrate name).value).value = (p.migrate name).value := by
    rw [migrate, migrateSymbols_of_not_changed hkept, String.ofList_toList]
  exact congrArg₂ Migrated.mk hvalue hkept

end Profile.SparesNames

namespace Migrator

variable {g : Migrator} {entry read : ArchiveEntry}

lemma treatment_eq_of_migrate (hp : g.profile.SparesNames) (he : g.excludes.globs = [])
    (hname : read.name = (g.profile.migrate entry.name).value) (hdir : read.isDirectory = entry.isDirectory) :
    g.treatment read = g.treatment entry := by
  have hmoved := hp.moved_migrate entry.name
  rw [← hname] at hmoved
  rw [treatment, treatment, hdir, hp.isSignatureName_eq hmoved, hp.skips_eq hmoved he, hp.isArchiveName_eq hmoved]

end Migrator

end NamespaceMigration
