import NamespaceMigration.Archive.CachedMigrator
import NamespaceMigration.Proofs.Archive.Agreement
import NamespaceMigration.Proofs.Archive.Migrator
import NamespaceMigration.Proofs.Cache.Key
import NamespaceMigration.Profile.BuiltIn
import NamespaceMigration.Zip.Format

namespace NamespaceMigration

lemma intercalate_inj {xs ys : List String} (hx : ∀ x ∈ xs, x ≠ "" ∧ ',' ∉ x.toList)
    (hy : ∀ y ∈ ys, y ≠ "" ∧ ',' ∉ y.toList) (h : ",".intercalate xs = ",".intercalate ys) : xs = ys := by
  have hsplit : ∀ zs : List String, (∀ z ∈ zs, z ≠ "" ∧ ',' ∉ z.toList) → zs ≠ [] →
      (",".intercalate zs).toList.splitOn ',' = zs.map String.toList := by
    intro zs hz hne
    rw [String.toList_intercalate]
    refine List.splitOn_intercalate ',' ?_ (by simpa using hne)
    intro l hl
    obtain ⟨z, hm, rfl⟩ := List.mem_map.1 hl
    exact (hz z hm).2
  have hnil : ∀ zs : List String, (∀ z ∈ zs, z ≠ "" ∧ ',' ∉ z.toList) → ",".intercalate zs = "" → zs = [] := by
    intro zs hz he
    by_contra hne
    have hs := hsplit zs hz hne
    rw [he] at hs
    obtain ⟨z, hm, hzero⟩ : ∃ z ∈ zs, z.toList = [] := by
      have hmem : [] ∈ zs.map String.toList := hs ▸ (by simp)
      simpa using hmem
    exact (hz z hm).1 (by simpa using hzero)
  by_cases hxs : xs = []
  · subst hxs
    exact (hnil ys hy h.symm).symm
  · by_cases hys : ys = []
    · subst hys
      exact hnil xs hx h
    · have hs := hsplit xs hx hxs
      rw [h, hsplit ys hy hys] at hs
      exact (List.map_injective_iff.2 (fun a b => String.toList_inj.1) hs).symm

lemma mem_intercalate {c : Char} {ss : List String} (h : c ∈ (",".intercalate ss).toList) :
    c = ',' ∨ ∃ s ∈ ss, c ∈ s.toList := by
  induction ss with
  | nil => simp at h
  | cons s ss ih =>
    cases ss with
    | nil => exact .inr ⟨s, by simp, by simpa using h⟩
    | cons t ss =>
      rw [String.intercalate_cons_cons, String.toList_append, String.toList_append, List.mem_append, List.mem_append] at h
      rcases h with (h | h) | h
      · exact .inr ⟨s, by simp, h⟩
      · exact .inl (by simpa using h)
      · exact (ih h).imp_right fun ⟨u, hu, hc⟩ => ⟨u, by simp [hu], hc⟩

namespace Converter

def withFingerprint (name : String) : Converter :=
  if name = "text" then .text
  else if name = "class" then .classFile none
  else if name = "manifest" then .manifest
  else .passThrough

lemma eq_of_fingerprint? {c : Converter} {name : String} (h : c.fingerprint? = some name) :
    c = withFingerprint name ∧ name ∈ ["text", "class", "manifest", "pass-through"] := by
  match c with
  | .classFile (some _) => cases h
  | .classFile none =>
    obtain rfl : "class" = name := Option.some.inj h
    exact ⟨rfl, by decide⟩
  | .text =>
    obtain rfl : "text" = name := Option.some.inj h
    exact ⟨rfl, by decide⟩
  | .manifest =>
    obtain rfl : "manifest" = name := Option.some.inj h
    exact ⟨rfl, by decide⟩
  | .passThrough =>
    obtain rfl : "pass-through" = name := Option.some.inj h
    exact ⟨rfl, by decide⟩

end Converter

namespace Registry

variable {r r' : Registry} {key : String}

lemma names_of_mapM {l : List Converter} {names : List String} (h : l.mapM Converter.fingerprint? = some names) :
    l = names.map Converter.withFingerprint ∧ ∀ name ∈ names, name ∈ ["text", "class", "manifest", "pass-through"] := by
  induction l generalizing names with
  | nil =>
    obtain rfl : names = [] := by simpa [eq_comm] using h
    simp
  | cons c l ih =>
    simp only [List.mapM_cons, Option.bind_eq_bind, Option.bind_eq_some_iff, Option.pure_def, Option.some.injEq] at h
    obtain ⟨name, hc, names, hl, rfl⟩ := h
    obtain ⟨rfl, hname⟩ := Converter.eq_of_fingerprint? hc
    obtain ⟨rfl, hnames⟩ := ih hl
    exact ⟨rfl, List.forall_mem_cons.2 ⟨hname, hnames⟩⟩

lemma exists_names_of_fingerprint? (h : r.fingerprint? = some key) :
    ∃ names : List String, key = ",".intercalate names ∧ r.converters = names.map Converter.withFingerprint ∧
      ∀ name ∈ names, name ∈ ["text", "class", "manifest", "pass-through"] := by
  obtain ⟨names, hn, rfl⟩ := Option.map_eq_some_iff.1 h
  exact ⟨names, rfl, names_of_mapM hn⟩

lemma eq_of_fingerprint?_eq (h : r.fingerprint? = some key) (h' : r'.fingerprint? = some key) : r = r' := by
  obtain ⟨names, rfl, hr, hn⟩ := exists_names_of_fingerprint? h
  obtain ⟨names', he, hr', hn'⟩ := exists_names_of_fingerprint? h'
  have hplain : ∀ name ∈ ["text", "class", "manifest", "pass-through"], name ≠ "" ∧ ',' ∉ name.toList := by decide
  obtain rfl := intercalate_inj (fun x hx => hplain x (hn x hx)) (fun x hx => hplain x (hn' x hx)) he
  cases r
  cases r'
  simp_all

lemma notMem_fingerprint? (h : r.fingerprint? = some key) : '|' ∉ key.toList ∧ '\x00' ∉ key.toList := by
  obtain ⟨names, rfl, -, hn⟩ := exists_names_of_fingerprint? h
  have hplain : ∀ name ∈ ["text", "class", "manifest", "pass-through"], '|' ∉ name.toList ∧ '\x00' ∉ name.toList := by
    decide
  have hnot : ∀ c, c ≠ ',' → (∀ name ∈ ["text", "class", "manifest", "pass-through"], c ∉ name.toList) →
      c ∉ (",".intercalate names).toList := by
    intro c hne hc hm
    rcases mem_intercalate hm with he | ⟨name, hname, hm⟩
    · exact hne he
    · exact hc name (hn name hname) hm
  exact ⟨hnot _ (by decide) fun name hm => (hplain name hm).1, hnot _ (by decide) fun name hm => (hplain name hm).2⟩

end Registry

namespace ExcludePatterns

def IsRead (e : ExcludePatterns) : Prop :=
  ∃ patterns defaults matchPath, ofPatterns patterns defaults matchPath = .ok e

variable {e e' : ExcludePatterns}

lemma IsRead.ofPatterns_eq (h : e.IsRead) : ofPatterns e.patterns e.defaults e.matchPath = .ok e := by
  obtain ⟨patterns, defaults, matchPath, he⟩ := h
  have hcopy := he
  simp only [ofPatterns, bind_eq_ok_iff] at he
  obtain ⟨globs, -, he⟩ := he
  split at he
  · cases he
  · obtain rfl : (⟨patterns, globs, defaults, matchPath⟩ : ExcludePatterns) = e := Except.ok.inj he
    exact hcopy

lemma identity_inj (he : ∀ x ∈ e.patterns, x ≠ "" ∧ ',' ∉ x.toList) (he' : ∀ x ∈ e'.patterns, x ≠ "" ∧ ',' ∉ x.toList)
    (h : e.identity = e'.identity) : e.defaults = e'.defaults ∧ e.matchPath = e'.matchPath ∧ e.patterns = e'.patterns := by
  have hlist := congrArg String.toList h
  have hbool : ∀ b : Bool, ';' ∉ (toString b).toList := by decide
  have hbool_inj : ∀ b b' : Bool, (toString b).toList = (toString b').toList → b = b' := by decide
  have hpath : ";path=".toList = ';' :: "path=".toList := by decide
  have hend : ";".toList = [';'] := by decide
  simp only [identity, String.toList_append, List.append_assoc, hpath, hend, List.cons_append, List.nil_append] at hlist
  obtain ⟨hd, hlist⟩ := (Text.append_cons_inj_of_notMem_left (hbool e.defaults) (hbool e'.defaults)).1
    (List.append_cancel_left hlist)
  obtain ⟨hm, hlist⟩ := (Text.append_cons_inj_of_notMem_left (hbool e.matchPath) (hbool e'.matchPath)).1
    (List.append_cancel_left hlist)
  exact ⟨hbool_inj _ _ hd, hbool_inj _ _ hm, intercalate_inj he he' (String.toList_inj.1 hlist)⟩

lemma eq_of_identity_eq (hr : e.IsRead) (hr' : e'.IsRead) (he : ∀ x ∈ e.patterns, x ≠ "" ∧ ',' ∉ x.toList)
    (he' : ∀ x ∈ e'.patterns, x ≠ "" ∧ ',' ∉ x.toList) (h : e.identity = e'.identity) : e = e' := by
  obtain ⟨hd, hm, hp⟩ := identity_inj he he' h
  have hof := hr.ofPatterns_eq
  rw [hd, hm, hp, hr'.ofPatterns_eq] at hof
  exact (Except.ok.inj hof).symm

end ExcludePatterns

namespace Migrator

variable {g h : Migrator} {k l : String} {x y : Bytes}

/-- Whether no part of the settings has a symbol that joins parts in their description. -/
structure Describable (g : Migrator) : Prop where
  profile : ∀ text ∈ [g.profile.name, g.profile.source, g.profile.target], '|' ∉ text.toList ∧ '\x00' ∉ text.toList
  patterns : ∀ pattern ∈ g.excludes.patterns, pattern ≠ "" ∧ ',' ∉ pattern.toList ∧ '\x00' ∉ pattern.toList

lemma settingsKey?_eq_some (hg : g.settingsKey? = some k) :
    ∃ converters, g.registry.fingerprint? = some converters ∧
      k = g.profile.identity ++ "|" ++ g.excludes.identity ++ "|" ++ converters := by
  obtain ⟨converters, hc, rfl⟩ := Option.map_eq_some_iff.1 hg
  exact ⟨converters, hc, rfl⟩

lemma Describable.zero_notMem (hd : g.Describable) (hg : g.settingsKey? = some k) : '\x00' ∉ k.toList := by
  obtain ⟨converters, hc, rfl⟩ := settingsKey?_eq_some hg
  have hbool : ∀ b : Bool, '\x00' ∉ (toString b).toList := by decide
  have hpatterns : '\x00' ∉ (",".intercalate g.excludes.patterns).toList := by
    intro hm
    rcases mem_intercalate hm with he | ⟨pattern, hp, hm⟩
    · exact absurd he (by decide)
    · exact (hd.patterns pattern hp).2.2 hm
  have hname := hd.profile g.profile.name (by simp)
  have hsource := hd.profile g.profile.source (by simp)
  have htarget := hd.profile g.profile.target (by simp)
  simp [Profile.identity, ExcludePatterns.identity, hname, hsource, htarget, hbool, hpatterns,
    Registry.notMem_fingerprint? hc, -String.toList_intercalate]

lemma eq_of_settingsKey?_eq (hg : g.settingsKey? = some k) (hh : h.settingsKey? = some k) (hdg : g.Describable)
    (hdh : h.Describable) (hrg : g.excludes.IsRead) (hrh : h.excludes.IsRead) :
    g.profile.name = h.profile.name ∧ g.profile.source = h.profile.source ∧ g.profile.target = h.profile.target ∧
      g.excludes = h.excludes ∧ g.registry = h.registry := by
  obtain ⟨converters, hc, rfl⟩ := settingsKey?_eq_some hg
  obtain ⟨converters', hc', he⟩ := settingsKey?_eq_some hh
  have hbar : "|".toList = ['|'] := by decide
  have hlist := congrArg String.toList he
  simp only [Profile.identity, String.toList_append, List.append_assoc, hbar, List.cons_append, List.nil_append] at hlist
  obtain ⟨hname, hlist⟩ := (Text.append_cons_inj_of_notMem_left (hdg.profile _ (by simp)).1
    (hdh.profile _ (by simp)).1).1 hlist
  obtain ⟨hsource, hlist⟩ := (Text.append_cons_inj_of_notMem_left (hdg.profile _ (by simp)).1
    (hdh.profile _ (by simp)).1).1 hlist
  obtain ⟨htarget, hlist⟩ := (Text.append_cons_inj_of_notMem_left (hdg.profile _ (by simp)).1
    (hdh.profile _ (by simp)).1).1 hlist
  -- patterns may have bars, converters have none
  obtain ⟨hexcludes, hconverters⟩ := (Text.append_cons_inj_of_notMem_right (Registry.notMem_fingerprint? hc).1
    (Registry.notMem_fingerprint? hc').1).1 hlist
  rw [String.toList_inj] at hname hsource htarget hexcludes hconverters
  subst hconverters
  refine ⟨hname, hsource, htarget, ?_, Registry.eq_of_fingerprint?_eq hc hc'⟩
  exact ExcludePatterns.eq_of_identity_eq hrg hrh
    (fun p hp => ⟨(hdg.patterns p hp).1, (hdg.patterns p hp).2.1⟩)
    (fun p hp => ⟨(hdh.patterns p hp).1, (hdh.patterns p hp).2.1⟩) hexcludes

/-- Where profiles of one identity agree on all texts, as they do if they have the same rules, and digests do not collide,
archives of one key are the same archive, and migrators with that key migrate it alike. -/
theorem migrateArchive_eq_of_key_eq (hg : g.settingsKey? = some k) (hh : h.settingsKey? = some l)
    (hdg : g.Describable) (hdh : h.Describable) (hrg : g.excludes.IsRead) (hrh : h.excludes.IsRead)
    (hprofiles : g.profile.identity = h.profile.identity → g.profile.Agrees h.profile)
    (hformat : g.format = h.format) (hdepth : g.depth = h.depth)
    (hcollision : Sha256.hash (CacheKey.message k x) = Sha256.hash (CacheKey.message l y) →
      CacheKey.message k x = CacheKey.message l y)
    (hkey : CacheKey.compute k x = CacheKey.compute l y) :
    x = y ∧ ∀ a b outcome, g.migrateArchive a x = .ok outcome ↔ h.migrateArchive b y = .ok outcome := by
  obtain ⟨rfl, rfl⟩ := CacheKey.message_inj (hdg.zero_notMem hg) (hdh.zero_notMem hh)
    (hcollision (CacheKey.compute_inj.1 hkey))
  obtain ⟨hname, hsource, htarget, hexcludes, hregistry⟩ := eq_of_settingsKey?_eq hg hh hdg hdh hrg hrh
  have hagrees := hprofiles (by rw [Profile.identity, Profile.identity, hname, hsource, htarget])
  refine ⟨rfl, fun a b outcome => ?_⟩
  rw [migrateArchive, migrateArchive, hdepth, Agrees.migrateNested ⟨hformat, hagrees, hregistry, hexcludes⟩]
  exact migrateNested_name_congr h.depth a b x outcome

def textArchive (text : String) : Bytes :=
  Zip.format.write [.fresh "a.txt" ⟨.stored, none, none⟩ (Bytes.utf8 text)]

theorem migrateArchive_eq_of_key_eq_of_repeated :
    let g := forZip BuiltIn.tomcatProfile
    let h := forZip { BuiltIn.tomcatProfile with rules := BuiltIn.tomcatProfile.rules ++ BuiltIn.tomcatProfile.rules }
    let x := textArchive "javax.servlet.X"
    ∃ k, g.settingsKey? = some k ∧ h.settingsKey? = some k ∧ g.profile ≠ h.profile ∧ g.Describable ∧ h.Describable ∧
      ExcludePatterns.standard.IsRead ∧ g.profile.Agrees h.profile ∧
      (Sha256.hash (CacheKey.message k x) = Sha256.hash (CacheKey.message k x) →
        CacheKey.message k x = CacheKey.message k x) ∧
      ∀ outcome, g.migrateArchive "a.jar" x = .ok outcome ↔ h.migrateArchive "b.jar" x = .ok outcome := by
  intro g h x
  have hk : g.settingsKey? = some "TOMCAT|javax|jakarta|defaults=true;path=false;|text,class,manifest,pass-through" := by
    decide +kernel
  have hk' : h.settingsKey? = some "TOMCAT|javax|jakarta|defaults=true;path=false;|text,class,manifest,pass-through" := hk
  have hd : g.Describable := ⟨by decide, by simp [g, forZip, ExcludePatterns.standard]⟩
  have hd' : h.Describable := ⟨by decide, by simp [h, forZip, ExcludePatterns.standard]⟩
  have hr : ExcludePatterns.standard.IsRead := ⟨[], true, false, by decide⟩
  have hagrees : g.profile.Agrees h.profile := Profile.agrees_append_self BuiltIn.tomcatProfile
  exact ⟨_, hk, hk', by decide, hd, hd', hr, hagrees, fun _ => rfl,
    (migrateArchive_eq_of_key_eq hk hk' hd hd' hr hr (fun _ => hagrees) rfl rfl (fun _ => rfl) rfl).2 "a.jar" "b.jar"⟩

/-- The description of the settings leaves the rules of the profile out. -/
theorem migrateArchive_ne_of_rules :
    let bare : Profile := { BuiltIn.tomcatProfile with rules := [] }
    (forZip BuiltIn.tomcatProfile).settingsKey? = (forZip bare).settingsKey? ∧
      ((forZip BuiltIn.tomcatProfile).migrateArchive "a.jar" (textArchive "javax.servlet.X")).toOption =
        some ⟨textArchive "jakarta.servlet.X", true, []⟩ ∧
      ((forZip bare).migrateArchive "a.jar" (textArchive "javax.servlet.X")).toOption =
        some ⟨textArchive "javax.servlet.X", false, []⟩ := by
  exact ⟨rfl, by decide +kernel, by decide +kernel⟩

end Migrator

end NamespaceMigration
