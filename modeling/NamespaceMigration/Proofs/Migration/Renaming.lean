import NamespaceMigration.Migration.Basic
import NamespaceMigration.Proofs.Archive.Names
import NamespaceMigration.Proofs.Files.Spelling

/-! Migrated names. -/

namespace NamespaceMigration

namespace Profile

variable {p : Profile}

lemma Moved.eq_of_forall_notMem {α : Type} [Alphabet α] {ok : List α → Prop} {s t : List α}
    (hne : (Alphabet.spell p.target : List α) ≠ []) (h : Moved p ok s t)
    (ht : ∀ c ∈ (Alphabet.spell p.target : List α), c ∉ t) : s = t := by
  induction h with
  | nil => rfl
  | keep c _ ih => rw [ih fun d hd hmem => ht d hd (by simp [hmem])]
  | @move s t _ _ _ =>
    obtain ⟨c, rest, hc⟩ := List.exists_cons_of_ne_nil hne
    exact absurd (by simp [hc]) (ht c (by simp [hc]))

lemma SparesNames.isName_migrate {text : String} (hp : p.SparesNames) (h : Path.IsName (.ofText text)) :
    Path.IsName (.ofText (p.migrate text).value) := by
  obtain ⟨hempty, hno, hone, htwo⟩ := Path.isName_ofText_iff.1 h
  have hmoved := hp.moved_migrate text
  have htarget : (Alphabet.spell p.target : List Char) ≠ [] := hp.regular.chars.ne_nil p.target_mem_tokens
  have hslash := hp.not_mem_of_not_isAlphanum (c := '/') (by decide)
  have hdot := hp.not_mem_of_not_isAlphanum (c := '.') (by decide)
  have hsame : ∀ other : String, (∀ c ∈ other.toList, c = '.') → (p.migrate text).value = other → text = other := by
    intro other hdots hvalue
    rw [hvalue] at hmoved
    refine String.toList_inj.1 (hmoved.eq_of_forall_notMem htarget fun c hc hmem => ?_)
    exact hdot _ p.target_mem_tokens (hdots c hmem ▸ hc)
  refine Path.isName_ofText_iff.2 ⟨fun hv => ?_, fun hmem => ?_, fun hv => ?_, fun hv => ?_⟩
  · exact hempty (hsame "" (by simp) hv)
  · exact hno ((hmoved.mem_iff (hslash _ p.source_mem_tokens) (hslash _ p.target_mem_tokens)).2 hmem)
  · exact hone (hsame "." (by simp) hv)
  · exact htwo (hsame ".." (by simp) hv)

end Profile

namespace Migration

variable {m : Migration} {p : Place} {path : List RawText} {name : RawText}

def renamed (m : Migration) (path : List RawText) : List RawText := path.map m.rename

def lastName (path : List RawText) : String := (path.getLastD "").shown

lemma lastName_concat (path : List RawText) (text : String) : lastName (path ++ [.ofText text]) = text := by
  rw [lastName, List.getLastD_concat, RawText.shown_ofText]

lemma targetPath_eq (hnames : ∀ name ∈ p, Path.IsName name) (hrenamed : ∀ name ∈ m.renamed path, Path.IsName name) :
    m.targetPath p path = Path.ofPlace (p ++ m.renamed path) := by
  rw [targetPath]
  induction path generalizing p with
  | nil => simp [renamed]
  | cons name path ih =>
    have hname : Path.IsName (m.rename name) := hrenamed _ (by simp [renamed])
    have hrest : ∀ s ∈ m.renamed path, Path.IsName s := fun s hs => hrenamed s (List.mem_cons_of_mem _ hs)
    rw [List.foldl_cons, Path.join_ofPlace (Path.spells_ofPlace hnames) hname,
      ih (List.forall_mem_append.2 ⟨hnames, by simpa using hname⟩) hrest]
    simp [renamed]

variable (hp : m.migrator.profile.SparesNames)
include hp

lemma isName_rename (h : Path.IsName name) : Path.IsName (m.rename name) := by
  rw [rename]
  split
  next text htext =>
    obtain rfl := RawText.text?_eq_some_iff.1 htext
    exact hp.isName_migrate h
  next => exact h

variable (hpath : ∀ name ∈ path, Path.IsName name)
include hpath

lemma isName_of_mem_renamed : ∀ name ∈ m.renamed path, Path.IsName name := by
  intro name hname
  obtain ⟨old, hold, rfl⟩ := List.mem_map.1 hname
  exact isName_rename hp (hpath old hold)

lemma spells_targetPath (hnames : ∀ name ∈ p, Path.IsName name) : Path.Spells (m.targetPath p path) (p ++ m.renamed path) := by
  have hrenamed := isName_of_mem_renamed hp hpath
  rw [targetPath_eq hnames hrenamed]
  exact Path.spells_ofPlace (List.forall_mem_append.2 ⟨hnames, hrenamed⟩)

end Migration

end NamespaceMigration
