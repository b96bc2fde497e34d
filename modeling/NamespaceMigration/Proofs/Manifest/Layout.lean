import NamespaceMigration.Proofs.Manifest.Reading

namespace NamespaceMigration.Manifest

section Lines

variable {e : LineEnd} {l body : List Char} {ls : List (List Char)}

lemma head?_flatMap_ne (h : ∀ l ∈ ls, Unbroken l) (he : e = .cr) (hl : Unbroken l) :
    (ls.flatMap (· ++ e.chars) ++ l).head? ≠ some '\n' := by
  subst he
  cases ls with
  | nil =>
    intro hn
    exact hl.2 (List.mem_of_head? hn)
  | cons k ls =>
    rw [List.flatMap_cons, List.append_assoc, List.append_assoc]
    cases k with
    | nil => simp [LineEnd.chars]
    | cons c k =>
      have hc := (unbroken_cons.1 (h (c :: k) List.mem_cons_self)).1.2
      simpa using hc

lemma lines_flatMap_append (h : ∀ l ∈ ls, Unbroken l) (hl : Unbroken l) :
    lines (ls.flatMap (· ++ e.chars) ++ l) = ls ++ lines l := by
  induction ls with
  | nil => rfl
  | cons k ls ih =>
    obtain ⟨hk, hls⟩ := List.forall_mem_cons.1 h
    rw [List.flatMap_cons, List.append_assoc, List.append_assoc, lines,
      linesFrom_append e hk fun he => head?_flatMap_ne hls he hl, ← lines, ih hls]
    rfl

lemma lines_eq_singleton (h : Unbroken l) (hne : l ≠ []) : lines l = [l] := by
  have hfrom : ∀ acc, linesFrom acc l = if acc.reverse ++ l = [] then [] else [acc.reverse ++ l] := by
    clear hne
    induction l with
    | nil =>
      intro acc
      simp [linesFrom, List.isEmpty_iff]
    | cons c l ih =>
      intro acc
      obtain ⟨⟨hr, hn⟩, hl⟩ := unbroken_cons.1 h
      rw [linesFrom.eq_def]
      simp only [beq_iff_eq, hr, hn, if_false, ih hl]
      simp
  rw [lines, hfrom, if_neg (by simpa using hne)]
  rfl

lemma lines_eq_or (h : ∀ l ∈ ls, Unbroken l)
    (hb : body = ls.flatMap (· ++ e.chars) ∨ body ++ e.chars = ls.flatMap (· ++ e.chars)) :
    lines body = ls ∨ lines body ++ [[]] = ls := by
  rcases hb with rfl | hb
  · left
    simpa [lines, linesFrom] using lines_flatMap_append (e := e) h unbroken_nil
  · obtain rfl | ⟨before, last, rfl⟩ := ls.eq_nil_or_concat'
    · cases e <;> simp [LineEnd.chars, lineEnd] at hb
    · rw [List.flatMap_append, List.flatMap_singleton, ← List.append_assoc] at hb
      obtain rfl := List.append_cancel_right hb
      have hlast : Unbroken last := h last (by simp)
      rw [lines_flatMap_append (fun l hl => h l (by simp [hl])) hlast]
      -- a blank line at the end of a text is no line if it has no end
      by_cases hne : last = []
      · subst hne
        right
        simp [lines, linesFrom]
      · left
        rw [lines_eq_singleton hlast hne]

end Lines

section Layouts

def HeaderLayout (a : String × String) (ls : List (List Char)) : Prop :=
  ∃ (first : List Char) (rest : List (List Char)), first ++ rest.flatten = a.2.toList ∧
    ls = (a.1.toList ++ ':' :: ' ' :: first) :: rest.map (' ' :: ·)

inductive SectionLayout : List (String × String) → List (List Char) → Prop
  | nil : SectionLayout [] []
  | cons {a attributes ls rest} (header : HeaderLayout a ls) (others : SectionLayout attributes rest) :
      SectionLayout (a :: attributes) (ls ++ rest)

inductive EntriesLayout : List Section → List (List Char) → Prop
  | nil : EntriesLayout [] []
  | cons {s entries ls rest} (n : ℕ) (entry : SectionLayout s.attributes ls) (others : EntriesLayout entries rest) :
      EntriesLayout (s :: entries) (List.replicate (n + 1) [] ++ (ls ++ rest))

def Layout (m : Manifest) (ls : List (List Char)) : Prop :=
  ∃ main entries n, SectionLayout m.main.attributes main ∧ EntriesLayout m.entries entries ∧
    ls = main ++ (entries ++ List.replicate n [])

/-- Whether a text lays a manifest out: with one kind of line end, which the last line may lack, and perhaps with a mark
before it. -/
def LaidOut (m : Manifest) (text : List Char) : Prop :=
  ∃ (e : LineEnd) (ls : List (List Char)) (body : List Char), m.Layout ls ∧
    (body = ls.flatMap (· ++ e.chars) ∨ body ++ e.chars = ls.flatMap (· ++ e.chars)) ∧
    (text = body ∨ text = mark :: body)

variable {a : String × String} {attributes : List (String × String)} {entries : List Section} {m : Manifest}
  {l : List Char} {ls : List (List Char)}

lemma HeaderLayout.unbroken (h : HeaderLayout a ls) (ha : Readable a) : ∀ l ∈ ls, Unbroken l := by
  obtain ⟨first, rest, hvalue, rfl⟩ := h
  have hv := ha.value
  rw [← hvalue, unbroken_append] at hv
  refine List.forall_mem_cons.2 ⟨by simp [ha.name, hv.1], fun l hl => ?_⟩
  obtain ⟨piece, hpiece, rfl⟩ := List.mem_map.1 hl
  exact unbroken_cons.2 ⟨by decide, hv.2.subset fun c hc => List.mem_flatten.2 ⟨piece, hpiece, hc⟩⟩

lemma SectionLayout.unbroken (h : SectionLayout attributes ls) (ha : ∀ a ∈ attributes, Readable a) :
    ∀ l ∈ ls, Unbroken l := by
  induction h with
  | nil => simp
  | cons header others ih =>
    obtain ⟨hread, hothers⟩ := List.forall_mem_cons.1 ha
    intro l hl
    rcases List.mem_append.1 hl with hl | hl
    · exact header.unbroken hread l hl
    · exact ih hothers l hl

lemma EntriesLayout.unbroken (h : EntriesLayout entries ls) (hs : ∀ s ∈ entries, ∀ a ∈ s.attributes, Readable a) :
    ∀ l ∈ ls, Unbroken l := by
  induction h with
  | nil => simp
  | cons n entry others ih =>
    obtain ⟨hread, hothers⟩ := List.forall_mem_cons.1 hs
    intro l hl
    rcases List.mem_append.1 hl with hl | hl
    · rw [List.eq_of_mem_replicate hl]
      exact unbroken_nil
    · rcases List.mem_append.1 hl with hl | hl
      · exact entry.unbroken hread l hl
      · exact ih hothers l hl

lemma Layout.unbroken (h : m.Layout ls) (hm : m.Writable) : ∀ l ∈ ls, Unbroken l := by
  obtain ⟨main, entries, n, hmain, hentries, rfl⟩ := h
  intro l hl
  rcases List.mem_append.1 hl with hl | hl
  · exact hmain.unbroken hm.main l hl
  · rcases List.mem_append.1 hl with hl | hl
    · exact hentries.unbroken (fun s hs => (hm.entries s hs).2) l hl
    · rw [List.eq_of_mem_replicate hl]
      exact unbroken_nil

end Layouts

section Reading

variable {a : String × String} {attributes : List (String × String)} {entries : List Section} {m : Manifest}
  {ls : List (List Char)} {p : Progress} {number : ℕ}

lemma endSection_endSection (p : Progress) : p.endSection.endSection = p.endSection := by
  obtain ⟨main, entries, current⟩ := p
  cases main with
  | none => rfl
  | some main =>
    by_cases hc : current = []
    · simp [Progress.endSection, Section.isEmpty, hc]
    · simp [Progress.endSection, Section.isEmpty, hc]

lemma finish_endSection (p : Progress) : p.endSection.finish = p.finish := by
  rw [Progress.finish, endSection_endSection, Progress.finish]

lemma isSome_main_endSection (p : Progress) : p.endSection.main.isSome = true := by
  obtain ⟨main, entries, current⟩ := p
  cases main with
  | none => rfl
  | some main => by_cases hc : current = [] <;> simp [Progress.endSection, Section.isEmpty, hc]

lemma current_endSection (p : Progress) : p.endSection.current = [] := by
  obtain ⟨main, entries, current⟩ := p
  cases main with
  | none => rfl
  | some main => by_cases hc : current = [] <;> simp [Progress.endSection, Section.isEmpty, hc]

lemma endSection_current {s : Section} (hm : p.main.isSome = true) (hs : s.attributes ≠ []) :
    Progress.endSection { p with current := s.attributes.reverse } = { p with entries := s :: p.entries, current := [] } := by
  obtain ⟨main, hmain⟩ := Option.isSome_iff_exists.1 hm
  simp [Progress.endSection, hmain, Section.isEmpty, hs]

lemma stepAll_append_of_eq_ok {q : Progress} (h : stepAll p number ls = .ok q) (rest : List (List Char)) :
    stepAll p number (ls ++ rest) = stepAll q (number + ls.length) rest := by
  rw [stepAll_append, h]
  rfl

lemma stepAll_blanks (p : Progress) (number n : ℕ) : stepAll p number (List.replicate (n + 1) []) = .ok p.endSection := by
  induction n generalizing p number with
  | zero => rfl
  | succ n ih =>
    rw [List.replicate_succ, stepAll]
    exact (ih p.endSection (number + 1)).trans (congrArg _ (endSection_endSection p))

lemma HeaderLayout.stepAll_eq (h : HeaderLayout a ls) (ha : Readable a) (ht : p.Takes a.1) :
    stepAll p number ls = .ok { p with current := a :: p.current } := by
  obtain ⟨first, rest, hvalue, rfl⟩ := h
  have hblank : (a.1.toList ++ ':' :: ' ' :: first).head? ≠ some ' ' := by
    obtain ⟨c, cs, hcs⟩ := List.exists_cons_of_ne_nil ha.name_ne
    have hc : c ≠ ' ' := fun he => ha.blank (by simp [hcs, he])
    simpa [hcs] using hc
  refine (stepAll_header_eq_ok_iff hblank (by simp)).2 ⟨_, header?_append_cons ha.name_ne ha.colon ha.blank _, ?_, ?_⟩
  · simpa using ht
  · have hread : (Text.strip? [' '] (' ' :: first)).getD (' ' :: first) = first := rfl
    rw [hread, ← String.ofList_append, hvalue, String.ofList_toList, String.ofList_toList]

lemma SectionLayout.stepAll_eq (h : SectionLayout attributes ls) (ha : ∀ a ∈ attributes, Readable a)
    (ht : ∀ a ∈ attributes.head?, p.Takes a.1) :
    stepAll p number ls = .ok { p with current := attributes.reverse ++ p.current } := by
  induction h generalizing p number with
  | nil => rfl
  | cons header others ih =>
    obtain ⟨hread, hothers⟩ := List.forall_mem_cons.1 ha
    rw [stepAll_append_of_eq_ok (header.stepAll_eq hread (ht _ rfl)), ih hothers fun b _ => by simp [Progress.Takes]]
    simp

lemma EntriesLayout.stepAll_eq (h : EntriesLayout entries ls)
    (hs : ∀ s ∈ entries, s.attributes ≠ [] ∧ ∀ a ∈ s.attributes, Readable a) (hn : ∀ s ∈ entries, StartsWithName s) :
    ∃ q, stepAll p number ls = .ok q ∧
      q.endSection = { p.endSection with entries := entries.reverse ++ p.endSection.entries } := by
  induction h generalizing p number with
  | nil => exact ⟨p, rfl, rfl⟩
  | @cons s entries ls rest n entry others ih =>
    obtain ⟨⟨hne, hread⟩, hs⟩ := List.forall_mem_cons.1 hs
    obtain ⟨hname, hn⟩ := List.forall_mem_cons.1 hn
    have htakes : ∀ a ∈ s.attributes.head?, p.endSection.Takes a.1 := fun a ha _ _ => hname a ha
    rw [stepAll_append_of_eq_ok (stepAll_blanks p number n), stepAll_append_of_eq_ok (entry.stepAll_eq hread htakes),
      current_endSection, List.append_nil]
    obtain ⟨q, hq, hend⟩ := ih (p := { p.endSection with current := s.attributes.reverse }) hs hn
    refine ⟨q, hq, ?_⟩
    rw [hend, endSection_current (isSome_main_endSection p) hne]
    simp [current_endSection]

lemma Layout.stepAll_eq (h : m.Layout ls) (hm : m.Writable) (hn : ∀ s ∈ m.entries, StartsWithName s) :
    ∃ q, stepAll .start 1 ls = .ok q ∧ q.finish = m := by
  obtain ⟨main, entries, n, hmain, hentries, rfl⟩ := h
  have hread : stepAll .start 1 main = .ok ⟨none, [], m.main.attributes.reverse⟩ := by
    simpa [Progress.start] using
      @SectionLayout.stepAll_eq _ _ .start 1 hmain hm.main fun a _ => by simp [Progress.Takes, Progress.start]
  obtain ⟨q, hq, hend⟩ :=
    @EntriesLayout.stepAll_eq _ _ ⟨none, [], m.main.attributes.reverse⟩ (1 + main.length) hentries hm.entries hn
  have hfinish : q.finish = m := by
    rw [← finish_endSection, hend]
    simp [Progress.endSection, Progress.finish, Section.isEmpty]
  rw [stepAll_append_of_eq_ok hread, stepAll_append_of_eq_ok hq]
  cases n with
  | zero => exact ⟨q, rfl, hfinish⟩
  | succ n => exact ⟨q.endSection, stepAll_blanks q _ n, (finish_endSection q).trans hfinish⟩

lemma finish_of_stepAll_blank {q : Progress} (h : stepAll p number (ls ++ [[]]) = .ok q) :
    ∃ r, stepAll p number ls = .ok r ∧ r.finish = q.finish := by
  rw [stepAll_append] at h
  obtain ⟨r, hr, hq⟩ := bind_eq_ok_iff.1 h
  rw [stepAll_blank] at hq
  obtain rfl := Except.ok.inj hq
  exact ⟨r, hr, (finish_endSection r).symm⟩

end Reading

section Whole

variable {m : Manifest} {e : LineEnd} {body text : List Char} {ls : List (List Char)} {c : Char}

lemma head?_flatMap_chars_ne (h : ∀ l ∈ ls.head?, l.head? ≠ some c) (hr : c ≠ '\r') (hn : c ≠ '\n') :
    (ls.flatMap (· ++ e.chars)).head? ≠ some c := by
  cases ls with
  | nil => simp
  | cons l ls =>
    have hl := h l rfl
    cases l with
    | nil => cases e <;> simp [LineEnd.chars, lineEnd, hr.symm, hn.symm]
    | cons d l => simpa using hl

lemma SectionLayout.head? {attributes : List (String × String)} (h : SectionLayout attributes ls) :
    attributes = [] ∧ ls = [] ∨
      ∃ a l, attributes.head? = some a ∧ ls.head? = some l ∧ l.head? = (a.1.toList ++ [':']).head? := by
  cases h with
  | nil => exact .inl ⟨rfl, rfl⟩
  | @cons a _ _ _ header _ =>
    obtain ⟨first, rest, -, rfl⟩ := header
    refine .inr ⟨a, _, rfl, rfl, ?_⟩
    cases a.1.toList <;> rfl

lemma EntriesLayout.eq_nil_of_mem_head? {entries : List Section} (h : EntriesLayout entries ls) (n : ℕ) {l : List Char}
    (hl : l ∈ (ls ++ List.replicate n []).head?) : l = [] := by
  cases h with
  | nil => exact List.eq_of_mem_replicate (List.mem_of_mem_head? hl)
  | cons => exact (Option.mem_some_iff.1 hl).symm

lemma Layout.head?_ne (h : m.Layout ls) (hm : ∀ a ∈ m.main.attributes, Readable a)
    (hc : ∀ a ∈ m.main.attributes.head?, a.1.toList.head? ≠ some c) : ∀ l ∈ ls.head?, l.head? ≠ some c := by
  obtain ⟨main, entries, n, hmain, hentries, rfl⟩ := h
  intro l hl
  rcases hmain.head? with ⟨-, rfl⟩ | ⟨a, first, ha, hfirst, hhead⟩
  · rw [hentries.eq_nil_of_mem_head? n hl]
    simp
  · obtain rfl : first = l := by simpa [List.head?_append, hfirst] using hl
    obtain ⟨d, name, hname⟩ := List.exists_cons_of_ne_nil (hm a (List.mem_of_mem_head? ha)).name_ne
    have hne := hc a ha
    rw [hname] at hhead hne
    rw [hhead]
    exact hne

lemma strip?_mark_of_laidOut (hb : body.head? ≠ some mark) (ht : text = body ∨ text = mark :: body) :
    (Text.strip? [mark] text).getD text = body := by
  rcases ht with rfl | rfl
  · rw [strip?_mark_eq_none hb, Option.getD_none]
  · rfl

/-- However a manifest is laid out, it is what is read. -/
theorem parse_of_laidOut (hm : m.Writable) (hn : ∀ s ∈ m.entries, StartsWithName s)
    (hmark : ∀ a ∈ m.main.attributes.head?, a.1.toList.head? ≠ some mark) (h : m.LaidOut text) :
    parse (Bytes.utf8 (String.ofList text)) = .ok m := by
  obtain ⟨e, ls, body, hlayout, hb, ht⟩ := h
  have hhead : body.head? ≠ some mark := by
    have hwhole := @head?_flatMap_chars_ne e _ mark (hlayout.head?_ne hm.main hmark) (by decide) (by decide)
    rcases hb with rfl | hb
    · exact hwhole
    · intro he
      rw [← hb, List.head?_append, he] at hwhole
      exact hwhole rfl
  obtain ⟨q, hq, rfl⟩ := hlayout.stepAll_eq hm hn
  have hread : ∃ r, stepAll .start 1 (lines body) = .ok r ∧ r.finish = q.finish := by
    rcases lines_eq_or (hlayout.unbroken hm) hb with rfl | rfl
    · exact ⟨q, hq, rfl⟩
    · exact finish_of_stepAll_blank hq
  obtain ⟨r, hr, hfinish⟩ := hread
  rw [parse_utf8, String.toList_ofList, parseText, ← mark, strip?_mark_of_laidOut hhead ht, hr]
  exact congrArg Except.ok hfinish

def spread : Manifest := ⟨⟨[("Created-By", "a b"), ("X", "")]⟩, [⟨[("name", "€")]⟩]⟩

def spreadText : List Char := mark :: "Created-By: a\r  b\rX: \r\r\rname: \r €\r".toList

lemma laidOut_spread : spread.LaidOut spreadText := by
  have hcreated : HeaderLayout ("Created-By", "a b") ["Created-By: a".toList, "  b".toList] :=
    ⟨"a".toList, [" b".toList], by decide, by decide⟩
  have hempty : HeaderLayout ("X", "") ["X: ".toList] := ⟨[], [], by decide, by decide⟩
  have hname : HeaderLayout ("name", "€") ["name: ".toList, " €".toList] := ⟨[], ["€".toList], by decide, by decide⟩
  have hentries : EntriesLayout spread.entries [[], [], "name: ".toList, " €".toList] := .cons 1 (.cons hname .nil) .nil
  exact ⟨.cr, _, _, ⟨_, _, 1, .cons hcreated (.cons hempty .nil), hentries, rfl⟩, .inr (by decide), .inr rfl⟩

lemma writable_spread : spread.Writable := by
  refine ⟨?_, ?_⟩
  · simp only [spread, List.forall_mem_cons, List.not_mem_nil, false_imp_iff, implies_true, and_true]
    and_intros <;> (constructor <;> decide)
  · simp only [spread, List.forall_mem_cons, List.not_mem_nil, false_imp_iff, implies_true, and_true]
    exact ⟨by simp, by constructor <;> decide⟩

theorem parse_spreadText : parse (Bytes.utf8 (String.ofList spreadText)) = .ok spread := by
  refine parse_of_laidOut writable_spread ?_ ?_ laidOut_spread
  · simp only [spread, List.forall_mem_cons, List.not_mem_nil, false_imp_iff, implies_true, and_true]
    exact fun a ha => Option.mem_some_iff.1 ha ▸ by decide
  · exact fun a ha => Option.mem_some_iff.1 ha ▸ by decide

end Whole

end NamespaceMigration.Manifest
