import Mathlib.Data.List.Basic
import NamespaceMigration.Manifest.Parser
import NamespaceMigration.Manifest.Printer
import NamespaceMigration.Proofs.Text.Search

/-! The lines of a written manifest, and what is read of the lines of one header. -/

namespace NamespaceMigration.Manifest

def Unbroken (s : List Char) : Prop := '\r' ∉ s ∧ '\n' ∉ s

instance (s : List Char) : Decidable (Unbroken s) := inferInstanceAs (Decidable (_ ∧ _))

section Lines

variable {l s t : List Char}

@[simp]
lemma unbroken_nil : Unbroken [] := ⟨by simp, by simp⟩

@[simp]
lemma unbroken_cons {c : Char} : Unbroken (c :: s) ↔ (c ≠ '\r' ∧ c ≠ '\n') ∧ Unbroken s := by
  simp only [Unbroken, List.mem_cons, not_or, eq_comm]
  tauto

@[simp]
lemma unbroken_append : Unbroken (s ++ t) ↔ Unbroken s ∧ Unbroken t := by
  simp only [Unbroken, List.mem_append, not_or]
  tauto

lemma Unbroken.subset (h : Unbroken t) (hs : s ⊆ t) : Unbroken s := ⟨fun hm => h.1 (hs hm), fun hm => h.2 (hs hm)⟩

inductive LineEnd where
  | lf
  | cr
  | crlf
  deriving DecidableEq

def LineEnd.chars : LineEnd → List Char
  | lf => ['\n']
  | cr => ['\r']
  | crlf => lineEnd

lemma linesFrom_append (e : LineEnd) (h : Unbroken l) {rest : List Char} (hr : e = .cr → rest.head? ≠ some '\n') (acc : List Char) :
    linesFrom acc (l ++ (e.chars ++ rest)) = (acc.reverse ++ l) :: linesFrom [] rest := by
  induction l generalizing acc with
  | nil =>
    cases e with
    | lf =>
      rw [LineEnd.chars, linesFrom.eq_def]
      simp
    | crlf => simp [LineEnd.chars, lineEnd, linesFrom]
    | cr =>
      cases rest with
      | nil => simp [LineEnd.chars, linesFrom]
      | cons c rest =>
        have hc : c ≠ '\n' := by simpa using hr rfl
        simp [LineEnd.chars, linesFrom, hc]
  | cons c l ih =>
    obtain ⟨⟨hr, hn⟩, hl⟩ := unbroken_cons.1 h
    rw [List.cons_append, linesFrom.eq_def]
    simp only [beq_iff_eq, hr, hn, if_false]
    rw [ih hl, List.reverse_cons, List.append_assoc, List.singleton_append]

lemma lines_append (h : Unbroken l) (rest : List Char) : lines (l ++ (lineEnd ++ rest)) = l :: lines rest :=
  linesFrom_append .crlf h (fun he => LineEnd.noConfusion he) []

lemma unbroken_of_mem_linesFrom {acc : List Char} (ha : Unbroken acc) (h : l ∈ linesFrom acc s) : Unbroken l := by
  have hreverse : Unbroken acc.reverse := ha.subset fun c hc => List.mem_reverse.1 hc
  induction hn : s.length using Nat.strongRecOn generalizing acc s with
  | ind n ih =>
    cases s with
    | nil =>
      rw [linesFrom.eq_def] at h
      dsimp only at h
      split at h
      · simp at h
      · obtain rfl := List.mem_singleton.1 h
        exact hreverse
    | cons c s =>
      rw [linesFrom.eq_def] at h
      dsimp only at h
      split at h
      next hc =>
        cases s with
        | nil =>
          obtain rfl := List.mem_singleton.1 h
          exact hreverse
        | cons d rest =>
          dsimp only at h
          split at h
          · rcases List.mem_cons.1 h with rfl | h
            · exact hreverse
            · exact ih rest.length (by simp at hn; omega) unbroken_nil h unbroken_nil rfl
          · rcases List.mem_cons.1 h with rfl | h
            · exact hreverse
            · exact ih (d :: rest).length (by simp at hn ⊢; omega) unbroken_nil h unbroken_nil rfl
      next hr =>
        split at h
        · rcases List.mem_cons.1 h with rfl | h
          · exact hreverse
          · exact ih s.length (by simp at hn; omega) unbroken_nil h unbroken_nil rfl
        next hn' =>
          have hacc : Unbroken (c :: acc) := unbroken_cons.2 ⟨⟨by simpa using hr, by simpa using hn'⟩, ha⟩
          exact ih s.length (by simp at hn; omega) hacc h (hacc.subset fun d hd => List.mem_reverse.1 hd) rfl

lemma unbroken_of_mem_lines (h : l ∈ lines s) : Unbroken l := unbroken_of_mem_linesFrom unbroken_nil h

end Lines

section Folding

variable {s t : List Char} {room : ℕ}

def octets (s : List Char) : ℕ := s.foldr (fun c n => c.utf8Size + n) 0

lemma takeRoom_of_le (h : octets s ≤ room) (t : List Char) :
    takeRoom room (s ++ t) = (s ++ (takeRoom (room - octets s) t).1, (takeRoom (room - octets s) t).2) := by
  induction s generalizing room with
  | nil => rfl
  | cons c s ih =>
    have hc : octets (c :: s) = c.utf8Size + octets s := by simp [octets]
    rw [hc] at h ⊢
    rw [List.cons_append, takeRoom, if_pos (by omega), ih (by omega), Nat.sub_sub]
    rfl

lemma prefix_of_takeRoom (h : room ≤ octets s) (t : List Char) : (takeRoom room (s ++ t)).1 <+: s := by
  induction s generalizing room with
  | nil =>
    obtain rfl : room = 0 := by simpa [octets] using h
    cases t with
    | nil => exact List.prefix_rfl
    | cons c t => simp [takeRoom, Nat.not_le_of_gt (Char.utf8Size_pos c)]
  | cons c s ih =>
    have hc : octets (c :: s) = c.utf8Size + octets s := by simp [octets]
    rw [List.cons_append, takeRoom]
    split
    · exact List.cons_prefix_cons.2 ⟨rfl, ih (by omega)⟩
    · exact List.nil_prefix

def chunks (s : List Char) : List (List Char) :=
  if h : s = [] then []
  else
    have : (takeRoom 71 s).2.length < s.length := length_takeRoom_lt h (by decide)
    (takeRoom 71 s).1 :: chunks (takeRoom 71 s).2
termination_by s.length

lemma flatten_chunks (s : List Char) : (chunks s).flatten = s := by
  induction s using chunks.induct with
  | case1 => simp [chunks]
  | case2 s hs _ ih =>
    rw [chunks, dif_neg hs, List.flatten_cons, ih]
    exact takeRoom_append 71 s

lemma lines_continuations {l : List Char} (hl : Unbroken l) (hs : Unbroken s) (rest : List Char) :
    lines (l ++ (continuations s ++ rest)) = l :: ((chunks s).map (' ' :: ·) ++ lines rest) := by
  induction s using chunks.induct generalizing l with
  | case1 =>
    rw [continuations, dif_pos rfl, lines_append hl]
    simp [chunks]
  | case2 s hs' _ ih =>
    have hparts := takeRoom_append 71 s
    rw [← hparts, unbroken_append] at hs
    have hblank : Unbroken (' ' :: (takeRoom 71 s).1) := unbroken_cons.2 ⟨by decide, hs.1⟩
    rw [continuations, dif_neg hs', List.append_assoc, List.append_assoc, lines_append hl, ih hblank hs.2, chunks.eq_def s, dif_neg hs']
    rfl

def headerLines (name value : String) : List (List Char) :=
  let line := takeRoom 72 (name.toList ++ [':', ' '] ++ value.toList)
  line.1 :: (chunks line.2).map (' ' :: ·)

lemma lines_writeFolded {name value : String} (hn : Unbroken name.toList) (hv : Unbroken value.toList) (rest : List Char) :
    lines (writeFolded name value ++ rest) = headerLines name value ++ lines rest := by
  have hparts := takeRoom_append 72 (name.toList ++ [':', ' '] ++ value.toList)
  have hall : Unbroken (name.toList ++ [':', ' '] ++ value.toList) := by simp [hn, hv]
  rw [← hparts, unbroken_append] at hall
  rw [writeFolded, headerLines, List.append_assoc, lines_continuations hall.1 hall.2]
  rfl

def sectionLines (attributes : List (String × String)) : List (List Char) :=
  attributes.flatMap (fun a => headerLines a.1 a.2) ++ [[]]

structure Readable (a : String × String) : Prop where
  name_ne : a.1.toList ≠ []
  colon : ':' ∉ a.1.toList
  blank : ' ' ∉ a.1.toList
  name : Unbroken a.1.toList
  value : Unbroken a.2.toList

lemma lines_writeAttributes {attributes : List (String × String)} (h : ∀ a ∈ attributes, Readable a) (rest : List Char) :
    lines (writeAttributes attributes ++ rest) = sectionLines attributes ++ lines rest := by
  induction attributes with
  | nil => exact lines_append unbroken_nil rest
  | cons a attributes ih =>
    have ha := h a (by simp)
    rw [writeAttributes, List.flatMap_cons, List.append_assoc, List.append_assoc, lines_writeFolded ha.name ha.value]
    rw [← List.append_assoc (List.flatMap _ _), ← writeAttributes, ih fun b hb => h b (by simp [hb])]
    simp [sectionLines]

end Folding

end NamespaceMigration.Manifest
