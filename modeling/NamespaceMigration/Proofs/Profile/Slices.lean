import NamespaceMigration.Proofs.Profile.Octets

/-! Migration by places in a text that are counted in octets. -/

namespace NamespaceMigration

namespace Bytes

def from? (s : Bytes) (start : ℕ) : Option Bytes := if start ≤ s.length then some (s.drop start) else none

def startsAt? (s : Bytes) (word : String) (place : ℕ) : Option Bool :=
  (from? s place).map fun rest => (utf8 word).isPrefixOf rest

def separatorAt (s : Bytes) (place : ℕ) : Bool := s[place]?.any Alphabet.isSeparator

end Bytes

namespace Rule

def segmentsAt? (s : Bytes) : List String → ℕ → Option (Option ℕ)
  | [], place => some (some place)
  | word :: path, place =>
    if s.separatorAt place then do
      if ← s.startsAt? word (place + 1) then segmentsAt? s path (place + 1 + (Bytes.utf8 word).length) else return none
    else some none

def matchAt? (s : Bytes) (r : Rule) (place : ℕ) : Option (Option ℕ) := do
  match ← segmentsAt? s r.path place with
  | none => return none
  | some stop =>
    if ← r.exceptions.anyM fun child => if s.separatorAt stop then s.startsAt? child (stop + 1) else some false then
      return none
    else if r.leaves.isEmpty then return some stop
    else r.leaves.findSomeM? (segmentsAt? s · stop)

section Reading

variable {α β : Type} {s rest : Bytes} {place : ℕ} {c : UInt8}

lemma anyM_eq_some {f : α → Option Bool} {g : α → Bool} {l : List α} (h : ∀ a ∈ l, f a = some (g a)) :
    l.anyM f = some (l.any g) := by
  induction l with
  | nil => rfl
  | cons a l ih =>
    rw [List.anyM_cons, h a List.mem_cons_self, ih fun b hb => h b (List.mem_cons_of_mem a hb), List.any_cons]
    cases hg : g a <;> simp

lemma findSomeM?_eq_some {f : α → Option (Option β)} {g : α → Option β} {l : List α} (h : ∀ a ∈ l, f a = some (g a)) :
    l.findSomeM? f = some (l.findSome? g) := by
  induction l with
  | nil => rfl
  | cons a l ih =>
    rw [List.findSomeM?, h a List.mem_cons_self, ih fun b hb => h b (List.mem_cons_of_mem a hb), List.findSome?_cons]
    cases hg : g a <;> simp

lemma startsAt?_eq (word : String) (h : place ≤ s.length) :
    s.startsAt? word place = some (Text.strip? (Bytes.utf8 word) (s.drop place)).isSome := by
  have hprefix : (Bytes.utf8 word).isPrefixOf (s.drop place) = (Text.strip? (Bytes.utf8 word) (s.drop place)).isSome := by
    rw [Bool.eq_iff_iff, List.isPrefixOf_iff_prefix, Text.strip?_isSome_iff]
  rw [Bytes.startsAt?, Bytes.from?, if_pos h, Option.map_some, hprefix]

lemma separatorAt_eq (s : Bytes) (place : ℕ) : s.separatorAt place = (s.drop place).head?.any Alphabet.isSeparator := by
  rw [Bytes.separatorAt, List.head?_drop]

lemma lt_length_of_drop_eq_cons (h : s.drop place = c :: rest) : place < s.length := by
  by_contra hlong
  rw [List.drop_eq_nil_of_le (Nat.le_of_not_lt hlong)] at h
  cases h

lemma drop_of_strip? {word : String} (h : place ≤ s.length) (ht : Text.strip? (Bytes.utf8 word) (s.drop place) = some rest) :
    place + (Bytes.utf8 word).length ≤ s.length ∧ s.drop (place + (Bytes.utf8 word).length) = rest := by
  have hword := Text.strip?_eq_some_iff.1 ht
  refine ⟨?_, by rw [← List.drop_drop, hword, List.drop_left]⟩
  have hlength := congrArg List.length hword
  rw [List.length_drop, List.length_append] at hlength
  omega

lemma segmentsAt?_eq (path : List String) (h : place ≤ s.length) :
    segmentsAt? s path place = some ((stripSegments path (s.drop place)).map fun rest => s.length - rest.length) := by
  induction path generalizing place with
  | nil =>
    have hlength : s.length - (s.drop place).length = place := by
      rw [List.length_drop]
      omega
    rw [segmentsAt?, stripSegments, Option.map_some, hlength]
  | cons word path ih =>
    rw [segmentsAt?, separatorAt_eq]
    cases hs : s.drop place with
    | nil => rfl
    | cons c t =>
      have hplace := lt_length_of_drop_eq_cons hs
      have hdrop := Profile.drop_succ_of_drop_eq_cons hs
      rw [List.head?_cons, Option.any_some, stripSegments, startsAt?_eq word hplace, hdrop]
      split
      next =>
        cases ht : Text.strip? (Bytes.utf8 word) t with
        | none => rfl
        | some rest =>
          obtain ⟨hle, hrest⟩ := drop_of_strip? hplace (hdrop ▸ ht)
          rw [Option.bind_some, ← hrest]
          exact ih hle
      next => rfl

lemma goesOnWith_at (s : Bytes) (place : ℕ) (child : String) :
    (if s.separatorAt place then s.startsAt? child (place + 1) else some false) = some (goesOnWith child (s.drop place)) := by
  rw [separatorAt_eq]
  cases hs : s.drop place with
  | nil => rfl
  | cons c t =>
    have hplace := lt_length_of_drop_eq_cons hs
    rw [List.head?_cons, Option.any_some, goesOnWith, startsAt?_eq child hplace, Profile.drop_succ_of_drop_eq_cons hs]
    cases Alphabet.isSeparator c <;> rfl

lemma matchAt?_eq (r : Rule) (h : place ≤ s.length) :
    matchAt? s r place = some ((r.after? (s.drop place)).map fun rest => s.length - rest.length) := by
  rw [matchAt?, segmentsAt?_eq r.path h, after?]
  cases hpath : stripSegments r.path (s.drop place) with
  | none => rfl
  | some rest =>
    obtain ⟨before, hbefore⟩ := (suffix_of_stripSegments hpath).trans (List.drop_suffix _ _)
    have hrest : s.drop (s.length - rest.length) = rest := by
      rw [← hbefore, List.length_append, Nat.add_sub_cancel, List.drop_left]
    have hstop : s.length - rest.length ≤ s.length := Nat.sub_le _ _
    have hexceptions : (r.exceptions.anyM fun child => if s.separatorAt (s.length - rest.length) then
        s.startsAt? child (s.length - rest.length + 1) else some false) = some (r.exceptions.any (goesOnWith · rest)) :=
      anyM_eq_some fun child _ => by rw [goesOnWith_at, hrest]
    have hleaves : r.leaves.findSomeM? (segmentsAt? s · (s.length - rest.length)) =
        some ((r.leaves.findSome? (stripSegments · rest)).map fun rest => s.length - rest.length) := by
      rw [List.map_findSome?]
      exact findSomeM?_eq_some fun leaf _ => by rw [segmentsAt?_eq leaf hstop, hrest]; rfl
    simp only [Option.map_some, Option.bind_eq_bind, Option.bind_some, hexceptions, hleaves]
    split
    next => rfl
    next =>
      split
      next => rfl
      next => rfl

end Reading

end Rule

namespace Profile

def stop? (p : Profile) (s : Bytes) (place : ℕ) : Option (Option ℕ) :=
  p.rules.findSomeM? (Rule.matchAt? s · (place + (Bytes.utf8 p.source).length))

section Stops

variable {p : Profile} {s t : Bytes} {place stop : ℕ}

lemma stop?_eq (p : Profile) (h : place + (Bytes.utf8 p.source).length ≤ s.length) : p.stop? s place =
    some ((p.rules.findSome? (·.after? (s.drop (place + (Bytes.utf8 p.source).length)))).map fun rest =>
      s.length - rest.length) := by
  rw [List.map_findSome?]
  exact Rule.findSomeM?_eq_some fun r _ => Rule.matchAt?_eq r h

lemma le_of_stop? (h : place + (Bytes.utf8 p.source).length ≤ s.length) (hstop : p.stop? s place = some (some stop)) :
    place + (Bytes.utf8 p.source).length ≤ stop ∧ stop ≤ s.length := by
  rw [stop?_eq p h] at hstop
  obtain ⟨rest, hrest, rfl⟩ := Option.map_eq_some_iff.1 (Option.some.inj hstop)
  obtain ⟨r, -, hr⟩ := List.exists_of_findSome?_eq_some hrest
  have hle := (Rule.suffix_of_after? hr).length_le
  rw [List.length_drop] at hle
  omega

end Stops

def search? (p : Profile) (s : Bytes) (hs : Bytes.utf8 p.source ≠ []) (place : ℕ) : Option (List ℕ) :=
  if _h : place + (Bytes.utf8 p.source).length ≤ s.length then
    match s.startsAt? p.source place with
    | none => none
    | some false => search? p s hs (place + 1)
    | some true =>
      match _hstop : p.stop? s place with
      | none => none
      | some none => search? p s hs (place + 1)
      | some (some stop) => (search? p s hs stop).map (place :: ·)
  else some []
termination_by s.length - place
decreasing_by
  · have hpos := List.length_pos_iff.2 hs
    omega
  · have hpos := List.length_pos_iff.2 hs
    omega
  · have hpos := List.length_pos_iff.2 hs
    have hle := le_of_stop? _h _hstop
    omega

def places? (p : Profile) (s : Bytes) : Option (List ℕ) :=
  if hs : Bytes.utf8 p.source = [] then some [] else p.search? s hs 0

section Search

variable {α : Type} {lengthAt : List α → Option ℕ} {pos : ℕ}

lemma scan_of_none {c : α} {t : List α} (h : lengthAt (c :: t) = none) :
    scan lengthAt 0 pos (c :: t) = scan lengthAt 0 (pos + 1) t := by
  rw [scan, h]

lemma scan_eq_nil {s : List α} (h : ∀ t, t <:+ s → lengthAt t = none) : scan lengthAt 0 pos s = [] := by
  induction s generalizing pos with
  | nil => rw [scan]
  | cons c s ih =>
    rw [scan_of_none (h _ List.suffix_rfl)]
    exact ih fun t ht => h t (ht.trans (List.suffix_cons c s))

lemma scan_skip (lengthAt : List α → Option ℕ) (skip pos : ℕ) (s : List α) :
    scan lengthAt skip pos s = scan lengthAt 0 (pos + skip) (s.drop skip) := by
  induction s generalizing skip pos with
  | nil => rw [List.drop_nil, scan, scan]
  | cons c s ih =>
    cases skip with
    | zero => rfl
    | succ skip => rw [scan, ih, List.drop_succ_cons, Nat.add_right_comm, Nat.add_assoc]

lemma scan_of_some {c : α} {t : List α} {n : ℕ} (h : lengthAt (c :: t) = some (n + 1)) :
    scan lengthAt 0 pos (c :: t) = pos :: scan lengthAt 0 (pos + (n + 1)) ((c :: t).drop (n + 1)) := by
  rw [scan, h]
  dsimp only
  rw [Nat.add_sub_cancel, scan_skip, List.drop_succ_cons, Nat.add_assoc, Nat.add_comm 1 n]

variable {p : Profile} {s : Bytes} {place : ℕ}

lemma search?_eq (hs : Bytes.utf8 p.source ≠ []) (hplace : place ≤ s.length) : p.search? s hs place =
    some (scan (matchLength? p.rules (Alphabet.spell p.source)) 0 place (s.drop place)) := by
  induction hn : s.length - place using Nat.strongRecOn generalizing place with
  | ind n ih =>
    have hpos := List.length_pos_iff.2 hs
    rw [search?]
    split
    next h =>
      have hlt : place < s.length := by omega
      have hcons := List.drop_eq_getElem_cons hlt
      have hmiss : p.after? (s.drop place) = none → p.search? s hs (place + 1) =
          some (scan (matchLength? p.rules (Alphabet.spell p.source)) 0 place (s.drop place)) := by
        intro hnone
        have hlength := matchLength?_eq_map_after? p (s.drop place)
        rw [hnone, hcons] at hlength
        rw [ih _ (by omega) hlt rfl, hcons, scan_of_none hlength]
      rw [Rule.startsAt?_eq p.source hplace]
      cases htoken : Text.strip? (Bytes.utf8 p.source) (s.drop place) with
      | none =>
        refine hmiss ?_
        rw [after?]
        exact Option.bind_eq_none_iff.2 fun t ht => by cases htoken.symm.trans ht
      | some rest =>
        have hrest := (Rule.drop_of_strip? hplace htoken).2
        have hafter : p.after? (s.drop place) = p.rules.findSome? (·.after? rest) := by
          exact congrArg (Option.bind · _) htoken
        have hstop := stop?_eq p h
        rw [hrest] at hstop
        split
        next h' => cases h'
        next h' => cases h'
        next =>
          split
          next h' => cases h'.symm.trans hstop
          next h' =>
            have hnone := Option.some.inj (h'.symm.trans hstop)
            refine hmiss ?_
            rw [hafter]
            exact Option.map_eq_none_iff.1 hnone.symm
          next stop h' =>
            obtain ⟨left, hleft, hlength⟩ := Option.map_eq_some_iff.1 (Option.some.inj (hstop.symm.trans h'))
            have hle := le_of_stop? h h'
            have hmatch := matchLength?_eq_map_after? p (s.drop place)
            have hwidth : (s.drop place).length - left.length = stop - place - 1 + 1 := by
              rw [List.length_drop]
              omega
            rw [hafter, hleft, Option.map_some, hwidth, hcons] at hmatch
            have hend : place + (stop - place - 1 + 1) = stop := by omega
            rw [ih _ (by omega) hle.2 rfl, hcons, scan_of_some hmatch, ← hcons, List.drop_drop, hend, Option.map_some]
    next h =>
      rw [scan_eq_nil]
      intro t ht
      rw [matchLength?_eq_none_iff]
      rintro after rfl
      have hlength := ht.length_le
      rw [List.length_append, List.length_drop] at hlength
      exfalso
      have hspell : (Alphabet.spell p.source : Bytes) = Bytes.utf8 p.source := rfl
      rw [hspell] at hlength
      omega

lemma places?_eq (p : Profile) (s : Bytes) : p.places? s = some (p.positions s) := by
  rw [places?]
  split
  next hs => rw [positions_of_source_eq_nil hs]
  next hs => rw [search?_eq hs (Nat.zero_le _), positions_eq_scan hs, List.drop_zero]

end Search

def joined? (p : Profile) (s : String) : ℕ → List ℕ → Option String
  | last, [] => Text.sliceFrom? s.toList last
  | last, place :: found => do
    let part ← if last ≤ place then Text.slice? s.toList last place else none
    return part ++ p.target ++ (← joined? p s (place + (Bytes.utf8 p.source).length) found)

def migrate? (p : Profile) (s : String) : Option (Migrated String) := do
  let found ← p.places? (Bytes.utf8 s)
  if found.isEmpty || p.isTrivial then return ⟨s, false⟩ else return ⟨← joined? p s 0 found, true⟩

section Join

open Bytes (ofChars)

variable {p : Profile} {s : List Char} {i j k : ℕ} {text : String}

lemma sliceFrom?_place (s : List Char) (i : ℕ) : Text.sliceFrom? s (place s i) = some (String.ofList (s.drop i)) := by
  have h := Text.sliceFrom?_append (s.take i) (s.drop i)
  rwa [List.take_append_drop] at h

lemma slice?_place (h : i ≤ j) : Text.slice? s (place s i) (place s j) = some (String.ofList ((s.drop i).take (j - i))) := by
  obtain ⟨n, rfl⟩ := Nat.exists_eq_add_of_le h
  have hslice := Text.slice?_append (s.take i) ((s.drop i).take n) ((s.drop i).drop n)
  rw [List.take_append_drop, List.take_append_drop] at hslice
  rwa [place_add, Nat.add_sub_cancel_left]

lemma joined?_eq {start : ℕ} {found : List ℕ} (h : Standing p.source.toList start found (text.toList.drop start)) :
    p.joined? text (place text.toList start) (found.map (place text.toList)) =
      some (String.ofList (substitute p.source.toList.length p.target.toList start found (text.toList.drop start))) := by
  induction found generalizing start with
  | nil => exact sliceFrom?_place text.toList start
  | cons pos found ih =>
    obtain ⟨hpos, hstands, htail⟩ := h.of_cons_drop
    have hnext := place_of_prefix hstands
    rw [List.map_cons, joined?, if_pos (place_mono _ hpos), slice?_place hpos, Bytes.utf8_eq_ofChars, ← hnext, ih htail, substitute,
      drop_drop_of_le hpos, String.ofList_append, String.ofList_append, String.ofList_toList]
    rfl

lemma isValid_place (text : String) (i : ℕ) : String.Pos.Raw.IsValid text ⟨place text.toList i⟩ := by
  refine String.Pos.Raw.isValid_iff_exists_append.2
    ⟨String.ofList (text.toList.take i), String.ofList (text.toList.drop i), ?_, ?_⟩
  · rw [← String.ofList_append, List.take_append_drop, String.ofList_toList]
  · have hlength : place text.toList i = (Bytes.utf8 (String.ofList (text.toList.take i))).length := by
      rw [Bytes.utf8_eq_ofChars, String.toList_ofList, place]
    rw [hlength]
    rfl

lemma positions_utf8 (p : Profile) (s : String) : p.positions (Bytes.utf8 s) = (p.positions s.toList).map (place s.toList) := by
  rw [Bytes.utf8_eq_ofChars, positions_ofChars]

lemma migrate?_eq (p : Profile) (s : String) : p.migrate? s = some (p.migrate s) := by
  rw [migrate?, places?_eq, positions_utf8, migrate, migrateSymbols, Option.bind_eq_bind, Option.bind_some, List.isEmpty_map]
  split
  next =>
    rw [String.ofList_toList]
    rfl
  next h =>
    have hs : (Alphabet.spell p.source : List Char) ≠ [] := by
      intro hs
      rw [positions_of_source_eq_nil hs] at h
      exact h rfl
    have hstanding : Standing p.source.toList 0 (p.positions s.toList) (s.toList.drop 0) :=
      standing_positions s.toList hs
    have hjoined := joined?_eq hstanding
    rw [show p.joined? s 0 _ = _ from hjoined]
    rfl

end Join

/-- Migrating a text by places in its octets reads no octet outside of it and cuts no character, and comes to what migrating
its octets comes to. -/
theorem migrateBytes_utf8 (p : Profile) (s : String) :
    p.migrate? s = some (p.migrate s) ∧ Bytes.utf8 (p.migrate s).value = (p.migrateBytes (Bytes.utf8 s)).value ∧
    (p.migrate s).changed = (p.migrateBytes (Bytes.utf8 s)).changed ∧
    ∀ k ∈ p.positions (Bytes.utf8 s), String.Pos.Raw.IsValid s ⟨k⟩ ∧
      String.Pos.Raw.IsValid s ⟨k + (Bytes.utf8 p.source).length⟩ := by
  have hoctets := migrateSymbols_ofChars p s.toList
  rw [← Bytes.utf8_eq_ofChars] at hoctets
  refine ⟨migrate?_eq p s, ?_, ?_, ?_⟩
  · rw [migrateBytes, hoctets, migrate, Bytes.utf8_eq_ofChars, String.toList_ofList]
  · rw [migrateBytes, hoctets, migrate]
  · intro k hk
    rw [positions_utf8] at hk
    obtain ⟨i, hi, rfl⟩ := List.mem_map.1 hk
    obtain ⟨-, after, hafter, -⟩ := (leftmost_positions p s.toList).occurs i hi
    have hstands : p.source.toList <+: s.toList.drop i := hafter ▸ List.prefix_append _ after
    rw [Bytes.utf8_eq_ofChars, ← place_of_prefix hstands]
    exact ⟨isValid_place s i, isValid_place s _⟩

end Profile

end NamespaceMigration
