import NamespaceMigration.Proofs.Cache.Key
import NamespaceMigration.Proofs.ClassFile.ModifiedUtf8
import NamespaceMigration.Proofs.Profile.Tokens

/-! Byte strings and the texts that they spell. -/

namespace NamespaceMigration

namespace ModifiedUtf8

def chars? (bs : Bytes) : Option (List Char) := (decodeUnits? bs).bind ofUnits?

lemma decode?_eq (bs : Bytes) : decode? bs = (chars? bs).map String.ofList := by
  have hby : decodeByUnits? bs = (chars? bs).map String.ofList := by
    rw [decodeByUnits?, chars?]
    cases decodeUnits? bs <;> rfl
  rw [decode?]
  split
  next s hs => rw [← hby, decodeByUnits?_of_decodePlain? hs]
  next => exact hby

lemma decodeUnitsFrom_acc (acc : List ℕ) (bs : Bytes) :
    decodeUnitsFrom acc bs = (decodeUnits? bs).map (acc.reverse ++ ·) := by
  rw [decodeUnits?]
  induction hn : bs.length using Nat.strongRecOn generalizing acc bs with
  | ind n ih =>
    have hstep : ∀ (u : ℕ) (rest : Bytes), rest.length < n →
        decodeUnitsFrom (u :: acc) rest = (decodeUnitsFrom [u] rest).map (acc.reverse ++ ·) := by
      intro u rest hr
      rw [ih rest.length hr (u :: acc) rest rfl, ih rest.length hr [u] rest rfl]
      simp [Function.comp_def]
    cases bs with
    | nil => simp [decodeUnitsFrom]
    | cons a rest =>
      rw [List.length_cons] at hn
      rw [decodeUnitsFrom.eq_def, decodeUnitsFrom.eq_def]
      dsimp only
      split
      · exact hstep _ _ (by omega)
      · split
        · split
          next b rest =>
            split
            · exact hstep _ _ (by simp at hn; omega)
            · rfl
          next => rfl
        · split
          · split
            next b c rest =>
              split
              · exact hstep _ _ (by simp at hn; omega)
              · rfl
            next => rfl
          · rfl

lemma ofUnitsFrom_acc (acc : List Char) (us : List ℕ) : ofUnitsFrom acc us = (ofUnits? us).map (acc.reverse ++ ·) := by
  rw [ofUnits?]
  induction hn : us.length using Nat.strongRecOn generalizing acc us with
  | ind n ih =>
    have hstep : ∀ (c : Char) (rest : List ℕ), rest.length < n →
        ofUnitsFrom (c :: acc) rest = (ofUnitsFrom [c] rest).map (acc.reverse ++ ·) := by
      intro c rest hr
      rw [ih rest.length hr (c :: acc) rest rfl, ih rest.length hr [c] rest rfl]
      simp [Function.comp_def]
    cases us with
    | nil => simp [ofUnitsFrom]
    | cons u rest =>
      rw [List.length_cons] at hn
      rw [ofUnitsFrom.eq_def, ofUnitsFrom.eq_def]
      dsimp only
      split
      · split
        next v rest =>
          split
          · exact hstep _ _ (by simp at hn; omega)
          · rfl
        next => rfl
      · split
        · rfl
        · exact hstep _ _ (by omega)

structure Unit (os : Bytes) (u : ℕ) : Prop where
  decodes : ∀ acc rest, decodeUnitsFrom acc (os ++ rest) = decodeUnitsFrom (u :: acc) rest
  ascii : (∃ a : UInt8, a.toNat < 0x80 ∧ os = [a] ∧ u = a.toNat) ∨ os ≠ [] ∧ ∀ o ∈ os, 0x80 ≤ o.toNat

lemma exists_unit {a : UInt8} {rest : Bytes} {us : List ℕ} (h : decodeUnits? (a :: rest) = some us) :
    ∃ os u rest' vs, a :: rest = os ++ rest' ∧ us = u :: vs ∧ Unit os u ∧ decodeUnits? rest' = some vs := by
  have hnext : ∀ os u rest', a :: rest = os ++ rest' → Unit os u →
      ∃ os u rest' vs, a :: rest = os ++ rest' ∧ us = u :: vs ∧ Unit os u ∧ decodeUnits? rest' = some vs := by
    intro os u rest' he hu
    rw [he, decodeUnits?, hu.decodes, decodeUnitsFrom_acc] at h
    obtain ⟨vs, hvs, rfl⟩ := Option.map_eq_some_iff.1 h
    exact ⟨os, u, rest', vs, he, rfl, hu, hvs⟩
  have htail : ∀ {b : UInt8}, isTail b = true → 0x80 ≤ b.toNat := by
    intro b hb
    simp only [isTail, Bool.and_eq_true, decide_eq_true_eq] at hb
    exact UInt8.le_iff_toNat_le.1 hb.1
  have h' := h
  rw [decodeUnits?, decodeUnitsFrom.eq_def] at h'
  dsimp only at h'
  split at h'
  next ha =>
    have ha : a.toNat < 0x80 := UInt8.lt_iff_toNat_lt.1 ha
    exact hnext [a] a.toNat rest rfl ⟨fun acc rest => decodeUnitsFrom_one ha, .inl ⟨a, ha, rfl, rfl⟩⟩
  next =>
    split at h'
    next ha =>
      have ha : 0xC0 ≤ a.toNat ∧ a.toNat < 0xE0 := ⟨UInt8.le_iff_toNat_le.1 ha.1, UInt8.lt_iff_toNat_lt.1 ha.2⟩
      split at h'
      next b rest' =>
        split at h'
        next hb =>
          have hlow := htail hb
          refine hnext [a, b] _ rest' rfl ⟨fun acc rest => decodeUnitsFrom_two ha hb, .inr ⟨by simp, ?_⟩⟩
          simp only [List.mem_cons, List.not_mem_nil, or_false, forall_eq_or_imp, forall_eq]
          omega
        next => cases h'
      next => cases h'
    next =>
      split at h'
      next ha =>
        have ha : 0xE0 ≤ a.toNat ∧ a.toNat < 0xF0 := ⟨UInt8.le_iff_toNat_le.1 ha.1, UInt8.lt_iff_toNat_lt.1 ha.2⟩
        split at h'
        next b c rest' =>
          split at h'
          next hbc =>
            rw [Bool.and_eq_true] at hbc
            have hlow := htail hbc.1
            have hlow' := htail hbc.2
            refine hnext [a, b, c] _ rest' rfl
              ⟨fun acc rest => decodeUnitsFrom_three ha hbc.1 hbc.2, .inr ⟨by simp, ?_⟩⟩
            simp only [List.mem_cons, List.not_mem_nil, or_false, forall_eq_or_imp, forall_eq]
            omega
          next => cases h'
        next => cases h'
      next => cases h'

inductive Spelt (long : Char → Prop) : Bytes → List Char → Prop
  | nil : Spelt long [] []
  | octet {a : UInt8} (ha : a.toNat < 0x80) {bs : Bytes} {s : List Char} (h : Spelt long bs s) :
    Spelt long (a :: bs) (Char.ofNat a.toNat :: s)
  | octets {os : Bytes} {c : Char} (hc : long c) (hne : os ≠ []) (hos : ∀ o ∈ os, 0x80 ≤ o.toNat)
    (hchars : ∀ rest, chars? (os ++ rest) = (chars? rest).map (c :: ·)) {bs : Bytes} {s : List Char} (h : Spelt long bs s) :
    Spelt long (os ++ bs) (c :: s)

abbrev Spells : Bytes → List Char → Prop := Spelt fun _ => True

variable {os os' bs : Bytes} {s : List Char} {u v : ℕ}

lemma decodeUnits?_append (hu : Unit os u) (bs : Bytes) : decodeUnits? (os ++ bs) = (decodeUnits? bs).map (u :: ·) := by
  rw [decodeUnits?, hu.decodes, decodeUnitsFrom_acc]
  rfl

lemma chars?_unit (hu : Unit os u) (hhigh : isHigh u = false) (hlow : isLow u = false) (bs : Bytes) :
    chars? (os ++ bs) = (chars? bs).map (Char.ofNat u :: ·) := by
  have hof : ∀ us, ofUnits? (u :: us) = (ofUnits? us).map (Char.ofNat u :: ·) := by
    intro us
    rw [ofUnits?, ofUnitsFrom.eq_def]
    dsimp only
    rw [hhigh, hlow, if_neg (by simp), if_neg (by simp), ofUnitsFrom_acc]
    rfl
  rw [chars?, decodeUnits?_append hu, chars?]
  cases decodeUnits? bs with
  | none => rfl
  | some us => exact hof us

lemma chars?_pair (hu : Unit os u) (hv : Unit os' v) (hhigh : isHigh u = true) (hlow : isLow v = true) (bs : Bytes) :
    chars? (os ++ os' ++ bs) =
      (chars? bs).map (Char.ofNat (0x10000 + (u - 0xD800) * 0x400 + (v - 0xDC00)) :: ·) := by
  have hof : ∀ us, ofUnits? (u :: v :: us) =
      (ofUnits? us).map (Char.ofNat (0x10000 + (u - 0xD800) * 0x400 + (v - 0xDC00)) :: ·) := by
    intro us
    rw [ofUnits?, ofUnitsFrom.eq_def]
    dsimp only
    rw [hhigh, hlow, if_pos rfl, if_pos rfl, ofUnitsFrom_acc]
    rfl
  rw [chars?, List.append_assoc, decodeUnits?_append hu, decodeUnits?_append hv, chars?]
  cases decodeUnits? bs with
  | none => rfl
  | some us => exact hof us

lemma Unit.le_of_not_ascii (hu : Unit os u) (h : 0x80 ≤ u) : os ≠ [] ∧ ∀ o ∈ os, 0x80 ≤ o.toNat := by
  rcases hu.ascii with ⟨a, ha, -, rfl⟩ | ho
  · omega
  · exact ho

lemma spells_of_chars? (h : chars? bs = some s) : Spells bs s := by
  induction hn : bs.length using Nat.strongRecOn generalizing bs s with
  | ind n ih =>
    cases bs with
    | nil =>
      obtain rfl : [] = s := by simpa [chars?, decodeUnits?, decodeUnitsFrom, ofUnits?, ofUnitsFrom] using h
      exact .nil
    | cons a rest =>
      obtain ⟨us, hus, hs⟩ := Option.bind_eq_some_iff.1 h
      obtain ⟨os, u, bs, vs, he, rfl, hu, hvs⟩ := exists_unit hus
      rw [he] at h hn ⊢
      rw [List.length_append] at hn
      have hpos : 0 < os.length := by
        rcases hu.ascii with ⟨a, -, rfl, -⟩ | ⟨ho, -⟩
        · exact Nat.one_pos
        · exact List.length_pos_iff.2 ho
      cases hhigh : isHigh u with
      | false =>
        cases hlow : isLow u with
        | true =>
          rw [ofUnits?, ofUnitsFrom.eq_def] at hs
          simp [hhigh, hlow] at hs
        | false =>
          have hc := chars?_unit hu hhigh hlow
          rw [hc] at h
          obtain ⟨t, ht, rfl⟩ := Option.map_eq_some_iff.1 h
          have hrest := ih bs.length (by omega) ht rfl
          rcases hu.ascii with ⟨a, ha, rfl, rfl⟩ | ⟨hne, hos⟩
          · exact .octet ha hrest
          · exact .octets trivial hne hos hc hrest
      | true =>
        -- a high surrogate makes a character with the low one after it
        have hu' := hu.le_of_not_ascii (by simp [isHigh] at hhigh; omega)
        cases vs with
        | nil => simp [ofUnits?, ofUnitsFrom, hhigh] at hs
        | cons v ws =>
          cases hlow : isLow v with
          | false => simp [ofUnits?, ofUnitsFrom, hhigh, hlow] at hs
          | true =>
            cases bs with
            | nil => simp [decodeUnits?, decodeUnitsFrom] at hvs
            | cons b bs =>
              obtain ⟨os', w, bs', ws', he', hw, hv, hws⟩ := exists_unit hvs
              obtain ⟨rfl, rfl⟩ := List.cons.inj hw
              have hv' := hv.le_of_not_ascii (by simp [isLow] at hlow; omega)
              have hlen := congrArg List.length he'
              rw [List.length_append] at hlen
              have hc := chars?_pair hu hv hhigh hlow
              rw [he', ← List.append_assoc] at h ⊢
              rw [hc] at h
              obtain ⟨t, ht, rfl⟩ := Option.map_eq_some_iff.1 h
              refine .octets trivial (by simp [hu'.1]) (fun o ho => ?_) hc (ih bs'.length (by omega) ht rfl)
              exact (List.mem_append.1 ho).elim (hu'.2 o) (hv'.2 o)

lemma chars?_eq_some_iff : chars? bs = some s ↔ Spells bs s := by
  refine ⟨spells_of_chars?, fun h => ?_⟩
  induction h with
  | nil => rfl
  | @octet a ha _ _ _ ih =>
    have hlow : isHigh a.toNat = false ∧ isLow a.toNat = false := by
      simp only [isHigh, isLow, Bool.and_eq_false_iff, decide_eq_false_iff_not]
      omega
    rw [← List.singleton_append, chars?_unit ⟨fun _ _ => decodeUnitsFrom_one ha, .inl ⟨_, ha, rfl, rfl⟩⟩ hlow.1 hlow.2, ih]
    rfl
  | octets _ _ _ hchars _ ih => rw [hchars, ih, Option.map_some]

lemma decode?_eq_some_iff {text : String} : decode? bs = some text ↔ Spells bs text.toList := by
  rw [decode?_eq, Option.map_eq_some_iff, ← chars?_eq_some_iff]
  constructor
  · rintro ⟨s, hs, rfl⟩
    simpa using hs
  · intro h
    exact ⟨_, h, String.ofList_toList⟩

lemma Spelt.decode? {long : Char → Prop} (h : Spelt long bs s) : decode? bs = some (String.ofList s) := by
  rw [decode?_eq_some_iff, String.toList_ofList]
  induction h with
  | nil => exact .nil
  | octet ha _ ih => exact .octet ha ih
  | octets _ hne hos hchars _ ih => exact .octets trivial hne hos hchars ih

lemma spelt_octet_iff {long : Char → Prop} {a : UInt8} (ha : a.toNat < 0x80) :
    Spelt long (a :: bs) s ↔ ∃ t, s = Char.ofNat a.toNat :: t ∧ Spelt long bs t := by
  constructor
  · intro h
    generalize hx : a :: bs = x at h
    cases h with
    | nil => cases hx
    | @octet b _ _ t h =>
      obtain ⟨rfl, rfl⟩ := List.cons.inj hx
      exact ⟨t, rfl, h⟩
    | @octets os _ _ hne hos _ _ _ _ =>
      obtain ⟨o, os, rfl⟩ := List.exists_cons_of_ne_nil hne
      obtain ⟨rfl, -⟩ := List.cons.inj hx
      exact absurd (hos a (by simp)) (Nat.not_le.2 ha)
  · rintro ⟨t, rfl, h⟩
    exact .octet ha h

end ModifiedUtf8

namespace Profile

open ModifiedUtf8 (Spelt spelt_octet_iff)

def IsAscii (word : String) : Prop := ∀ c ∈ word.toList, c.toNat < 0x80

def Ascii (p : Profile) : Prop := ∀ word ∈ p.source :: p.target :: p.words, IsAscii word

variable {p : Profile} {long : Char → Prop} {word : String} {bs bs' : Bytes} {s t : List Char}

lemma spell_octets (hw : IsAscii word) : (Alphabet.spell word : List UInt8) = word.toList.map fun c => UInt8.ofNat c.toNat := by
  have hspell : (Alphabet.spell word : List UInt8) = Bytes.utf8 word := rfl
  rw [hspell, Bytes.utf8_eq_flatMap, List.map_eq_flatMap]
  refine List.flatMap_congr fun c hc => ?_
  have hval : c.val.toNat = c.toNat := rfl
  have hle : c.toNat ≤ 127 := Nat.le_of_lt_succ (hw c hc)
  simp only [String.utf8EncodeChar, hval, if_pos hle]

lemma spelt_append_iff (hw : IsAscii word) :
    Spelt long (Alphabet.spell word ++ bs) s ↔ ∃ t, s = Alphabet.spell word ++ t ∧ Spelt long bs t := by
  have hlist : ∀ cs : List Char, (∀ c ∈ cs, c.toNat < 0x80) → ∀ s,
      (Spelt long (cs.map (fun c => UInt8.ofNat c.toNat) ++ bs) s ↔ ∃ t, s = cs ++ t ∧ Spelt long bs t) := by
    intro cs hcs
    induction cs with
    | nil => simp
    | cons c cs ih =>
      intro s
      have hc : (UInt8.ofNat c.toNat).toNat = c.toNat := by
        have := hcs c (by simp)
        simpa using Nat.mod_eq_of_lt (by omega : c.toNat < 256)
      rw [List.map_cons, List.cons_append, spelt_octet_iff (by rw [hc]; exact hcs c (by simp)), hc, Char.ofNat_toNat]
      constructor
      · rintro ⟨t, rfl, h⟩
        obtain ⟨t, rfl, ht⟩ := (ih (fun d hd => hcs d (by simp [hd])) t).1 h
        exact ⟨t, rfl, ht⟩
      · rintro ⟨t, rfl, h⟩
        exact ⟨cs ++ t, rfl, (ih (fun d hd => hcs d (by simp [hd])) _).2 ⟨t, rfl, h⟩⟩
  rw [spell_octets hw]
  exact hlist word.toList hw s

lemma exists_of_isSeparator {a : UInt8} (ha : Alphabet.isSeparator a = true) (h : Spelt long (a :: bs) s) :
    ∃ c t, Alphabet.isSeparator c = true ∧ s = c :: t ∧ Spelt long bs t := by
  have hsep : a = 0x2E ∨ a = 0x2F := by simpa [Alphabet.isSeparator] using ha
  rcases hsep with rfl | rfl
  · obtain ⟨t, rfl, ht⟩ := (spelt_octet_iff (by decide)).1 h
    exact ⟨_, t, by decide, rfl, ht⟩
  · obtain ⟨t, rfl, ht⟩ := (spelt_octet_iff (by decide)).1 h
    exact ⟨_, t, by decide, rfl, ht⟩

lemma stripSegments_of_spelt {path : List String} (hp : ∀ word ∈ path, IsAscii word) (h : Spelt long bs s)
    (hs : Rule.stripSegments path bs = some bs') : ∃ t, Rule.stripSegments path s = some t ∧ Spelt long bs' t := by
  induction path generalizing bs s with
  | nil =>
    obtain rfl := Option.some.inj hs
    exact ⟨s, rfl, h⟩
  | cons word path ih =>
    cases bs with
    | nil => cases hs
    | cons a bs =>
      simp only [Rule.stripSegments] at hs
      split at hs
      next ha =>
        obtain ⟨rest, hrest, hpath'⟩ := Option.bind_eq_some_iff.1 hs
        obtain rfl := Text.strip?_eq_some_iff.1 hrest
        obtain ⟨c, s, hc, rfl, hword⟩ := exists_of_isSeparator ha h
        obtain ⟨s, rfl, hpath⟩ := (spelt_append_iff (hp word (by simp))).1 hword
        obtain ⟨t, ht, hafter⟩ := ih (fun w hw => hp w (by simp [hw])) hpath hpath'
        exact ⟨t, by simp [Rule.stripSegments, hc, Text.strip?_append, ht], hafter⟩
      next => cases hs

lemma Ascii.of_mem (hp : p.Ascii) {r : Rule} (hr : r ∈ p.rules) (hw : word ∈ r.path ++ r.leaves.flatten ++ r.exceptions) :
    IsAscii word :=
  hp word (List.mem_cons_of_mem _ (List.mem_cons_of_mem _ (List.mem_flatMap.2 ⟨r, hr, hw⟩)))

lemma Ascii.leads_of_spelt (hp : p.Ascii) (h : Spelt long bs s) (hl : Leads p.rules bs) : Leads p.rules s := by
  obtain ⟨r, hr, hs⟩ := hl
  obtain ⟨rest, hrest⟩ := Option.isSome_iff_exists.1 hs
  obtain ⟨t, ht, -⟩ := stripSegments_of_spelt (fun word hw => hp.of_mem hr (by simp [hw])) h hrest
  exact ⟨r, hr, by simp [ht]⟩

lemma clear_of_octets (hp : IsAscii word) (hn : (Alphabet.spell word : List UInt8) ≠ []) {os : Bytes}
    (hos : ∀ o ∈ os, 0x80 ≤ o.toNat) : Text.Clear (Alphabet.spell word) os := by
  induction os with
  | nil => exact Text.clear_nil
  | cons o os ih =>
    refine Text.Clear.cons (fun ho => ?_) hn (ih fun b hb => hos b (by simp [hb]))
    have hmem := List.mem_of_head? ho
    rw [spell_octets hp, List.mem_map] at hmem
    obtain ⟨c, hc, rfl⟩ := hmem
    have hlt := hp c hc
    have hge := hos (UInt8.ofNat c.toNat) (by simp)
    rw [UInt8.toNat_ofNat'] at hge
    omega

theorem Moved.of_spelt (hp : p.Ascii) (hd : p.Distinct UInt8) {ok : Bytes → Prop} {ok' : List Char → Prop}
    (hok : ∀ bs s, Spelt long bs s → ok bs → ok' s) (h : Spelt long bs s) (hm : Moved p ok bs bs') :
    ∃ t, Spelt long bs' t ∧ Moved p ok' s t := by
  induction hn : bs.length using Nat.strongRecOn generalizing bs s bs' with
  | ind n ih =>
    cases h with
    | nil =>
      obtain rfl := hm.eq_nil hd
      exact ⟨[], .nil, .nil⟩
    | @octets os c hc hne hos hchars bs s h =>
      obtain ⟨bs', rfl, hrest⟩ := hm.of_clear_append (clear_of_octets (hp _ (by simp)) hd.source_ne_nil hos)
      have hpos := List.length_pos_iff.2 hne
      obtain ⟨t, ht, htext⟩ := ih bs.length (by simp at hn; omega) h hrest rfl
      exact ⟨c :: t, .octets hc hne hos hchars ht, .keep c htext⟩
    | @octet a ha bs s h =>
      generalize hx : a :: bs = x at hm
      cases hm with
      | nil => cases hx
      | keep b hm =>
        obtain ⟨rfl, rfl⟩ := List.cons.inj hx
        obtain ⟨t, ht, hm⟩ := ih bs.length (by simp at hn; omega) h hm rfl
        exact ⟨_ :: t, .octet ha ht, .keep _ hm⟩
      | @move after after' hafter hm =>
        have hs : Spelt long (Alphabet.spell p.source ++ after) (Char.ofNat a.toNat :: s) := hx ▸ .octet ha h
        obtain ⟨s', hs', hspelt⟩ := (spelt_append_iff (hp _ (by simp))).1 hs
        have hpos := List.length_pos_iff.2 hd.source_ne_nil
        have hlen := congrArg List.length hx
        rw [List.length_append] at hlen
        obtain ⟨t, ht, hm⟩ := ih after.length (by omega) hspelt hm rfl
        rw [hs']
        exact ⟨_, (spelt_append_iff (hp _ (by simp))).2 ⟨t, rfl, ht⟩, .move (hok _ _ hspelt hafter) hm⟩

end Profile

end NamespaceMigration
