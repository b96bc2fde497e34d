import Mathlib.Data.List.Count
import NamespaceMigration.Proofs.ClassFile.Protection

/-! Byte strings that write each ASCII character in one octet. -/

namespace NamespaceMigration.ModifiedUtf8

open Profile (Matches Leads Alphanumeric rel_bind)

/-- Whether a character is one of ASCII that is written in one octet, as all but the zero are. -/
def isAscii (c : Char) : Bool := 0 < c.toNat && c.toNat < 0x80

def isAsciiOctet (o : UInt8) : Bool := 0 < o.toNat && o.toNat < 0x80

def ShortAscii (raw : Bytes) : Prop :=
  ∀ text, decode? raw = some text → text.toList.countP isAscii = raw.countP isAsciiOctet

instance (raw : Bytes) : Decidable (ShortAscii raw) :=
  decidable_of_iff (∀ text ∈ decode? raw, text.toList.countP isAscii = raw.countP isAsciiOctet) Iff.rfl

abbrev Short : Bytes → List Char → Prop := Spelt fun c => isAscii c = false

variable {bs bs' : Bytes} {s : List Char} {long : Char → Prop}

lemma toNat_ofNat_octet (a : UInt8) : (Char.ofNat a.toNat).toNat = a.toNat := by
  have hvalid : a.toNat.isValidChar := .inl (by have := a.toNat_lt; omega)
  rw [Char.ofNat, dif_pos hvalid]
  rfl

lemma isAscii_ofNat (a : UInt8) : isAscii (Char.ofNat a.toNat) = isAsciiOctet a := by
  rw [isAscii, toNat_ofNat_octet, isAsciiOctet]

lemma countP_octets {os : Bytes} (hos : ∀ o ∈ os, 0x80 ≤ o.toNat) : os.countP isAsciiOctet = 0 := by
  refine List.countP_eq_zero.2 fun o ho => ?_
  have hlow := hos o ho
  simp only [isAsciiOctet, Bool.and_eq_true, decide_eq_true_eq, not_and]
  omega

lemma Spelt.countP_le (h : Spelt long bs s) : bs.countP isAsciiOctet ≤ s.countP isAscii := by
  induction h with
  | nil => exact Nat.le_refl _
  | octet _ _ ih =>
    rw [List.countP_cons, List.countP_cons, isAscii_ofNat]
    omega
  | octets _ _ hos _ _ ih =>
    rw [List.countP_append, countP_octets hos, List.countP_cons]
    omega

lemma Spelt.short (h : Spelt long bs s) (hn : s.countP isAscii = bs.countP isAsciiOctet) : Short bs s := by
  induction h with
  | nil => exact .nil
  | octet ha _ ih =>
    rw [List.countP_cons, List.countP_cons, isAscii_ofNat] at hn
    exact .octet ha (ih (by omega))
  | @octets os c _ hne hos hchars bs s h ih =>
    have hle := h.countP_le
    rw [List.countP_append, countP_octets hos, List.countP_cons, Nat.zero_add] at hn
    have hc : isAscii c = false := by
      by_contra hc
      rw [if_pos (by simpa using hc)] at hn
      omega
    rw [hc, if_neg Bool.false_ne_true, Nat.add_zero] at hn
    exact .octets hc hne hos hchars (ih hn)

lemma ShortAscii.short (h : ShortAscii bs) {text : String} (ht : decode? bs = some text) : Short bs text.toList :=
  (decode?_eq_some_iff.1 ht).short (h text ht)

section Rules

lemma isAscii_of_isAlphanum {c : Char} (h : c.isAlphanum = true) : isAscii c = true := by
  have hlt := Profile.toNat_lt_of_isAlphanum h
  have hpos : c.toNat ≠ 0 := by
    intro h0
    obtain rfl : c = '\x00' := Char.toNat_inj.1 h0
    exact absurd h (by decide)
  simp only [isAscii, Bool.and_eq_true, decide_eq_true_eq]
  omega

def IsPlain (word : String) : Prop := ∀ c ∈ word.toList, isAscii c = true

instance (word : String) : Decidable (IsPlain word) := List.decidableBAll _ _

def Plain (p : Profile) : Prop := ∀ word ∈ p.source :: p.target :: p.words, IsPlain word

instance (p : Profile) : Decidable (Plain p) := List.decidableBAll _ _

lemma IsPlain.isAscii {word : String} (h : IsPlain word) : Profile.IsAscii word := by
  intro c hc
  have hascii := h c hc
  rw [ModifiedUtf8.isAscii, Bool.and_eq_true, decide_eq_true_eq, decide_eq_true_eq] at hascii
  exact hascii.2

lemma plain_of_regular {p : Profile} (h : p.Regular) : Plain p :=
  fun word hw c hc => isAscii_of_isAlphanum (h.alphanumeric word hw c hc)

lemma Plain.of_mem {p : Profile} {r : Rule} {word : String} (hp : Plain p) (hr : r ∈ p.rules)
    (hw : word ∈ r.path ++ r.leaves.flatten ++ r.exceptions) : IsPlain word :=
  hp word (List.mem_cons_of_mem _ (List.mem_cons_of_mem _ (List.mem_flatMap.2 ⟨r, hr, hw⟩)))

lemma isSeparator_of_not_ascii {c : Char} (h : isAscii c = false) : Alphabet.isSeparator c = false := by
  have hdot : c ≠ '.' := by
    rintro rfl
    exact absurd h (by decide)
  have hslash : c ≠ '/' := by
    rintro rfl
    exact absurd h (by decide)
  simp [Alphabet.isSeparator, hdot, hslash]

lemma isSeparator_octet_of_le {o : UInt8} (h : 0x80 ≤ o.toNat) : Alphabet.isSeparator o = false := by
  have hdot : o ≠ 0x2E := by
    rintro rfl
    exact absurd h (by decide)
  have hslash : o ≠ 0x2F := by
    rintro rfl
    exact absurd h (by decide)
  simp [Alphabet.isSeparator, hdot, hslash]

lemma strip?_of_short {word : String} (hw : IsPlain word) (h : Short bs s) :
    Option.Rel Short (Text.strip? (Alphabet.spell word) bs) (Text.strip? (Alphabet.spell word) s) := by
  have hlist : ∀ cs : List Char, (∀ c ∈ cs, isAscii c = true) → ∀ {bs s}, Short bs s →
      Option.Rel Short (Text.strip? (cs.map fun c => UInt8.ofNat c.toNat) bs) (Text.strip? cs s) := by
    intro cs hcs
    induction cs with
    | nil => exact fun h => .some h
    | cons c cs ih =>
      intro bs s h
      have hc : 0 < c.toNat ∧ c.toNat < 0x80 := by simpa [isAscii] using hcs c (by simp)
      have hoctet : (UInt8.ofNat c.toNat).toNat = c.toNat := by
        simpa using Nat.mod_eq_of_lt (by omega : c.toNat < 256)
      cases h with
      | nil => exact .none
      | @octet a _ _ _ h =>
        have heq : UInt8.ofNat c.toNat = a ↔ c = Char.ofNat a.toNat := by
          rw [← UInt8.toNat_inj, ← Char.toNat_inj, hoctet, toNat_ofNat_octet]
        simp only [List.map_cons, Text.strip?, beq_iff_eq, heq]
        split
        · exact ih (fun d hd => hcs d (by simp [hd])) h
        · exact .none
      | @octets os d hd hne hos _ _ _ _ =>
        obtain ⟨o, os, rfl⟩ := List.exists_cons_of_ne_nil hne
        have ho : UInt8.ofNat c.toNat ≠ o := by
          rintro rfl
          have := hos _ List.mem_cons_self
          omega
        have hcd : c ≠ d := by
          rintro rfl
          simp [hcs c (by simp)] at hd
        simp [Text.strip?, ho, hcd]
  rw [Profile.spell_octets hw.isAscii]
  exact hlist word.toList hw h

lemma stripSegments_of_short {path : List String} (hp : ∀ word ∈ path, IsPlain word) (h : Short bs s) :
    Option.Rel Short (Rule.stripSegments path bs) (Rule.stripSegments path s) := by
  induction path generalizing bs s with
  | nil => exact .some h
  | cons word path ih =>
    cases h with
    | nil => exact .none
    | @octet a _ bs s h =>
      have hsep : Alphabet.isSeparator a = Alphabet.isSeparator (Char.ofNat a.toNat) := by
        rw [Bool.eq_iff_iff]
        simp only [Alphabet.isSeparator, Bool.or_eq_true, beq_iff_eq, ← UInt8.toNat_inj, ← Char.toNat_inj, toNat_ofNat_octet]
        rfl
      simp only [Rule.stripSegments, ← hsep]
      split
      · exact rel_bind (strip?_of_short (hp word (by simp)) h) fun _ _ h => ih (fun w hw => hp w (by simp [hw])) h
      · exact .none
    | @octets os c hc hne hos _ bs s h =>
      obtain ⟨o, os, rfl⟩ := List.exists_cons_of_ne_nil hne
      simp [Rule.stripSegments, isSeparator_octet_of_le (hos o (by simp)), isSeparator_of_not_ascii hc]

variable {p : Profile} {r : Rule} (hp : Plain p)

include hp

omit hp in
lemma length_spell_octets {word : String} (hw : IsPlain word) :
    (Alphabet.spell word : Bytes).length = (Alphabet.spell word : List Char).length := by
  rw [Profile.spell_octets hw.isAscii, List.length_map]
  rfl

lemma matchLength?_rule_of_short (hr : r ∈ p.rules) (h : Short bs s) : r.matchLength? bs = r.matchLength? s := by
  have hrespects : Profile.Respects r Short := fun path hw _ _ h =>
    stripSegments_of_short (fun word hm => hp.of_mem hr (hw word hm)) h
  refine hrespects.matchLength?_eq (fun path hw => ?_) h
  simp only [Rule.width]
  rw [List.map_congr_left fun word hm => by rw [length_spell_octets (hp.of_mem hr (hw word hm))]]

lemma matches_iff_of_short (h : Short bs s) : Matches p.rules bs ↔ Matches p.rules s :=
  exists_congr fun r => and_congr_right fun hr => by rw [matchLength?_rule_of_short hp hr h]

lemma matchLength?_of_short (h : Short bs s) : Profile.matchLength? p.rules (Alphabet.spell p.source) bs =
    Profile.matchLength? p.rules (Alphabet.spell p.source) s :=
  have hsource := hp p.source (by simp)
  Profile.matchLength?_eq_of_rel (fun _ hr _ _ h => matchLength?_rule_of_short hp hr h) (length_spell_octets hsource)
    (strip?_of_short hsource h)

lemma free_of_short (hd : p.Distinct Char) (h : Short bs s) (hf : p.Free bs) : p.Free s := by
  have hhead : ∀ {bs : Bytes} {s : List Char}, Short bs s → p.Free bs →
      Profile.matchLength? p.rules (Alphabet.spell p.source) s = none := by
    intro bs s h hf
    rw [← matchLength?_of_short hp h]
    exact hf bs List.suffix_rfl
  induction h with
  | nil => exact Profile.free_nil hd
  | octet ha h ih => exact Profile.free_cons.2 ⟨hhead (.octet ha h) hf, ih (hf.of_suffix (List.suffix_cons _ _))⟩
  | octets hc hne hos hchars h ih =>
    exact Profile.free_cons.2 ⟨hhead (.octets hc hne hos hchars h) hf, ih (hf.of_suffix (List.suffix_append _ _))⟩

end Rules

end NamespaceMigration.ModifiedUtf8
