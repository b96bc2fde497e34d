import NamespaceMigration.Proofs.ClassFile.DescriptorGrammar

/-! Descriptors read octet by octet, from places in a text that are counted in octets. -/

namespace NamespaceMigration

namespace DescriptorScan

def octet (c : Char) : UInt8 := UInt8.ofNat c.toNat

def isAt (s : String) (place : ℕ) (c : Char) : Bool := (Bytes.utf8 s)[place]? == some (octet c)

def find? (c : Char) (s : String) : Option ℕ :=
  (Text.splitFirst? (· == c) s.toList).map fun (before, _) => (Bytes.ofChars before).length

def type? (s : String) (place : ℕ) : Option (Except ClassFault (FieldType × ℕ)) :=
  match _h : (Bytes.utf8 s)[place]? with
  | none => some (.error (.invalidDescriptor s))
  | some tag =>
    if tag = octet '[' then (type? s (place + 1)).map fun r => r.map fun (element, next) => (.array element, next)
    else if tag = octet 'L' then do
      let rest ← Text.sliceFrom? s.toList (place + 1)
      match find? ';' rest with
      | none => return .error (.invalidDescriptor s)
      | some stop =>
        if stop = 0 then return .error (.invalidDescriptor s)
        else return .ok (.object (← Text.slice? rest.toList 0 stop), place + 1 + stop + 1)
    else
      match BaseType.all.find? fun b => octet b.letter == tag with
      | some b => some (.ok (.base b, place + 1))
      | none => some (.error (.invalidDescriptor s))
termination_by (Bytes.utf8 s).length - place
decreasing_by
  have := (List.getElem?_eq_some_iff.1 _h).1
  omega

section Types

variable {s : String} {place next : ℕ} {type : FieldType} {tag : UInt8}

lemma type?_of_none (h : (Bytes.utf8 s)[place]? = none) : type? s place = some (.error (.invalidDescriptor s)) := by
  rw [type?]
  split
  next => rfl
  next h' => cases h.symm.trans h'

lemma type?_array (h : (Bytes.utf8 s)[place]? = some (octet '[')) :
    type? s place = (type? s (place + 1)).map fun r => r.map fun (element, next) => (.array element, next) := by
  rw [type?]
  split
  next h' => cases h.symm.trans h'
  next tag h' =>
    obtain rfl := Option.some.inj (h.symm.trans h')
    rw [if_pos rfl]

lemma type?_object (h : (Bytes.utf8 s)[place]? = some (octet 'L')) :
    type? s place = (Text.sliceFrom? s.toList (place + 1)).bind fun rest =>
      match find? ';' rest with
      | none => some (.error (.invalidDescriptor s))
      | some stop =>
        if stop = 0 then some (.error (.invalidDescriptor s))
        else (Text.slice? rest.toList 0 stop).map fun name => .ok (.object name, place + 1 + stop + 1) := by
  rw [type?]
  split
  next h' => cases h.symm.trans h'
  next tag h' =>
    obtain rfl := Option.some.inj (h.symm.trans h')
    rw [if_neg (by decide), if_pos rfl]
    refine bind_congr fun rest => ?_
    split
    next => rfl
    next stop _ =>
      split
      next => rfl
      next => cases Text.slice? rest.toList 0 stop <;> rfl

lemma type?_base (h : (Bytes.utf8 s)[place]? = some tag) (ha : tag ≠ octet '[') (ho : tag ≠ octet 'L') :
    type? s place = match BaseType.all.find? fun b => octet b.letter == tag with
      | some b => some (.ok (.base b, place + 1))
      | none => some (.error (.invalidDescriptor s)) := by
  rw [type?]
  split
  next h' => cases h.symm.trans h'
  next tag h' =>
    obtain rfl := Option.some.inj (h.symm.trans h')
    rw [if_neg ha, if_neg ho]

lemma lt_of_type? (h : type? s place = some (.ok (type, next))) : place < next ∧ place < (Bytes.utf8 s).length := by
  induction hn : (Bytes.utf8 s).length - place using Nat.strongRecOn generalizing place type with
  | ind n ih =>
    cases htag : (Bytes.utf8 s)[place]? with
    | none => cases (type?_of_none htag).symm.trans h
    | some tag =>
      have hplace := (List.getElem?_eq_some_iff.1 htag).1
      refine ⟨?_, hplace⟩
      by_cases ha : tag = octet '['
      · subst ha
        rw [type?_array htag, Option.map_eq_some_iff] at h
        obtain ⟨r, hr, he⟩ := h
        cases r with
        | error e => cases he
        | ok r =>
          obtain ⟨element, place'⟩ := r
          obtain ⟨rfl, rfl⟩ := Prod.mk.inj (Except.ok.inj he)
          have hlt := (ih _ (by omega) hr rfl).1
          omega
      by_cases ho : tag = octet 'L'
      · subst ho
        rw [type?_object htag, Option.bind_eq_some_iff] at h
        obtain ⟨rest, -, h⟩ := h
        split at h
        next => cases h
        next stop _ =>
          split at h
          next => cases h
          next =>
            obtain ⟨name, -, he⟩ := Option.map_eq_some_iff.1 h
            obtain ⟨rfl, rfl⟩ := Prod.mk.inj (Except.ok.inj he)
            omega
      · rw [type?_base htag ha ho] at h
        split at h
        next =>
          obtain ⟨rfl, rfl⟩ := Prod.mk.inj (Except.ok.inj (Option.some.inj h))
          omega
        next => cases h

end Types

def params? (s : String) (acc : List FieldType) (place : ℕ) : Option (Except ClassFault (List FieldType × ℕ)) :=
  if isAt s place ')' then some (.ok (acc.reverse, place + 1))
  else
    match _h : type? s place with
    | some (.ok (type, next)) => params? s (type :: acc) next
    | some (.error e) => some (.error e)
    | none => none
termination_by (Bytes.utf8 s).length - place
decreasing_by
  have := lt_of_type? _h
  omega

def result? (s : String) (place : ℕ) : Option (Except ClassFault (Option FieldType × ℕ)) :=
  if isAt s place 'V' then some (.ok (none, place + 1))
  else (type? s place).map fun r => r.map fun x => (some x.1, x.2)

def finish {α : Type} (s : String) (a : α) (place : ℕ) : Except ClassFault α :=
  if place = (Bytes.utf8 s).length then .ok a else .error (.invalidDescriptor s)

def field? (s : String) : Option (Except ClassFault FieldType) := (type? s 0).map fun r => r.bind fun x => finish s x.1 x.2

def method? (s : String) : Option (Except ClassFault MethodDescriptor) :=
  if isAt s 0 '(' then do
    match ← params? s [] 1 with
    | .error e => return .error e
    | .ok (params, place) => return (← result? s place).bind fun x => finish s ⟨params, x.1⟩ x.2
  else some (.error (.invalidDescriptor s))

def Agrees {α : Type} (s : String) : Option (α × List Char) → Option (Except ClassFault (α × ℕ)) → Prop
  | some (a, after), r => ∃ place, Text.IsPlace s.toList place after ∧ r = some (.ok (a, place))
  | none, r => r = some (.error (.invalidDescriptor s))

section Agreement

open Text (IsPlace)

variable {α β : Type} {s : String} {place : ℕ} {after rest : List Char} {c : Char} {type : FieldType} {tag : UInt8}

lemma Agrees.map {x : Option (α × List Char)} {r : Option (Except ClassFault (α × ℕ))} (h : Agrees s x r) (f : α → β) :
    Agrees s (x.map fun (a, after) => (f a, after)) (r.map fun r => r.map fun (a, place) => (f a, place)) := by
  cases x with
  | none =>
    obtain rfl := h
    rfl
  | some x =>
    obtain ⟨place, hplace, rfl⟩ := h
    exact ⟨place, hplace, rfl⟩

lemma getElem?_of_isPlace (h : IsPlace s.toList place after) : (Bytes.utf8 s)[place]? = (Bytes.ofChars after).head? := by
  rw [Bytes.utf8_eq_ofChars, h.getElem?]

lemma isAt_iff (h : IsPlace s.toList place after) (hc : c.toNat < 128) : isAt s place c = true ↔ after.head? = some c := by
  rw [isAt, beq_iff_eq, getElem?_of_isPlace h]
  exact Bytes.head?_ofChars_of_ascii hc

lemma letter_lt (b : BaseType) : b.letter.toNat < 128 := by cases b <;> decide

lemma agrees_type (h : IsPlace s.toList place after) : Agrees s (FieldType.take? after) (type? s place) := by
  induction after generalizing place with
  | nil => exact type?_of_none (getElem?_of_isPlace h)
  | cons c after ih =>
    have htag := getElem?_of_isPlace h
    by_cases ha : c = '['
    · subst ha
      rw [type?_array htag]
      exact (ih (h.of_cons (by decide))).map FieldType.array
    by_cases ho : c = 'L'
    · subst ho
      have hrest := h.of_cons (by decide)
      rw [type?_object htag, hrest.sliceFrom?, Option.bind_some, find?, String.toList_ofList, FieldType.take?_object]
      cases hs : Text.splitFirst? (· == ';') after with
      | none => rfl
      | some r =>
        obtain ⟨name, rest⟩ := r
        obtain ⟨-, rfl⟩ := FieldType.splitFirst?_semicolon_iff.1 hs
        cases name with
        | nil => rfl
        | cons d name =>
          have hlength : (Bytes.ofChars (d :: name)).length ≠ 0 := by
            have hd := d.utf8Size_pos
            rw [Text.length_ofChars_cons]
            omega
          have hslice := Text.slice?_append [] (d :: name) (';' :: rest)
          rw [List.nil_append, Bytes.ofChars_nil, List.length_nil, Nat.zero_add] at hslice
          dsimp only [Option.map_some]
          rw [if_neg hlength, hslice]
          exact ⟨_, hrest.of_append.of_cons (by decide), rfl⟩
    · obtain ⟨tag, hhead, -⟩ := Bytes.head?_utf8EncodeChar c
      rw [Bytes.head?_ofChars_cons, Option.mem_def.1 hhead] at htag
      have hoctet : ∀ d : Char, d.toNat < 128 → (octet d = tag ↔ d = c) := by
        intro d hd
        have hiff := Bytes.head?_ofChars_of_ascii (s := c :: after) hd
        rw [Bytes.head?_ofChars_cons, Option.mem_def.1 hhead, List.head?_cons, Option.some.injEq, Option.some.injEq] at hiff
        rw [octet, eq_comm, hiff, eq_comm]
      have hletter : (BaseType.all.find? fun b => octet b.letter == tag) = BaseType.ofLetter? c := by
        refine congrArg (BaseType.all.find? ·) (funext fun b => Bool.eq_iff_iff.2 ?_)
        rw [beq_iff_eq, beq_iff_eq, hoctet b.letter (letter_lt b)]
      rw [type?_base htag (fun he => ha ((hoctet '[' (by decide)).1 he.symm).symm)
        (fun he => ho ((hoctet 'L' (by decide)).1 he.symm).symm), hletter, FieldType.take?_base ha ho]
      cases hb : BaseType.ofLetter? c with
      | none => rfl
      | some b =>
        obtain rfl := FieldType.ofLetter?_eq_some_iff.1 hb
        exact ⟨_, h.of_cons (letter_lt b), rfl⟩

lemma agrees_params (acc : List FieldType) (h : IsPlace s.toList place after) :
    Agrees s (MethodDescriptor.takeParams acc after) (params? s acc place) := by
  induction hn : after.length using Nat.strongRecOn generalizing acc place after with
  | ind n ih =>
    rw [params?]
    have hclose := isAt_iff h (c := ')') (by decide)
    split
    next hat =>
      obtain ⟨rest, rfl⟩ := List.head?_eq_some_iff.1 (hclose.1 hat)
      rw [MethodDescriptor.takeParams_close]
      exact ⟨_, h.of_cons (by decide), rfl⟩
    next hat =>
      have htype := agrees_type h
      cases ht : FieldType.take? after with
      | none =>
        rw [ht] at htype
        rw [MethodDescriptor.takeParams_of_none (fun he => hat (hclose.2 he)) ht]
        split
        next h' => cases htype.symm.trans h'
        next h' =>
          obtain rfl := Except.error.inj (Option.some.inj (htype.symm.trans h'))
          rfl
        next h' => cases htype.symm.trans h'
      | some r =>
        obtain ⟨type, rest⟩ := r
        rw [ht] at htype
        obtain ⟨next, hnext, htype⟩ := htype
        rw [MethodDescriptor.takeParams_of_some ht]
        split
        next h' =>
          obtain ⟨rfl, rfl⟩ := Prod.mk.inj (Except.ok.inj (Option.some.inj (htype.symm.trans h')))
          exact ih rest.length (hn ▸ FieldType.length_of_take? ht) _ hnext rfl
        next h' => cases htype.symm.trans h'
        next h' => cases htype.symm.trans h'

lemma finish_eq (h : IsPlace s.toList place after) (a : α) :
    finish s a place = if after = [] then .ok a else .error (.invalidDescriptor s) := by
  have hend : place = (Bytes.utf8 s).length ↔ after = [] := by
    rw [Bytes.utf8_eq_ofChars]
    exact h.eq_length_iff
  simp only [finish, hend]

lemma finish_type (h : IsPlace s.toList place after) (f : FieldType → α) :
    (type? s place).map (fun r => r.bind fun x => finish s (f x.1) x.2) =
      some (match FieldType.parse? after with
        | some type => .ok (f type)
        | none => .error (.invalidDescriptor s)) := by
  have htype := agrees_type h
  rw [FieldType.parse?]
  cases ht : FieldType.take? after with
  | none =>
    rw [ht] at htype
    obtain htype : type? s place = _ := htype
    rw [htype]
    rfl
  | some r =>
    obtain ⟨type, rest⟩ := r
    rw [ht] at htype
    obtain ⟨next, hnext, htype⟩ := htype
    rw [htype, Option.map_some, Except.bind, finish_eq hnext]
    cases rest <;> rfl

lemma finish_result (h : IsPlace s.toList place after) (params : List FieldType) :
    (result? s place).map (fun r => r.bind fun x => finish s (⟨params, x.1⟩ : MethodDescriptor) x.2) =
      some (match MethodDescriptor.parseResult? after with
        | some result => .ok ⟨params, result⟩
        | none => .error (.invalidDescriptor s)) := by
  have hvoid := isAt_iff h (c := 'V') (by decide)
  rw [result?]
  split
  next hat =>
    obtain ⟨rest, rfl⟩ := List.head?_eq_some_iff.1 (hvoid.1 hat)
    rw [Option.map_some, Except.bind, finish_eq (h.of_cons (by decide))]
    cases rest <;> rfl
  next hat =>
    have hresult : MethodDescriptor.parseResult? after = (FieldType.parse? after).map some := by
      rw [MethodDescriptor.parseResult?.eq_def]
      split
      next => exact absurd (hvoid.2 rfl) hat
      next => rfl
    have hbind : ∀ r : Except ClassFault (FieldType × ℕ),
        (r.map fun x => (some x.1, x.2)).bind (fun x => finish s (⟨params, x.1⟩ : MethodDescriptor) x.2) =
          r.bind fun x => finish s ⟨params, some x.1⟩ x.2 := by
      intro r
      cases r <;> rfl
    rw [Option.map_map, hresult]
    simp only [Function.comp_def, hbind]
    rw [finish_type h fun type => (⟨params, some type⟩ : MethodDescriptor)]
    cases FieldType.parse? after <;> rfl

lemma field?_eq (s : String) : field? s = some (FieldType.parse s) := finish_type (IsPlace.zero s.toList) id

lemma method?_eq (s : String) : method? s = some (MethodDescriptor.parse s) := by
  have hzero := IsPlace.zero s.toList
  have hopen := isAt_iff hzero (c := '(') (by decide)
  rw [method?, MethodDescriptor.parse]
  cases hs : s.toList with
  | nil =>
    have hat : ¬ isAt s 0 '(' = true := by simp [hopen, hs]
    rw [if_neg hat]
    rfl
  | cons c after =>
    rw [hs, List.head?_cons, Option.some.injEq] at hopen
    rw [MethodDescriptor.parse?]
    by_cases hc : c = '('
    · subst hc
      have hone : IsPlace s.toList 1 after := IsPlace.of_cons (c := '(') (by decide) (hs ▸ hzero)
      rw [if_pos (hopen.2 rfl), if_pos (by decide)]
      have hparams := agrees_params [] hone
      cases ht : MethodDescriptor.takeParams [] after with
      | none =>
        rw [ht] at hparams
        obtain hparams : params? s [] 1 = _ := hparams
        rw [hparams]
        rfl
      | some r =>
        obtain ⟨params, rest⟩ := r
        rw [ht] at hparams
        obtain ⟨place, hplace, hparams⟩ := hparams
        have hresult := finish_result hplace params
        rw [hparams]
        simp only [Option.bind_eq_bind, Option.bind_some]
        refine Eq.trans ?_ (hresult.trans ?_)
        · cases result? s place <;> rfl
        · cases MethodDescriptor.parseResult? rest <;> rfl
    · rw [if_neg (fun hat => hc (hopen.1 hat)), if_neg (by simpa using hc)]

end Agreement

end DescriptorScan

/-- Whether a text, which is read character by character and octet by octet, is read as what it is the written form of, and
as an error of its own if it is none. -/
structure Recognised {α : Type} (proper : α → Prop) (write : α → List Char) (s : String) (parsed : Except ClassFault α)
    (scanned : Option (Except ClassFault α)) : Prop where
  ok : ∀ a, parsed = .ok a ↔ proper a ∧ String.ofList (write a) = s
  error : ∀ e, parsed = .error e ↔ e = .invalidDescriptor s ∧ ∀ a, proper a → String.ofList (write a) ≠ s
  scanned : scanned = some parsed

lemma recognised_of_ok_iff {α : Type} {proper : α → Prop} {write : α → List Char} {s : String} {parsed : Except ClassFault α}
    (hok : ∀ a, parsed = .ok a ↔ proper a ∧ s.toList = write a) (herror : ∀ e, parsed = .error e → e = .invalidDescriptor s)
    {scanned : Option (Except ClassFault α)} (hscanned : scanned = some parsed) :
    Recognised proper write s parsed scanned := by
  have hwrite : ∀ a, String.ofList (write a) = s ↔ s.toList = write a := fun a => by
    rw [← String.toList_inj, String.toList_ofList, eq_comm]
  constructor
  case ok => exact fun a => (hok a).trans (and_congr_right' (hwrite a).symm)
  case error =>
    intro e
    constructor
    · intro h
      refine ⟨herror e h, fun a hproper hs => ?_⟩
      cases h.symm.trans ((hok a).2 ⟨hproper, (hwrite a).1 hs⟩)
    · rintro ⟨rfl, hno⟩
      cases hp : parsed with
      | ok a => exact absurd ((hwrite a).2 ((hok a).1 hp).2) (hno a ((hok a).1 hp).1)
      | error e => rw [herror e hp]
  case scanned => exact hscanned

/-- Descriptors of fields and methods are the written forms of types whose names are not empty and have no semicolon, and
all else is an error and cuts no character. -/
theorem descriptor_recognised (s : String) :
    Recognised FieldType.Proper FieldType.writeChars s (FieldType.parse s) (DescriptorScan.field? s) ∧
      Recognised MethodDescriptor.Proper MethodDescriptor.writeChars s (MethodDescriptor.parse s) (DescriptorScan.method? s) :=
  ⟨recognised_of_ok_iff (fun _ => FieldType.parse_eq_ok_iff) (fun _ => FieldType.eq_of_parse_eq_error)
      (DescriptorScan.field?_eq s),
    recognised_of_ok_iff (fun _ => MethodDescriptor.parse_eq_ok_iff) (fun _ => MethodDescriptor.eq_of_parse_eq_error)
      (DescriptorScan.method?_eq s)⟩

end NamespaceMigration
