import NamespaceMigration.Proofs.ClassFile.Codec

/-! Class files that are cut short or gone on with. -/

namespace NamespaceMigration

namespace Reader

variable {α β : Type} {r x : Reader α} {f : α → Reader β} {used part u v s rest : Bytes} {a : α} {b : β}

def RunsOut (r : Reader α) (used : Bytes) : Prop := ∀ part, part <+: used → part ≠ used → r part = .error .unexpectedEnd

structure Ends (r : Reader α) (used : Bytes) : Prop where
  whole : ∀ rest, ∃ a, r (used ++ rest) = .ok (a, rest)
  short : RunsOut r used

structure Takes (r : Reader α) (used : Bytes) (a : α) : Prop where
  whole : ∀ rest, r (used ++ rest) = .ok (a, rest)
  short : RunsOut r used

def Steady (r : Reader α) : Prop := ∀ s a rest, r s = .ok (a, rest) → ∃ used, s = used ++ rest ∧ Takes r used a

lemma bind_of_ok (h : x s = .ok (a, rest)) : (x >>= f) s = f a rest := by
  change (x s).bind (fun p => f p.1 p.2) = _
  rw [h]
  rfl

lemma bind_of_error {e : ClassFault} (h : x s = .error e) : (x >>= f) s = .error e := by
  change (x s).bind (fun p => f p.1 p.2) = _
  rw [h]
  rfl

lemma length_lt_of_prefix (h : part <+: used) (hne : part ≠ used) : part.length < used.length :=
  Nat.lt_of_le_of_ne h.length_le fun hl => hne (h.eq_of_length hl)

lemma cut_append (h : part <+: u ++ v) (hne : part ≠ u ++ v) :
    part <+: u ∧ part ≠ u ∨ ∃ part', part = u ++ part' ∧ part' <+: v ∧ part' ≠ v := by
  rcases List.prefix_or_prefix_of_prefix h (List.prefix_append u v) with hu | ⟨part', rfl⟩
  · by_cases he : part = u
    · subst he
      refine .inr ⟨[], (List.append_nil _).symm, List.nil_prefix, ?_⟩
      rintro rfl
      exact hne (List.append_nil _).symm
    · exact .inl ⟨hu, he⟩
  · refine .inr ⟨part', rfl, (List.prefix_append_right_inj u).1 h, ?_⟩
    rintro rfl
    exact hne rfl

lemma Takes.ends (h : Takes r used a) : Ends r used := ⟨fun rest => ⟨a, h.whole rest⟩, h.short⟩

lemma Takes.bind_ends (hx : Takes x u a) (hf : Ends (f a) v) : Ends (x >>= f) (u ++ v) := by
  constructor
  · intro rest
    obtain ⟨b, hb⟩ := hf.whole rest
    refine ⟨b, ?_⟩
    rw [List.append_assoc, bind_of_ok (hx.whole _), hb]
  · intro part hpart hne
    rcases cut_append hpart hne with ⟨hu, hne⟩ | ⟨part', rfl, hv, hne⟩
    · exact bind_of_error (hx.short part hu hne)
    · rw [bind_of_ok (hx.whole _), hf.short part' hv hne]

lemma Takes.bind (hx : Takes x u a) (hf : Takes (f a) v b) : Takes (x >>= f) (u ++ v) b := by
  refine ⟨fun rest => ?_, (hx.bind_ends hf.ends).short⟩
  rw [List.append_assoc, bind_of_ok (hx.whole _), hf.whole]

lemma ends_get_bind {f : Bytes → Reader β} (h : ∀ s, Ends (f s) used) : Ends (get >>= f) used := by
  have hget : ∀ s, (get >>= f) s = f s s := fun s => bind_of_ok rfl
  refine ⟨fun rest => ?_, fun part hpart hne => ?_⟩
  · rw [hget]
    exact (h _).whole rest
  · rw [hget, (h part).short part hpart hne]

lemma takes_pure (a : α) : Takes (pure a) [] a :=
  ⟨fun _ => rfl, fun _ hpart hne => absurd (List.prefix_nil.1 hpart) hne⟩

lemma steady_pure (a : α) : Steady (pure a) := by
  intro s b rest h
  obtain ⟨rfl, rfl⟩ := pure_eq_ok_iff.1 h
  exact ⟨[], rfl, takes_pure a⟩

lemma steady_throw (e : ClassFault) : Steady (throw e : Reader α) := fun _ _ _ h => absurd h throw_ne_ok

lemma Steady.bind (hx : Steady x) (hf : ∀ a, Steady (f a)) : Steady (x >>= f) := by
  intro s b rest h
  obtain ⟨a, t, ha, hb⟩ := bind_eq_ok_iff.1 h
  obtain ⟨u, rfl, hu⟩ := hx _ _ _ ha
  obtain ⟨v, rfl, hv⟩ := hf a _ _ _ hb
  exact ⟨u ++ v, (List.append_assoc u v rest).symm, hu.bind hv⟩

lemma Steady.bind_pure (hx : Steady x) (f : α → β) : Steady (x >>= fun a => pure (f a)) := hx.bind fun a => steady_pure (f a)

lemma takes_u2 (n : UInt16) : Takes u2 (Bytes.big16 n) n := by
  refine ⟨fun rest => u2_eq_ok_iff.2 rfl, fun part hpart hne => ?_⟩
  have hlt := length_lt_of_prefix hpart hne
  rcases part with _ | ⟨a, _ | ⟨b, part⟩⟩
  · rfl
  · rfl
  · exact absurd hlt (by simp)

lemma takes_u4 (n : UInt32) : Takes u4 (Bytes.big32 n) n := by
  refine ⟨fun rest => u4_eq_ok_iff.2 rfl, fun part hpart hne => ?_⟩
  have hlt := length_lt_of_prefix hpart hne
  rcases part with _ | ⟨a, _ | ⟨b, _ | ⟨c, _ | ⟨d, part⟩⟩⟩⟩
  · rfl
  · rfl
  · rfl
  · rfl
  · exact absurd hlt (by simp)

lemma steady_u1 : Steady u1 := by
  intro s n rest h
  obtain rfl := u1_eq_ok_iff.1 h
  refine ⟨[n], rfl, fun rest => rfl, fun part hpart hne => ?_⟩
  have hlt := length_lt_of_prefix hpart hne
  obtain rfl : part = [] := List.length_eq_zero_iff.1 (Nat.lt_one_iff.1 hlt)
  rfl

lemma steady_u2 : Steady u2 := fun _ n _ h => ⟨Bytes.big16 n, u2_eq_ok_iff.1 h, takes_u2 n⟩

lemma steady_u4 : Steady u4 := fun _ n _ h => ⟨Bytes.big32 n, u4_eq_ok_iff.1 h, takes_u4 n⟩

lemma steady_u8 : Steady u8 := steady_u4.bind fun _ => steady_u4.bind_pure _

lemma steady_bytes (n : ℕ) : Steady (bytes n) := by
  intro s read rest h
  obtain ⟨hlen, rfl⟩ := bytes_eq_ok_iff.1 h
  refine ⟨read, rfl, fun rest => bytes_eq_ok_iff.2 ⟨hlen, rfl⟩, fun part hpart hne => ?_⟩
  have hlt := length_lt_of_prefix hpart hne
  have htake : (part.take n).length ≠ n := by
    rw [List.length_take]
    omega
  exact if_neg htake

lemma steady_timesFrom {item : Reader α} (h : Steady item) (n : ℕ) (acc : List α) : Steady (timesFrom item n acc) := by
  induction n generalizing acc with
  | zero => exact steady_pure acc.reverse
  | succ n ih => exact h.bind fun a => ih (a :: acc)

lemma steady_times {item : Reader α} (h : Steady item) (n : ℕ) : Steady (times n item) := steady_timesFrom h n []

lemma run_of_ends (h : Ends r used) (hpart : part <+: used) (hne : part ≠ used) : run r part = .error .unexpectedEnd := by
  rw [run, bind_of_error (h.short part hpart hne)]

lemma run_append_of_ends (h : Ends r used) (hs : s ≠ []) : run r (used ++ s) = .error (.trailingBytes s.length) := by
  obtain ⟨a, ha⟩ := h.whole s
  have hfinish : finish s = .error (.trailingBytes s.length) := by
    cases s with
    | nil => exact absurd rfl hs
    | cons => rfl
  rw [run, bind_of_ok ha, bind_of_error hfinish]

end Reader

open Reader

lemma Constant.steady_readPayload (tag : UInt8) : Steady (Constant.readPayload tag) := by
  unfold Constant.readPayload
  split
  case h_1 => exact steady_u2.bind fun size => (steady_bytes size.toNat).bind_pure _
  all_goals first
    | exact steady_u2.bind fun _ => steady_u2.bind_pure _
    | exact steady_u1.bind fun _ => steady_u2.bind_pure _
    | exact steady_u2.bind_pure _
    | exact steady_u4.bind_pure _
    | exact steady_u8.bind_pure _
    | exact steady_throw _

lemma Constant.steady_read : Steady Constant.read := steady_u1.bind Constant.steady_readPayload

namespace ConstantPool

variable {count : ℕ} {slots : Array (Option Constant)}

lemma readSlots_of_lt (h : slots.size < count) :
    readSlots count slots = Constant.read >>= fun c => readSlots count (slots ++ c.slots.toArray) := by
  have hpush : ∀ c, (slots.push (some c)).push none = slots ++ #[some c, none] := fun c => by simp [← Array.toList_inj]
  funext s
  rw [readSlots, if_pos h]
  cases hc : Constant.read s with
  | error e => rw [bind_of_error hc]
  | ok p =>
    rw [bind_of_ok hc]
    dsimp only [Constant.slots]
    split
    · rw [hpush]
    · rw [Array.push_eq_append]

lemma readSlots_of_le (h : count ≤ slots.size) : readSlots count slots = pure slots := by
  funext s
  rw [readSlots, if_neg (Nat.not_lt.2 h)]
  rfl

lemma steady_readSlots (count : ℕ) (slots : Array (Option Constant)) : Steady (readSlots count slots) := by
  induction hn : count - slots.size using Nat.strongRecOn generalizing slots with
  | ind n ih =>
    by_cases h : slots.size < count
    · rw [readSlots_of_lt h]
      refine Constant.steady_read.bind fun c => ih _ ?_ _ rfl
      have hpos := length_slots_pos c
      simp only [Array.size_append, List.size_toArray]
      omega
    · rw [readSlots_of_le (Nat.not_lt.1 h)]
      exact steady_pure slots

lemma steady_read : Steady ConstantPool.read := steady_u2.bind fun n => (steady_readSlots n.toNat #[none]).bind_pure _

end ConstantPool

lemma Attribute.steady_read : Steady Attribute.read :=
  steady_u2.bind fun _ => steady_u4.bind fun size => (steady_bytes size.toNat).bind_pure _

lemma Attribute.steady_readTable : Steady Attribute.readTable :=
  steady_u2.bind fun count => steady_times Attribute.steady_read count.toNat

lemma Member.steady_read : Steady Member.read :=
  steady_u2.bind fun _ => steady_u2.bind fun _ => steady_u2.bind fun _ => Attribute.steady_readTable.bind_pure _

lemma Member.steady_readTable : Steady Member.readTable :=
  steady_u2.bind fun count => steady_times Member.steady_read count.toNat

lemma ClassBody.steady_read : Steady ClassBody.read :=
  steady_u2.bind fun _ => steady_u2.bind fun _ => steady_u2.bind fun _ => steady_u2.bind fun count =>
    (steady_times steady_u2 count.toNat).bind fun _ => Member.steady_readTable.bind fun _ =>
      Member.steady_readTable.bind fun _ => Attribute.steady_readTable.bind_pure _

namespace ClassFile

variable {c : ClassFile} {source : Bytes}

lemma ends_read (h : parse source = .ok c) : Ends read source := by
  obtain ⟨t, rfl, hpool, hbody⟩ := read_eq_ok_iff.1 (parse_eq_ok_iff.1 h)
  obtain ⟨pool, rfl, htakes⟩ := ConstantPool.steady_read _ _ _ hpool
  obtain ⟨body, hbytes, hends⟩ := ClassBody.steady_read _ _ _ hbody
  rw [List.append_nil] at hbytes
  rw [hbytes]
  refine (takes_u4 magic).bind_ends ?_
  refine (takes_u2 c.minor).bind_ends ((takes_u2 c.major).bind_ends (htakes.bind_ends (ends_get_bind fun bytes => ?_)))
  rw [← List.append_nil body]
  exact hends.bind_ends (takes_pure _).ends

/-- A class file that is cut short anywhere is out of input there, and what follows a class file is counted and refused. -/
theorem parse_of_other_length (h : parse source = .ok c) :
    (∀ part, part <+: source → part ≠ source → parse part = .error .unexpectedEnd) ∧
    ∀ rest, rest ≠ [] → parse (source ++ rest) = .error (.trailingBytes rest.length) :=
  ⟨fun _ hpart hne => run_of_ends (ends_read h) hpart hne, fun _ hrest => run_append_of_ends (ends_read h) hrest⟩

def oneField : Bytes :=
  Bytes.big32 magic ++ [0, 0, 0, 52, 0, 4] ++ (Constant.utf8 [65]).write ++ (Constant.long 7).write ++
    [0, 33, 0, 0, 0, 0, 0, 1, 0, 1] ++ [0, 1, 0, 9, 0, 1, 0, 1, 0, 1, 0, 1, 0, 0, 0, 3, 1, 2, 3] ++ [0, 0, 0, 0]

theorem parse_of_other_length_oneField :
    ∃ c, parse oneField = .ok c ∧ c.body.fields.length = 1 ∧ parse (oneField.take 50) = .error .unexpectedEnd ∧
      parse (oneField ++ [0, 0]) = .error (.trailingBytes 2) := by
  let pool : ConstantPool := ⟨#[none, some (.utf8 [65]), some (.long 7), none]⟩
  let c : ClassFile := ⟨0, 52, pool, ⟨33, 0, 0, [1], [⟨9, 1, 1, [⟨1, [1, 2, 3]⟩]⟩], [], []⟩, oneField.drop 23⟩
  have hc : parse oneField = .ok c := by decide +kernel
  obtain ⟨hcut, htrailing⟩ := parse_of_other_length hc
  exact ⟨c, hc, rfl, hcut _ (List.take_prefix 50 oneField) (by decide), htrailing [0, 0] (by simp)⟩

end ClassFile

end NamespaceMigration
