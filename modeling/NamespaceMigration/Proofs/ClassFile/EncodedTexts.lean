import NamespaceMigration.Proofs.ClassFile.EncodedTokens
import NamespaceMigration.Proofs.ClassFile.Restoration

/-! Classes whose texts are encoded. -/

namespace NamespaceMigration

namespace Profile

variable {p : Profile} {s : String}

lemma Regular.value_migrateBytes (hp : p.Regular) (s : String) :
    (p.migrateBytes (ModifiedUtf8.encode s)).value = ModifiedUtf8.encode (p.migrate s).value :=
  ModifiedUtf8.value_migrateBytes_encode (ModifiedUtf8.plain_of_regular hp) s

lemma foldl_settle_of_all_exist (p : Profile) (result : List Char) (l : List (List Char)) :
    l.foldl (p.settle fun _ => true) result = result := by
  have hsettle : ∀ fragment, p.settle (fun _ => true) result fragment = result := by
    intro fragment
    unfold settle
    split
    next => rfl
    next => exact if_pos rfl
  induction l with
  | nil => rfl
  | cons fragment l ih => rw [List.foldl_cons, hsettle, ih]

lemma migrateResolvable_of_all_exist (h : (p.migrate s).value ≠ s) :
    p.migrateResolvable (fun _ => true) s = some (ModifiedUtf8.encode (p.migrate s).value) := by
  have hne : (p.migrate s).value.toList ≠ s.toList := fun he => h (String.toList_inj.1 he)
  simp only [migrateResolvable, foldl_settle_of_all_exist, if_neg hne]
  rfl

end Profile

namespace ClassFile

variable {p : Profile} {protection : ProtectedClasses} {state : PoolMigration} {index : UInt16} {raw : Bytes}

lemma migrateConstant_of_all_exist (hp : p.Regular) (h : ∃ s, raw = ModifiedUtf8.encode s) :
    (migrateConstant p (some fun _ => true) protection raw).1 = (migrateConstant p none protection raw).1 := by
  obtain ⟨s, rfl⟩ := h
  unfold migrateConstant
  dsimp only
  split
  next => rfl
  next hcond =>
    rw [Bool.or_eq_true, Bool.not_eq_true', not_or, Bool.not_eq_false] at hcond
    have hvalue := hp.value_migrateBytes s
    have hne : (p.migrate s).value ≠ s := by
      intro he
      rw [he] at hvalue
      refine Profile.value_ne_of_changed (fun htokens => ?_) hcond.1 hvalue
      exact absurd (htokens ▸ List.prefix_rfl) hp.octets.apart.1
    have hdecode : ModifiedUtf8.decode? (ModifiedUtf8.encode s) = some s :=
      (ModifiedUtf8.decode?_encodeChars s.toList).trans (congrArg some String.ofList_toList)
    rw [hdecode, hvalue]
    dsimp only
    exact Profile.migrateResolvable_of_all_exist hne

def Encoded (pool : ConstantPool) : Prop := ∀ raw, some (.utf8 raw) ∈ pool.slots → ∃ s, raw = ModifiedUtf8.encode s

def PoolMigration.unasked (state : PoolMigration) : PoolMigration := { state with asked := [] }

lemma mem_slots_of_utf8Bytes {pool : ConstantPool} (h : pool.utf8Bytes index = .ok raw) : some (.utf8 raw) ∈ pool.slots := by
  obtain ⟨c, hc, h⟩ := bind_eq_ok_iff.1 h
  cases c with
  | utf8 bytes =>
    obtain rfl := Except.ok.inj h
    exact Array.mem_of_getElem? (ConstantPool.get_eq_ok_iff.1 hc)
  | _ => cases h

lemma Encoded.replaceBytes {pool pool' : ConstantPool} {s : String} (h : Encoded pool)
    (hr : pool.replaceBytes index (ModifiedUtf8.encode s) = .ok pool') : Encoded pool' := by
  rw [ConstantPool.replaceBytes] at hr
  split at hr
  · cases hr
  · split at hr
    next =>
      obtain rfl := Except.ok.inj hr
      intro raw hraw
      rcases Array.mem_or_eq_of_mem_setIfInBounds hraw with hraw | hraw
      · exact h raw hraw
      · exact ⟨s, by simpa using hraw⟩
    next => cases hr
    next => cases hr

lemma migrateSlot_eq {resolver : Option Resolver} (h : state.pool.utf8Bytes index = .ok raw) :
    migrateSlot p resolver protection state index =
      match (migrateConstant p resolver protection raw).1 with
      | none => .ok { state with asked := state.asked ++ (migrateConstant p resolver protection raw).2 }
      | some bytes => (state.pool.replaceBytes index bytes).map fun pool =>
          ⟨pool, true, state.asked ++ (migrateConstant p resolver protection raw).2⟩ := by
  simp only [migrateSlot, h, bind, Except.bind]
  cases (migrateConstant p resolver protection raw).1 with
  | none => rfl
  | some bytes =>
    dsimp only
    cases state.pool.replaceBytes index bytes <;> rfl

lemma migrateConstant_none_asked : (migrateConstant p none protection raw).2 = [] := by
  unfold migrateConstant
  dsimp only
  split <;> rfl

lemma map_unasked_migrateSlot (hp : p.Regular) (h : Encoded state.pool) :
    (migrateSlot p (some fun _ => true) protection state index).map PoolMigration.unasked =
      migrateSlot p none protection state.unasked index := by
  cases hraw : state.pool.utf8Bytes index with
  | error fault =>
    rw [migrateSlot, migrateSlot, hraw, PoolMigration.unasked, hraw]
    rfl
  | ok raw =>
    have hraw' : state.unasked.pool.utf8Bytes index = .ok raw := hraw
    rw [migrateSlot_eq hraw, migrateSlot_eq hraw', migrateConstant_none_asked,
      migrateConstant_of_all_exist hp (h raw (mem_slots_of_utf8Bytes hraw))]
    cases (migrateConstant p none protection raw).1 with
    | none => rfl
    | some bytes =>
      dsimp only [PoolMigration.unasked]
      cases state.pool.replaceBytes index bytes <;> rfl

lemma encoded_of_migrateSlot (hp : p.Regular) (h : Encoded state.pool) {state' : PoolMigration}
    (hs : migrateSlot p (some fun _ => true) protection state index = .ok state') : Encoded state'.pool := by
  obtain ⟨raw, hraw, -⟩ := bind_eq_ok_iff.1 hs
  obtain ⟨s, rfl⟩ := h raw (mem_slots_of_utf8Bytes hraw)
  rw [migrateSlot_eq hraw, migrateConstant_of_all_exist hp ⟨s, rfl⟩] at hs
  cases hbytes : (migrateConstant p none protection (ModifiedUtf8.encode s)).1 with
  | none =>
    rw [hbytes] at hs
    obtain rfl := Except.ok.inj hs
    exact h
  | some bytes =>
    obtain ⟨-, -, rfl⟩ := migrateConstant_none_eq_some_iff.1 hbytes
    rw [hbytes, hp.value_migrateBytes] at hs
    cases hpool : state.pool.replaceBytes index (ModifiedUtf8.encode (p.migrate s).value) with
    | error fault =>
      simp only [hpool] at hs
      cases hs
    | ok pool =>
      simp only [hpool] at hs
      obtain rfl := Except.ok.inj hs
      exact h.replaceBytes hpool

lemma map_unasked_foldlM (hp : p.Regular) (is : List UInt16) (h : Encoded state.pool) :
    (is.foldlM (migrateSlot p (some fun _ => true) protection) state).map PoolMigration.unasked =
      is.foldlM (migrateSlot p none protection) state.unasked := by
  induction is generalizing state with
  | nil => rfl
  | cons i is ih =>
    have hslot : (migrateSlot p (some fun _ => true) protection state i).map PoolMigration.unasked =
        migrateSlot p none protection state.unasked i := map_unasked_migrateSlot hp h
    rw [List.foldlM_cons, List.foldlM_cons, ← hslot]
    cases hs : migrateSlot p (some fun _ => true) protection state i with
    | error fault => rfl
    | ok state' => exact ih (encoded_of_migrateSlot hp h hs)

/-- A conversion that finds all resources fails, keeps the class or rewrites it just as one without a resolver does. -/
theorem convert_of_all_exist (b : BuiltIn) (path : String) (source : Bytes)
    (h : ∀ c, parse source = .ok c → Encoded c.pool) :
    (convert b.profile (some fun _ => true) path source).map (fun conversion => (conversion.replacement, conversion.changed)) =
      (convert b.profile none path source).map fun conversion => (conversion.replacement, conversion.changed) := by
  have hp := Profile.regular_builtIn b
  rw [convert, convert]
  cases hc : parse source with
  | error fault =>
    rw [convertBytes, convertBytes, hc]
    rfl
  | ok c =>
    have hpool : (migratePool b.profile (some fun _ => true) c).map PoolMigration.unasked = migratePool b.profile none c :=
      map_unasked_foldlM hp _ (h c hc)
    rw [convertBytes_eq hc hp.chars.isTrivial_eq_false, convertBytes_eq hc hp.chars.isTrivial_eq_false, ← hpool]
    cases migratePool b.profile (some fun _ => true) c with
    | error fault => rfl
    | ok result =>
      simp only [Except.map, Except.mapError, PoolMigration.unasked]
      split <;> rfl

theorem convert_of_all_exist_of_surrogates :
    let c := factoryReader (Bytes.utf8 "Ljavax/xml/bind/B;") (ModifiedUtf8.encode "javax/xml/bind/\x00😀;javax.servlet.B")
    let c' := factoryReader (Bytes.utf8 "Ljavax/xml/bind/B;") (ModifiedUtf8.encode "jakarta/xml/bind/\x00😀;jakarta.servlet.B")
    (∀ d, parse c.toBytes = .ok d → Encoded d.pool) ∧
      (convert BuiltIn.ee.profile (some fun _ => true) "A.class" c.toBytes).map
        (fun conversion => (conversion.replacement, conversion.changed)) = .ok (some c'.toBytes, true) := by
  intro c c'
  have hc : parse c.toBytes = .ok c := by decide +kernel
  have htexts : ∀ slot ∈ c.pool.slots.toList, ∀ raw ∈ slot.bind text?,
      ModifiedUtf8.encode ((ModifiedUtf8.decode? raw).getD "") = raw := by
    decide +kernel
  have hencoded : ∀ d, parse c.toBytes = .ok d → Encoded d.pool := by
    intro d hd raw hm
    obtain rfl := Except.ok.inj (hc.symm.trans hd)
    exact ⟨_, (htexts _ (Array.mem_toList_iff.2 hm) raw rfl).symm⟩
  have hbatch : convert BuiltIn.ee.profile none "A.class" c.toBytes = .ok (.replaced c'.toBytes true) := by decide +kernel
  exact ⟨hencoded, (convert_of_all_exist .ee "A.class" c.toBytes hencoded).trans (congrArg (Except.map _) hbatch)⟩

end ClassFile

end NamespaceMigration
