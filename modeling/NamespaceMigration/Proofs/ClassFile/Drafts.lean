import Mathlib.Data.List.Forall2
import NamespaceMigration.Proofs.ClassFile.Layout
import NamespaceMigration.Proofs.ClassFile.Truncation

/-! Drafts laid out and read back. -/

namespace NamespaceMigration

namespace Reader

variable {α : Type} {r : Reader α} {used part : Bytes} {a : α} {octets : List Bytes} {as : List α}

lemma takes_bytes {n : ℕ} (hn : part.length = n) : Takes (bytes n) part part := by
  obtain ⟨used, hused, htakes⟩ := steady_bytes n _ _ _ (bytes_eq_ok_iff.2 ⟨hn, (List.append_nil part).symm⟩)
  rw [List.append_nil] at hused
  rwa [← hused] at htakes

lemma takes_timesFrom (h : List.Forall₂ (Takes r) octets as) (acc : List α) :
    Takes (timesFrom r as.length acc) octets.flatten (acc.reverse ++ as) := by
  induction h generalizing acc with
  | nil =>
    rw [List.append_nil]
    exact takes_pure acc.reverse
  | @cons part a octets as ha _ ih =>
    have hacc := ih (a :: acc)
    rw [List.reverse_cons, List.append_assoc] at hacc
    exact ha.bind hacc

lemma takes_times (h : List.Forall₂ (Takes r) octets as) (hn : octets.length < 65536) :
    Takes (times (UInt16.ofNat octets.length).toNat r) octets.flatten as := by
  rw [UInt16.toNat_ofNat', Nat.mod_eq_of_lt hn, h.length_eq]
  exact takes_timesFrom h []

lemma takes_table (h : List.Forall₂ (Takes r) octets as) (hn : octets.length < 65536) :
    Takes (do let count ← u2; times count.toNat r) (Bytes.big16 (UInt16.ofNat octets.length) ++ octets.flatten) as :=
  (takes_u2 _).bind (takes_times h hn)

end Reader

open Reader (Takes takes_u2 takes_u4 takes_bytes takes_pure takes_table takes_times)

lemma Attribute.takes_read (name : UInt16) (info : Bytes) (h : info.length < 0x100000000) :
    Takes Attribute.read (Bytes.big16 name ++ Bytes.big32 (UInt32.ofNat info.length) ++ info) ⟨name, info⟩ := by
  have hsize : info.length = (UInt32.ofNat info.length).toNat := by
    rw [UInt32.toNat_ofNat', Nat.mod_eq_of_lt h]
  have htakes : Takes Attribute.read _ ⟨name, info⟩ :=
    (takes_u2 name).bind ((takes_u4 _).bind ((takes_bytes hsize).bind (takes_pure _)))
  rwa [List.append_nil, ← List.append_assoc] at htakes

lemma Attribute.takes_nothing : Takes Attribute.readTable (Bytes.big16 0) [] := by
  have hnil : List.Forall₂ (Takes Attribute.read) [] [] := .nil
  have htable : Takes Attribute.readTable _ [] := takes_table hnil (by decide)
  simpa using htable

namespace DraftInstruction

def texts : DraftInstruction → List String
  | getstatic owner name descriptor => [owner, name, descriptor]
  | ldc text => [text]
  | raw _ => []

def size : DraftInstruction → ℕ
  | raw code => code.length
  | _ => 4

def Encodes (pool : ConstantPool) : DraftInstruction → Bytes → Prop
  | getstatic owner name descriptor, octets => ∃ i, octets = 0xB2 :: Bytes.big16 i ++ [0x57] ∧
      pool.field i = .ok ⟨Bytes.utf8 owner, Bytes.utf8 name, Bytes.utf8 descriptor⟩
  | ldc text, octets => ∃ i constant, octets = 0x13 :: Bytes.big16 i ++ [0x57] ∧
      pool.get i = .ok (.string constant) ∧ pool.utf8 constant = .ok text
  | raw code, octets => octets = code

variable {pool : ConstantPool} {i : DraftInstruction} {is : List DraftInstruction} {octets : Bytes} {parts : List Bytes}

lemma Encodes.length_eq (h : i.Encodes pool octets) : octets.length = i.size := by
  cases i with
  | getstatic =>
    obtain ⟨_, rfl, -⟩ := h
    rfl
  | ldc =>
    obtain ⟨_, _, rfl, -⟩ := h
    rfl
  | raw => exact congrArg List.length h

lemma length_flatten (h : List.Forall₂ (Encodes pool) is parts) : parts.flatten.length = (is.map size).foldr (· + ·) 0 := by
  induction h with
  | nil => rfl
  | cons hi _ ih => rw [List.flatten_cons, List.length_append, hi.length_eq, ih, List.map_cons, List.foldr_cons]

lemma lays (h : ∀ s ∈ i.texts, IsShort s) : Lays i.layOut fun pool octets => i.Encodes pool octets := by
  cases i with
  | getstatic owner name descriptor =>
    have hfield := Lays.fieldRef (h owner (by simp [texts])) (h name (by simp [texts])) (h descriptor (by simp [texts]))
    exact hfield.bind fun i => .pure fun _ hi => ⟨i, rfl, hi⟩
  | ldc text => exact (Lays.string (h text (by simp [texts]))).bind fun i => .pure fun _ ⟨c, hc, ht⟩ => ⟨i, c, rfl, hc, ht⟩
  | raw code => exact .pure fun _ => rfl

end DraftInstruction

namespace DraftMember

def texts (d : DraftMember) : List String := d.name :: d.descriptor :: (d.code.getD []).flatMap DraftInstruction.texts

def CodeFits (d : DraftMember) : Prop := ∀ is ∈ d.code, 13 + (is.map DraftInstruction.size).foldr (· + ·) 0 < 0x100000000

def HasCode (pool : ConstantPool) (m : Member) : Option (List DraftInstruction) → Prop
  | none => m.attributes = []
  | some is => ∃ parts, List.Forall₂ (DraftInstruction.Encodes pool) is parts ∧
      m.code pool = .ok (some ⟨4, 4, parts.flatten ++ [0xB1]⟩)

structure Describes (pool : ConstantPool) (d : DraftMember) (m : Member) : Prop where
  access : m.access = d.access
  name : pool.utf8 m.name = .ok d.name
  descriptor : pool.utf8 m.descriptor = .ok d.descriptor
  code : HasCode pool m d.code

variable {d : DraftMember} {pool : ConstantPool} {code : Bytes}

lemma length_codeInfo (code : Bytes) : (codeInfo code).length = 12 + code.length := by
  simp only [codeInfo, List.length_append, Bytes.length_big16, Bytes.length_big32]
  omega

lemma readCode_codeInfo (h : code.length < 0x100000000) :
    Member.readCode (codeInfo code) = .ok (⟨4, 4, code⟩, Bytes.big16 0 ++ Bytes.big16 0) := by
  have hsize : code.length = (UInt32.ofNat code.length).toNat := by
    rw [UInt32.toNat_ofNat', Nat.mod_eq_of_lt h]
  have hinfo : codeInfo code = Bytes.big16 4 ++ (Bytes.big16 4 ++ (Bytes.big32 (UInt32.ofNat code.length) ++
      (code ++ (Bytes.big16 0 ++ Bytes.big16 0)))) := by
    simp only [codeInfo, List.append_assoc]
  rw [Member.readCode, hinfo, Reader.bind_of_ok ((takes_u2 4).whole _), Reader.bind_of_ok ((takes_u2 4).whole _),
    Reader.bind_of_ok ((takes_u4 _).whole _), (takes_bytes hsize).whole]

lemma code_eq {m : Member} {name : UInt16} (hm : m.attributes = [⟨name, codeInfo code⟩])
    (hname : pool.utf8Bytes name = .ok (Bytes.utf8 "Code")) (h : code.length < 0x100000000) :
    m.code pool = .ok (some ⟨4, 4, code⟩) := by
  have hfind : Member.findAttribute pool (Bytes.utf8 "Code") m.attributes = .ok (some ⟨name, codeInfo code⟩) := by
    rw [hm, Member.findAttribute, hname]
    simp [Bind.bind, Except.bind, Pure.pure, Except.pure]
  rw [Member.code, hfind]
  change (Member.readCode (codeInfo code) >>= fun p => .ok (some p.1)) = _
  rw [readCode_codeInfo h]
  rfl

lemma takes_read (access name descriptor : UInt16) {attributes : List Attribute} {table : Bytes}
    (h : Takes Attribute.readTable table attributes) :
    Takes Member.read (Bytes.big16 access ++ Bytes.big16 name ++ Bytes.big16 descriptor ++ table)
      ⟨access, name, descriptor, attributes⟩ := by
  have htakes : Takes Member.read _ ⟨access, name, descriptor, attributes⟩ :=
    (takes_u2 access).bind ((takes_u2 name).bind ((takes_u2 descriptor).bind (h.bind (takes_pure _))))
  rwa [List.append_nil, ← List.append_assoc, ← List.append_assoc] at htakes

lemma lays (h : ∀ s ∈ d.texts, IsShort s) (hcode : d.CodeFits) :
    Lays d.layOut fun pool octets => ∃ m, Takes Member.read octets m ∧ d.Describes pool m := by
  obtain ⟨access, name, descriptor, code⟩ := d
  refine (Lays.utf8 (h name (by simp [texts]))).bind fun n => (Lays.utf8 (h descriptor (by simp [texts]))).bind fun t => ?_
  cases code with
  | none =>
    refine .pure fun pool ht hn => ⟨_, takes_read access n t Attribute.takes_nothing, ?_⟩
    exact ⟨rfl, hn.2, ht.2, rfl⟩
  | some is =>
    have hlays : ∀ i ∈ is, Lays i.layOut fun pool octets => i.Encodes pool octets := fun i hi =>
      DraftInstruction.lays fun s hs => h s (by simpa [texts] using .inr (.inr ⟨i, hi, hs⟩))
    refine (Lays.mapM hlays).bind fun parts => (Lays.utf8 (s := "Code") (by decide +kernel)).bind fun c => ?_
    refine .pure fun pool hc hparts ht hn => ?_
    have hlength : (parts.flatten ++ [0xB1]).length + 12 < 0x100000000 := by
      have hfits := hcode is rfl
      rw [List.length_append, DraftInstruction.length_flatten hparts, List.length_singleton]
      omega
    have hinfo : (codeInfo (parts.flatten ++ [0xB1])).length < 0x100000000 := by
      rw [length_codeInfo]
      omega
    have htable : Takes Attribute.readTable _ _ := takes_table (.cons (Attribute.takes_read c _ hinfo) .nil) (by simp)
    refine ⟨⟨access, n, t, [⟨c, codeInfo (parts.flatten ++ [0xB1])⟩]⟩, ?_, rfl, hn.2, ht.2, parts, hparts, ?_⟩
    · simpa using takes_read access n t htable
    · exact code_eq rfl hc.1 (by omega)

end DraftMember

namespace ClassDraft

def texts (d : ClassDraft) : List String :=
  d.thisClass :: d.superClass :: d.interfaces ++ (d.fields ++ d.methods).flatMap DraftMember.texts ++ d.sourceFile.toList

structure Fits (d : ClassDraft) : Prop where
  texts : ∀ s ∈ d.texts, IsShort s
  codes : ∀ m ∈ d.fields ++ d.methods, m.CodeFits
  interfaces : d.interfaces.length < 65536
  fields : d.fields.length < 65536
  methods : d.methods.length < 65536
  slots : (d.layOutBody d.pool).2.slots + 1 < 65536

def HasSource (pool : ConstantPool) (attributes : List Attribute) : Option String → Prop
  | none => attributes = []
  | some s => ∃ name source, attributes = [⟨name, Bytes.big16 source⟩] ∧ pool.utf8 name = .ok "SourceFile" ∧
      pool.utf8 source = .ok s

/-- Whether a class that is read is the one meant. -/
structure Describes (pool : ConstantPool) (d : ClassDraft) (body : ClassBody) : Prop where
  access : body.access = 0x0021
  thisClass : pool.className body.thisClass = .ok d.thisClass
  superClass : pool.className body.superClass = .ok d.superClass
  interfaces : List.Forall₂ (fun name i => pool.className i = .ok name) d.interfaces body.interfaces
  fields : List.Forall₂ (DraftMember.Describes pool) d.fields body.fields
  methods : List.Forall₂ (DraftMember.Describes pool) d.methods body.methods
  source : HasSource pool body.attributes d.sourceFile

variable {d : ClassDraft} {pool : ConstantPool}

lemma lays_source {source : Option String} (h : ∀ s ∈ source, IsShort s) : Lays (layOutSource source) fun pool octets =>
    ∃ attributes, Takes Attribute.readTable octets attributes ∧ HasSource pool attributes source := by
  cases source with
  | none => exact .pure fun _ => ⟨[], Attribute.takes_nothing, rfl⟩
  | some s =>
    refine (Lays.utf8 (s := "SourceFile") (by decide +kernel)).bind fun n => (Lays.utf8 (h s rfl)).bind fun i => ?_
    refine .pure fun pool hi hn => ⟨_, ?_, n, i, rfl, hn.2, hi.2⟩
    have htable : Takes Attribute.readTable _ _ :=
      takes_table (.cons (Attribute.takes_read n (Bytes.big16 i) (by simp)) .nil) (by simp)
    simpa using htable

lemma exists_table {ms : List DraftMember} {octets : List Bytes}
    (h : List.Forall₂ (fun d octets => ∃ m, Takes Member.read octets m ∧ d.Describes pool m) ms octets) :
    ∃ table, List.Forall₂ (Takes Member.read) octets table ∧ List.Forall₂ (DraftMember.Describes pool) ms table := by
  induction h with
  | nil => exact ⟨[], .nil, .nil⟩
  | cons hm _ ih =>
    obtain ⟨m, htakes, hm⟩ := hm
    obtain ⟨table, htable, hms⟩ := ih
    exact ⟨m :: table, .cons htakes htable, .cons hm hms⟩

lemma takes_indices (is : List UInt16) : List.Forall₂ (Takes Reader.u2) (is.map Bytes.big16) is := by
  induction is with
  | nil => exact .nil
  | cons i is ih => exact .cons (takes_u2 i) ih

lemma takes_read {access this super : UInt16} {is : List UInt16} {fields methods : List Bytes} {source : Bytes}
    {fields' methods' : List Member} {attributes : List Attribute}
    (his : is.length < 65536) (hf : List.Forall₂ (Takes Member.read) fields fields') (hfn : fields.length < 65536)
    (hm : List.Forall₂ (Takes Member.read) methods methods') (hmn : methods.length < 65536)
    (hs : Takes Attribute.readTable source attributes) :
    Takes ClassBody.read (Bytes.big16 access ++ Bytes.big16 this ++ Bytes.big16 super ++
      Bytes.big16 (UInt16.ofNat is.length) ++ is.flatMap Bytes.big16 ++ Bytes.big16 (UInt16.ofNat fields.length) ++
      fields.flatten ++ Bytes.big16 (UInt16.ofNat methods.length) ++ methods.flatten ++ source)
      ⟨access, this, super, is, fields', methods', attributes⟩ := by
  have hindices : Takes (Reader.times (UInt16.ofNat is.length).toNat Reader.u2) (is.flatMap Bytes.big16) is := by
    have htimes := takes_times (takes_indices is) (by simpa using his)
    rwa [List.length_map, ← List.flatMap_def] at htimes
  have htakes : Takes ClassBody.read _ ⟨access, this, super, is, fields', methods', attributes⟩ :=
    (takes_u2 access).bind ((takes_u2 this).bind ((takes_u2 super).bind ((takes_u2 _).bind (hindices.bind
      ((takes_table hf hfn).bind ((takes_table hm hmn).bind (hs.bind (takes_pure _))))))))
  simpa only [List.append_assoc, List.append_nil] using htakes

lemma lays (h : d.Fits) : Lays d.layOutBody fun pool octets =>
    ∃ body, Takes ClassBody.read octets body ∧ d.Describes pool body := by
  have hshort : ∀ s ∈ d.interfaces, IsShort s := fun s hs => h.texts s (by simp [texts, hs])
  have hmember : ∀ m ∈ d.fields ++ d.methods, Lays m.layOut fun pool octets =>
      ∃ member, Takes Member.read octets member ∧ m.Describes pool member := by
    refine fun m hm => DraftMember.lays (fun s hs => h.texts s ?_) (h.codes m hm)
    exact List.mem_append_left _ (List.mem_append_right _ (List.mem_flatMap.2 ⟨m, hm, hs⟩))
  have hsource : ∀ s ∈ d.sourceFile, IsShort s := fun s hs => h.texts s (by simp [texts, Option.mem_def.1 hs])
  refine (Lays.classInfo (h.texts _ (by simp [texts]))).bind fun this => ?_
  refine (Lays.classInfo (h.texts _ (by simp [texts]))).bind fun super => ?_
  refine (Lays.mapM fun s hs => Lays.classInfo (hshort s hs)).bind fun is => ?_
  refine (Lays.mapM fun m hm => hmember m (List.mem_append_left _ hm)).bind fun fields => ?_
  refine (Lays.mapM fun m hm => hmember m (List.mem_append_right _ hm)).bind fun methods => ?_
  refine (lays_source hsource).bind fun source => .pure fun pool hsource hmethods hfields his hsuper hthis => ?_
  obtain ⟨attributes, htakes, hattributes⟩ := hsource
  obtain ⟨fields', hf, hfields'⟩ := exists_table hfields
  obtain ⟨methods', hm, hmethods'⟩ := exists_table hmethods
  refine ⟨⟨0x0021, this, super, is, fields', methods', attributes⟩, ?_, rfl, hthis.2, hsuper.2, ?_, hfields', hmethods',
    hattributes⟩
  · refine takes_read ?_ hf ?_ hm ?_ htakes
    · exact his.length_eq ▸ h.interfaces
    · exact hfields.length_eq ▸ h.fields
    · exact hmethods.length_eq ▸ h.methods
  · exact his.imp fun _ _ hi => hi.2

lemma exists_parse_toBytes (h : d.Fits) (hd : d.pool.Sound) :
    ∃ c, ClassFile.parse d.toBytes = .ok c ∧ c.toBytes = d.toBytes ∧ (c.pool.slots.toList.filterMap id).Nodup ∧
      (∀ constant ∈ d.pool.constants.toList, some constant ∈ c.pool.slots) ∧ d.Describes c.pool c.body := by
  obtain ⟨hsound, hadds, hstands⟩ := lays h
  have hslots := h.slots
  have hbytes : d.toBytes = Bytes.big32 ClassFile.magic ++ Bytes.big16 0 ++ Bytes.big16 52 ++
    (d.layOutBody d.pool).2.write ++ (d.layOutBody d.pool).1 := rfl
  specialize hsound d.pool hd
  specialize hadds d.pool
  specialize hstands d.pool
  rw [hbytes]
  generalize d.layOutBody d.pool = laid at hslots hsound hadds hstands
  obtain ⟨octets, pool'⟩ := laid
  dsimp only at hslots hsound hadds hstands ⊢
  let pool : ConstantPool := ⟨#[none] ++ (pool'.constants.toList.flatMap Constant.slots).toArray⟩
  have hholds : pool.Holds pool'.constants.toList := ⟨hsound.fits, rfl⟩
  have hsize : pool.slots.size = pool'.slots + 1 := by
    rw [hholds.size_slots, PoolDraft.slots, PoolDraft.slotsOf_eq, Nat.add_comm]
  have hle : pool.slots.size ≤ 65535 := by omega
  have hwrite : pool.write = pool'.write := by
    rw [hholds.write_eq, ConstantPool.count, hsize, PoolDraft.write]
  have hconstants : pool.slots.toList.filterMap id = pool'.constants.toList := by
    rw [hholds.toList_slots, List.filterMap_cons_none rfl, ConstantPool.filterMap_slots]
  obtain ⟨body, htakes, hdescribes⟩ := hstands pool ⟨[], by rwa [List.append_nil], hle⟩
  have hbody : ClassBody.read octets = .ok (body, []) := by
    simpa using htakes.whole []
  refine ⟨⟨0, 52, pool, body, octets⟩, ?_, ?_, ?_, fun constant hc => ?_, hdescribes⟩
  · refine ClassFile.parse_eq_ok_iff.2 (ClassFile.read_eq_ok_iff.2 ⟨pool.write ++ octets, ?_, ?_, hbody⟩)
    · rw [hwrite]
      simp only [List.append_assoc]
    · exact ConstantPool.read_write hholds hle octets
  · rw [ClassFile.toBytes, hwrite]
  · rw [hconstants]
    exact hsound.nodup
  · rw [← hconstants] at hadds
    obtain ⟨slot, hslot, hsome⟩ := List.mem_filterMap.1 (hadds.subset hc)
    obtain rfl : slot = some constant := hsome
    exact Array.mem_toList_iff.1 hslot

end ClassDraft

end NamespaceMigration
