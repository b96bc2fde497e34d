import Mathlib.Data.List.Basic
import NamespaceMigration.Deflate.Decoder
import NamespaceMigration.Proofs.Except

/-! Blocks of a deflate stream by what they add to its output, and a stream that stands for itself. -/

namespace NamespaceMigration.Deflate

section Readers

variable {α β : Type} {read : BitSource → Except Halt (α × BitSource)} {f : α → BitSource → Except Halt (β × BitSource)}

def BitSource.followedBy (s : BitSource) (more : Bytes) : BitSource := { s with rest := s.rest ++ more }

def Local (read : BitSource → Except Halt (α × BitSource)) : Prop :=
  ∀ s a s' more, read s = .ok (a, s') → read (s.followedBy more) = .ok (a, s'.followedBy more)

lemma Local.bind (hread : Local read) (hf : ∀ a, Local (f a)) : Local fun s => read s >>= fun p => f p.1 p.2 := by
  intro s b s' more h
  obtain ⟨⟨a, t⟩, ha, hb⟩ := bind_eq_ok_iff.1 h
  exact bind_eq_ok_iff.2 ⟨_, hread _ _ _ more ha, hf a _ _ _ more hb⟩

lemma local_pure (a : α) : Local fun s => .ok (a, s) := by
  intro s b s' more h
  obtain ⟨rfl, rfl⟩ := Prod.mk.inj (Except.ok.inj h)
  rfl

lemma local_error (halt : Halt) : Local fun _ => (.error halt : Except Halt (α × BitSource)) := fun _ _ _ _ h => nomatch h

lemma local_next : Local BitSource.next := by
  rintro ⟨held, count, rest⟩ bit s' more h
  cases count with
  | succ count =>
    obtain ⟨rfl, rfl⟩ := Prod.mk.inj (Except.ok.inj h)
    rfl
  | zero =>
    cases rest with
    | nil => cases h
    | cons b rest =>
      obtain ⟨rfl, rfl⟩ := Prod.mk.inj (Except.ok.inj h)
      rfl

lemma local_take (width : ℕ) : Local (BitSource.take width) := by
  induction width with
  | zero => exact local_pure 0
  | succ width ih => exact local_next.bind fun bit => ih.bind fun high => local_pure (bit + 2 * high)

lemma local_decodeFrom (symbols : Array ℕ) (counts : List ℕ) (word first index : ℕ) :
    Local (Code.decodeFrom symbols counts word first index) := by
  induction counts generalizing word first index with
  | nil => exact local_error .corrupt
  | cons count counts ih =>
    intro s a s' more h
    rw [Code.decodeFrom] at h ⊢
    obtain ⟨⟨bit, t⟩, hbit, h⟩ := bind_eq_ok_iff.1 h
    refine bind_eq_ok_iff.2 ⟨_, local_next _ _ _ more hbit, ?_⟩
    dsimp only at h ⊢
    split at h
    next hword =>
      rw [if_pos hword]
      cases hs : symbols[index + (word + bit - first)]? with
      | some symbol =>
        rw [hs] at h
        exact local_pure symbol _ _ _ more h
      | none =>
        rw [hs] at h
        cases h
    next hword =>
      rw [if_neg hword]
      split at h
      next => cases h
      next hsymbols =>
        rw [if_neg hsymbols]
        exact ih _ _ _ _ _ _ more h

lemma local_takeInRange (ranges : List (ℕ × ℕ)) (symbol : ℕ) : Local (takeInRange ranges symbol) := by
  unfold takeInRange
  cases ranges[symbol]? with
  | none => exact local_error .corrupt
  | some range => exact (local_take range.2).bind fun extra => local_pure (range.1 + extra)

lemma local_readItem (literals distances : Code) : Local (readItem literals distances) := by
  intro s item s' more h
  rw [readItem] at h ⊢
  obtain ⟨⟨symbol, t⟩, hsymbol, h⟩ := bind_eq_ok_iff.1 h
  refine bind_eq_ok_iff.2 ⟨_, local_decodeFrom _ _ _ _ _ _ _ _ more hsymbol, ?_⟩
  dsimp only at h ⊢
  split at h
  next hliteral =>
    rw [if_pos hliteral]
    exact local_pure _ _ _ _ more h
  next hliteral =>
    rw [if_neg hliteral]
    split at h
    next hend =>
      rw [if_pos hend]
      exact local_pure _ _ _ _ more h
    next hend =>
      rw [if_neg hend]
      obtain ⟨⟨length, t⟩, hlength, h⟩ := bind_eq_ok_iff.1 h
      obtain ⟨⟨symbol, t⟩, hsymbol, h⟩ := bind_eq_ok_iff.1 h
      obtain ⟨⟨distance, t⟩, hdistance, h⟩ := bind_eq_ok_iff.1 h
      refine bind_eq_ok_iff.2 ⟨_, local_takeInRange _ _ _ _ _ more hlength, ?_⟩
      refine bind_eq_ok_iff.2 ⟨_, local_decodeFrom _ _ _ _ _ _ _ _ more hsymbol, ?_⟩
      exact bind_eq_ok_iff.2 ⟨_, local_takeInRange _ _ _ _ _ more hdistance, local_pure _ _ _ _ more h⟩

lemma local_readHeader (s s' : BitSource) (last : Bool) (kind : ℕ) (more : Bytes) (h : readHeader s = .ok (last, kind, s')) :
    readHeader (s.followedBy more) = .ok (last, kind, s'.followedBy more) := by
  obtain ⟨⟨bit, t⟩, hbit, h⟩ := bind_eq_ok_iff.1 h
  obtain ⟨⟨kind', t'⟩, hkind, h⟩ := bind_eq_ok_iff.1 h
  obtain ⟨rfl, hs⟩ := Prod.mk.inj (Except.ok.inj h)
  obtain ⟨rfl, rfl⟩ := Prod.mk.inj hs
  exact bind_eq_ok_iff.2 ⟨_, local_next _ _ _ more hbit, bind_eq_ok_iff.2 ⟨_, local_take 2 _ _ _ more hkind, rfl⟩⟩

end Readers

section Blocks

variable {literals distances : Code} {limit fuel n : ℕ} {s s' t : BitSource} {items : List Item} {out : Array UInt8} {more : Bytes}

def readItems (literals distances : Code) : ℕ → BitSource → Except Halt (List Item × BitSource)
  | 0, _ => .error .endOfData
  | fuel + 1, s => do
    let (item, s) ← readItem literals distances s
    if item = .endOfBlock then return ([], s)
    else
      let (items, s) ← readItems literals distances fuel s
      return (item :: items, s)

def put (out : Array UInt8) : Item → Array UInt8
  | .literal b => out.push b
  | .copy length distance => copyBack distance length out
  | .endOfBlock => out

lemma decodeItems_of_readItems (h : readItems literals distances n s = .ok (items, s')) (hn : n ≤ limit) (out : Array UInt8) :
    decodeItems literals distances limit (s.followedBy more) out = ⟨items.foldl put out, .ok (s'.followedBy more)⟩ := by
  induction n generalizing limit s items out with
  | zero => cases h
  | succ n ih =>
    cases limit with
    | zero => omega
    | succ limit =>
      obtain ⟨⟨item, t⟩, hitem, h⟩ := bind_eq_ok_iff.1 h
      rw [decodeItems, local_readItem _ _ _ _ _ more hitem]
      dsimp only at h
      split at h
      next hend =>
        subst hend
        obtain ⟨rfl, rfl⟩ := Prod.mk.inj (Except.ok.inj h)
        rfl
      next hend =>
        obtain ⟨⟨rest, u⟩, hrest, h⟩ := bind_eq_ok_iff.1 h
        obtain ⟨rfl, rfl⟩ := Prod.mk.inj (Except.ok.inj h)
        have ih := fun out => ih hrest (by omega : n ≤ limit) out
        cases item with
        | literal b => exact ih (out.push b)
        | copy length distance => exact ih (copyBack distance length out)
        | endOfBlock => exact absurd rfl hend

lemma decodeBlocks_of_decodeBlock {last : Bool} {kind : ℕ} {out out' : Array UInt8} (hs : readHeader s = .ok (last, kind, t))
    (h : decodeBlock limit kind t out = ⟨out', .ok s'⟩) :
    decodeBlocks limit (fuel + 1) s out = if last then ⟨out', .ok s'⟩ else decodeBlocks limit fuel s' out' := by
  rw [decodeBlocks, hs]
  dsimp only
  rw [h]

lemma decodeBlocks_of_readItems {last : Bool} (hs : readHeader s = .ok (last, 1, t))
    (h : readItems .fixedLiterals .fixedDistances n t = .ok (items, s')) (hn : n ≤ limit) (fuel : ℕ) (more : Bytes)
    (out : Array UInt8) :
    decodeBlocks limit (fuel + 1) (s.followedBy more) out =
      if last then ⟨items.foldl put out, .ok (s'.followedBy more)⟩
      else decodeBlocks limit fuel (s'.followedBy more) (items.foldl put out) :=
  decodeBlocks_of_decodeBlock (local_readHeader _ _ _ _ more hs) (decodeItems_of_readItems h hn out)

lemma decodeStored_of_length {a b c d : UInt8} {part rest out : Bytes} (hs : s.rest = a :: b :: c :: d :: (part ++ rest))
    (hlength : Bytes.ofLittle [a, b] = part.length) (hsum : part.length + Bytes.ofLittle [c, d] = 0xFFFF) :
    decodeStored s out.toArray = ⟨(out ++ part).toArray, .ok (.ofBytes rest)⟩ := by
  simp [decodeStored, hs, hlength, hsum]

lemma copyBack_append (before a b : Bytes) (h : n ≤ b.length) :
    copyBack (a.length + b.length) n (before ++ a ++ b ++ a).toArray = (before ++ a ++ b ++ a ++ b.take n).toArray := by
  induction n generalizing a b with
  | zero => simp [copyBack]
  | succ n ih =>
    cases b with
    | nil => simp at h
    | cons c b =>
      have hpush : (before ++ a ++ c :: b ++ a).toArray.push
          (if a.length + (c :: b).length ≤ (before ++ a ++ c :: b ++ a).toArray.size then
            (before ++ a ++ c :: b ++ a).toArray.getD ((before ++ a ++ c :: b ++ a).toArray.size - (a.length + (c :: b).length)) 0
          else 0) = (before ++ (a ++ [c]) ++ b ++ (a ++ [c])).toArray := by
        have hsize : (before ++ a ++ c :: b ++ a).toArray.size = (before ++ a).length + (a.length + (c :: b).length) := by
          simp
          omega
        rw [hsize, if_pos (Nat.le_add_left _ _), Nat.add_sub_cancel]
        simp
      have hlength : a.length + (c :: b).length = (a ++ [c]).length + b.length := by
        simp
        omega
      rw [copyBack, hpush, hlength, ih (a ++ [c]) b (by simpa using h)]
      simp

lemma copyBack_self (before w : Bytes) (h : n ≤ w.length) :
    copyBack w.length n (before ++ w).toArray = (before ++ w ++ w.take n).toArray := by
  simpa using copyBack_append before [] w h

lemma copyBack_length (before w : Bytes) : copyBack w.length w.length (before ++ w).toArray = (before ++ w ++ w).toArray := by
  rw [copyBack_self before w (Nat.le_refl _), List.take_length]

end Blocks

section Writing

variable {blocks blocks' : ℕ} {code code' before between after out head tail w : Bytes}

/-- Whether a number of blocks, none of which is the last of its stream, turns an output into another one. -/
def Writes (blocks : ℕ) (code before after : Bytes) : Prop :=
  ∀ limit fuel rest, 3 ≤ limit →
    decodeBlocks limit (fuel + blocks) (.ofBytes (code ++ rest)) before.toArray =
      decodeBlocks limit fuel (.ofBytes rest) after.toArray

lemma Writes.trans (h : Writes blocks code before between) (h' : Writes blocks' code' between after) :
    Writes (blocks' + blocks) (code ++ code') before after := by
  intro limit fuel rest hlimit
  rw [List.append_assoc, ← Nat.add_assoc, h limit _ _ hlimit, h' limit _ _ hlimit]

def given (n : UInt8) : Bytes := [0, n, 0, 255 - n, 255]

lemma writes_given (n : UInt8) (part : Bytes) (hn : part.length = n.toNat) : Writes 1 (given n ++ part) out (out ++ part) := by
  intro limit fuel rest _
  have hheader : readHeader (.ofBytes [0]) = .ok (false, 0, ⟨0, 5, []⟩) := eq_ok_of_toOption_eq_some (by decide +kernel)
  have hbound := n.toNat_lt
  have hsub : (255 - n).toNat = 255 - n.toNat :=
    UInt8.toNat_sub_of_le _ _ (UInt8.le_iff_toNat_le.2 (Nat.le_of_lt_succ hbound))
  have hlength : Bytes.ofLittle [n, 0] = part.length := by
    simp [Bytes.ofLittle, hn]
  have hsum : part.length + Bytes.ofLittle [255 - n, 255] = 0xFFFF := by
    simp only [Bytes.ofLittle, hsub, hn, UInt8.reduceToNat]
    omega
  have hblock : decodeBlock limit 0 ⟨0, 5, n :: 0 :: (255 - n) :: 255 :: (part ++ rest)⟩ out.toArray =
      ⟨(out ++ part).toArray, .ok (.ofBytes rest)⟩ := by
    rw [decodeBlock, decodeStored_of_length rfl hlength hsum]
  have hsource : BitSource.ofBytes (given n ++ part ++ rest) =
      (BitSource.ofBytes [0]).followedBy (n :: 0 :: (255 - n) :: 255 :: (part ++ rest)) := by
    simp [given, BitSource.ofBytes, BitSource.followedBy]
  rw [hsource, decodeBlocks_of_decodeBlock (local_readHeader _ _ _ _ _ hheader) hblock, if_neg Bool.false_ne_true]

def again65 : Bytes := [0xA2, 0xD8, 0, 0x80, 0]

def again20 : Bytes := [0x42, 0x88, 0x21, 0xC4, 0]

def again103 : Bytes := [0xA3, 0x93, 0x35, 0, 0]

lemma writes_again65 (hw : w.length = 65) : Writes 2 again65 (out ++ w) (out ++ w ++ w) := by
  intro limit fuel rest hlimit
  have hs : readHeader (.ofBytes again65) = .ok (false, 1, ⟨20, 5, [0xD8, 0, 0x80, 0]⟩) :=
    eq_ok_of_toOption_eq_some (by decide +kernel)
  have h : readItems .fixedLiterals .fixedDistances 2 ⟨20, 5, [0xD8, 0, 0x80, 0]⟩ = .ok ([.copy 65 65], ⟨2, 2, [0]⟩) :=
    eq_ok_of_toOption_eq_some (by decide +kernel)
  -- the block ends within an octet, and one of no items fills it up
  have hs' : readHeader ⟨2, 2, [0]⟩ = .ok (false, 1, ⟨0, 7, []⟩) := eq_ok_of_toOption_eq_some (by decide +kernel)
  have h' : readItems .fixedLiterals .fixedDistances 1 ⟨0, 7, []⟩ = .ok ([], .ofBytes []) :=
    eq_ok_of_toOption_eq_some (by decide +kernel)
  have hcopy : [Item.copy 65 65].foldl put (out ++ w).toArray = (out ++ w ++ w).toArray := by
    have hwhole := copyBack_length out w
    rwa [hw] at hwhole
  have hblocks := decodeBlocks_of_readItems hs h (by omega : 2 ≤ limit) (fuel + 1) rest (out ++ w).toArray
  have hblocks' := decodeBlocks_of_readItems hs' h' (by omega : 1 ≤ limit) fuel rest (out ++ w ++ w).toArray
  rw [hcopy] at hblocks
  exact hblocks.trans hblocks'

lemma writes_again20 (hw : w.length = 20) : Writes 1 again20 (out ++ w) (out ++ w ++ w) := by
  intro limit fuel rest hlimit
  have hs : readHeader (.ofBytes again20) = .ok (false, 1, ⟨8, 5, [0x88, 0x21, 0xC4, 0]⟩) :=
    eq_ok_of_toOption_eq_some (by decide +kernel)
  have h : readItems .fixedLiterals .fixedDistances 3 ⟨8, 5, [0x88, 0x21, 0xC4, 0]⟩ =
      .ok ([.copy 10 20, .copy 10 20], .ofBytes []) := eq_ok_of_toOption_eq_some (by decide +kernel)
  have hfirst : copyBack 20 10 (out ++ w).toArray = (out ++ w ++ w.take 10).toArray := by
    simpa [hw] using copyBack_self out w (by omega : 10 ≤ w.length)
  have hsecond : copyBack 20 10 (out ++ w ++ w.take 10).toArray = (out ++ w ++ w).toArray := by
    have hcopy := copyBack_append out (w.take 10) (w.drop 10) (n := 10) (by simp [hw])
    have htake : (w.drop 10).take 10 = w.drop 10 := List.take_of_length_le (by simp [hw])
    simpa [hw, htake] using hcopy
  have hcopies : [Item.copy 10 20, Item.copy 10 20].foldl put (out ++ w).toArray = (out ++ w ++ w).toArray := by
    simp only [List.foldl_cons, List.foldl_nil, put, hfirst, hsecond]
  have hblocks := decodeBlocks_of_readItems hs h hlimit fuel rest (out ++ w).toArray
  rw [hcopies] at hblocks
  exact hblocks

lemma decodeBlocks_again103 (limit fuel : ℕ) (hw : w.length = 103) (hlimit : 3 ≤ limit) :
    ∃ s, decodeBlocks limit (fuel + 1) (.ofBytes again103) (out ++ w).toArray = ⟨(out ++ w ++ w).toArray, .ok s⟩ := by
  have hs : readHeader (.ofBytes again103) = .ok (true, 1, ⟨20, 5, [0x93, 0x35, 0, 0]⟩) :=
    eq_ok_of_toOption_eq_some (by decide +kernel)
  have h : readItems .fixedLiterals .fixedDistances 2 ⟨20, 5, [0x93, 0x35, 0, 0]⟩ = .ok ([.copy 103 103], ⟨0, 1, [0]⟩) :=
    eq_ok_of_toOption_eq_some (by decide +kernel)
  have hcopy : [Item.copy 103 103].foldl put (out ++ w).toArray = (out ++ w ++ w).toArray := by
    have hwhole := copyBack_length out w
    rwa [hw] at hwhole
  have hblocks := decodeBlocks_of_readItems hs h (by omega : 2 ≤ limit) fuel [] (out ++ w).toArray
  rw [hcopy] at hblocks
  exact ⟨_, hblocks⟩

/-- What the blocks of the stream below say, one after the other. Octets that are given as they are stand for themselves once,
those that are given and repeated stand for themselves twice. -/
def reproducing (head tail : Bytes) : Bytes :=
  (given 65 ++ (head ++ given 65)) ++ again65 ++ (given 5 ++ again65) ++ (given 5 ++ given 5) ++
    (given 20 ++ (again65 ++ given 5 ++ given 5 ++ given 20)) ++ again20 ++
    (given 20 ++ (again20 ++ given 20 ++ again20 ++ given 20)) ++ again20 ++
    (given 20 ++ (again20 ++ given 0 ++ given 0 ++ given 103)) ++ again20 ++
    (given 0 ++ []) ++ (given 0 ++ []) ++ (given 103 ++ (again103 ++ tail)) ++ again103

lemma length_reproducing (hhead : head.length = 60) (htail : tail.length = 98) : (reproducing head tail).length = 308 := by
  simp [reproducing, given, again65, again20, again103, hhead, htail]

theorem decode_reproducing (hhead : head.length = 60) (htail : tail.length = 98) :
    decode (reproducing head tail) = .ok (head ++ reproducing head tail ++ tail) := by
  have hfirst : (head ++ given 65).length = 65 := by simp [hhead, given]
  have hlast : (again103 ++ tail).length = 103 := by simp [htail, again103]
  have hstart : Writes 1 _ [] ([] ++ (head ++ given 65)) := writes_given 65 _ hfirst
  have hrun := hstart.trans (writes_again65 hfirst)
    |>.trans (writes_given 5 again65 rfl)
    |>.trans (writes_given 5 (given 5) rfl)
    |>.trans (writes_given 20 (again65 ++ given 5 ++ given 5 ++ given 20) rfl)
    |>.trans (writes_again20 rfl)
    |>.trans (writes_given 20 (again20 ++ given 20 ++ again20 ++ given 20) rfl)
    |>.trans (writes_again20 rfl)
    |>.trans (writes_given 20 (again20 ++ given 0 ++ given 0 ++ given 103) rfl)
    |>.trans (writes_again20 rfl)
    |>.trans (writes_given 0 [] rfl)
    |>.trans (writes_given 0 [] rfl)
    |>.trans (writes_given 103 _ hlast)
  obtain ⟨s, hend⟩ := decodeBlocks_again103 2465 2450 hlast (by omega)
  have hblocks := (hrun 2465 2451 again103 (by omega)).trans hend
  have houtput : decodeBlocks 2465 2465 (.ofBytes (reproducing head tail)) #[] =
      ⟨(head ++ reproducing head tail ++ tail).toArray, .ok s⟩ := hblocks.trans (by simp [reproducing])
  have hbits : 8 * (reproducing head tail).length + 1 = 2465 := by rw [length_reproducing hhead htail]
  rw [decode, hbits, houtput]

end Writing

end NamespaceMigration.Deflate
