import Std.Data.HashMap
import NamespaceMigration.Deflate.Item

/-! Search for repetitions with chains of earlier positions by the digest of their next three octets. -/

namespace NamespaceMigration.Deflate

structure Match where
  length : Nat
  distance : Nat
  deriving DecidableEq, Repr

namespace Matcher

def longestCopy : Nat := 258

def window : Nat := 0x8000

abbrev Chains := Std.HashMap UInt32 (List Nat)

def octet (data : Array UInt8) (pos : Nat) : UInt8 := data.getD pos 0

def digest (data : Array UInt8) (pos : Nat) : UInt32 :=
  ((octet data pos).toUInt32 <<< 10 ^^^ (octet data (pos + 1)).toUInt32 <<< 5 ^^^
    (octet data (pos + 2)).toUInt32) &&& 0x7FFF

def record (data : Array UInt8) (chains : Chains) (pos : Nat) : Chains :=
  if pos + 2 < data.size then chains.insert (digest data pos) (pos :: chains.getD (digest data pos) [])
  else chains

def agreement (data : Array UInt8) (a b : Nat) : Nat → Nat
  | 0 => 0
  | limit + 1 => if octet data a == octet data b then agreement data (a + 1) (b + 1) limit + 1 else 0

def pairAgrees (data : Array UInt8) (a b : Nat) : Bool :=
  octet data a == octet data b && octet data (a + 1) == octet data (b + 1)

structure Site where
  pos : Nat
  reach : Nat
  limit : Nat

def improve (data : Array UInt8) (site : Site) (candidate : Nat) (best : Match) : Match :=
  let length := if pairAgrees data candidate site.pos then agreement data candidate site.pos site.limit else 0
  if best.length < length then ⟨length, site.pos - candidate⟩ else best

/-- Follows a chain for a copy longer than `best`. A probe ends at a candidate that agrees where the best
copy ends, or after three that do not; `misses` may still follow the one at hand. -/
def follow (data : Array UInt8) (site : Site) : Nat → Nat → List Nat → Match → Match
  | _, _, [], best => best
  | probes, misses, candidate :: chain, best =>
    if candidate % 0x10000 = 0 || site.reach < site.pos - candidate then best
    else
      let hit := pairAgrees data (candidate + best.length - 1) (site.pos + best.length - 1)
      let best := if hit then improve data site candidate best else best
      if best.length = site.limit then best
      else if hit || misses = 0 then if probes ≤ 1 then best else follow data site (probes - 1) 2 chain best
      else follow data site probes (misses - 1) chain best

def isWorth (pos : Nat) (m : Match) : Bool :=
  !(m.length = 3 && 0x2000 ≤ m.distance) && pos % window ≠ m.distance

def search (data : Array UInt8) (chains : Chains) (pos atLeast : Nat) : Match :=
  let limit := min longestCopy (data.size - pos)
  let m :=
    if limit ≤ atLeast then ⟨atLeast, 0⟩
    else
      follow data ⟨pos, min pos (window - limit), limit⟩ (if atLeast < 32 then 43 else 11) 2
        (chains.getD (digest data pos) []) ⟨atLeast, 0⟩
  if isWorth pos m then m else ⟨0, 0⟩

structure Step where
  items : List Item
  pending : Option (UInt8 × Match)
  moved : Nat

def take (b : UInt8) (m : Match) : Step :=
  if 128 ≤ m.length then ⟨[.copy m.length m.distance], none, m.length⟩ else ⟨[], some (b, m), 1⟩

def step (data : Array UInt8) (chains : Chains) (pos : Nat) : Option (UInt8 × Match) → Step
  | none =>
    let m := search data chains pos 2
    if m.distance = 0 then ⟨[.literal (octet data pos)], none, 1⟩ else take (octet data pos) m
  | some (b, saved) =>
    let m := search data chains pos saved.length
    if saved.length < m.length then
      let s := take (octet data pos) m
      { s with items := .literal b :: s.items }
    else ⟨[.copy saved.length saved.distance], none, saved.length - 1⟩

def recordFrom (data : Array UInt8) (pos : Nat) : Nat → Chains → Chains
  | 0, chains => chains
  | n + 1, chains => recordFrom data (pos + 1) n (record data chains pos)

def steps (data : Array UInt8) : Nat → Nat → Chains → Option (UInt8 × Match) → List (List Item)
  | 0, _, _, _ => []
  | fuel + 1, pos, chains, pending =>
    if data.size ≤ pos then []
    else
      let s := step data chains pos pending
      s.items :: steps data fuel (pos + s.moved) (recordFrom data pos s.moved chains) s.pending

end Matcher

def itemGroups (data : Array UInt8) : List (List Item) := Matcher.steps data data.size 0 ∅ none

end NamespaceMigration.Deflate
