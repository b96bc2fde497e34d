import NamespaceMigration.Profile.Rule
import NamespaceMigration.Text.Quoted

/-! Profiles replace a source token by a target token where a rule matches what follows, from left to right. -/

namespace NamespaceMigration

structure Profile where
  name : String
  source : String
  target : String
  rules : List Rule
  deriving DecidableEq, Repr

structure Migrated (β : Type) where
  value : β
  changed : Bool
  deriving DecidableEq, Repr

namespace Profile

def identity (p : Profile) : String := p.name ++ "|" ++ p.source ++ "|" ++ p.target

def describe (p : Profile) : String :=
  "Profile \x7b name: " ++ Text.quoted p.name ++ ", source: " ++ Text.quoted p.source ++ ", target: " ++
    Text.quoted p.target ++ ", rules: " ++ toString p.rules.length ++ " \x7d"

def isTrivial (p : Profile) : Bool := p.source == p.target

def reversedAs (p : Profile) (name : String) : Profile :=
  { p with name := name, source := p.target, target := p.source }

def reversed (p : Profile) : Profile := p.reversedAs (p.name ++ "-inverse")

variable {α : Type}

/-- Positions of the matches, given the length of the match at the head of a text; `skip` symbols
still belong to the last one. -/
def scan (lengthAt : List α → Option Nat) : Nat → Nat → List α → List Nat
  | _, _, [] => []
  | skip + 1, pos, _ :: s => scan lengthAt skip (pos + 1) s
  | 0, pos, c :: s =>
    match lengthAt (c :: s) with
    | some n => pos :: scan lengthAt (n - 1) (pos + 1) s
    | none => scan lengthAt 0 (pos + 1) s

def substitute (width : Nat) (new : List α) : Nat → List Nat → List α → List α
  | _, [], s => s
  | start, pos :: positions, s =>
    s.take (pos - start) ++ new ++
      substitute width new (pos + width) positions (s.drop (pos - start + width))

variable [BEq α] [Alphabet α]

/-- The length of a token at the head of a text together with the namespace that some rule matches
after it; the first such rule counts. -/
def matchLength? (rules : List Rule) (token s : List α) : Option Nat := do
  let after ← Text.strip? token s
  return token.length + (← rules.findSome? (·.matchLength? after))

def positions (p : Profile) (s : List α) : List Nat :=
  let token : List α := Alphabet.spell p.source
  if token.isEmpty then [] else scan (matchLength? p.rules token) 0 0 s

def migrateSymbols (p : Profile) (s : List α) : Migrated (List α) :=
  let found := p.positions s
  if found.isEmpty || p.isTrivial then ⟨s, false⟩
  else
    ⟨substitute (Alphabet.spell p.source : List α).length (Alphabet.spell p.target) 0 found s, true⟩

def migrateBytes (p : Profile) (bs : Bytes) : Migrated Bytes := p.migrateSymbols bs

def migrate (p : Profile) (s : String) : Migrated String :=
  let r := p.migrateSymbols s.toList
  ⟨String.ofList r.value, r.changed⟩

/-- Whether any match is found; an identity profile matches too, though it changes nothing. -/
def matchesIn (p : Profile) (s : String) : Bool := !(p.positions s.toList).isEmpty

end Profile

end NamespaceMigration
