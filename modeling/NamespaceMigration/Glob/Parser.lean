import NamespaceMigration.Glob.Basic

namespace NamespaceMigration

inductive GlobFault where
  | unclosedClass
  | reversedRange (first last : Char)
  | unopenedGroup
  | unclosedGroup
  | trailingEscape
  | tooDeep (index : Nat)
  deriving DecidableEq, Repr

namespace Glob

inductive Lexeme where
  | plain (c : Char)
  | escaped (c : Char)
  | oneOf (negated : Bool) (ranges : List (Char × Char))
  deriving DecidableEq, Repr

structure ClassDraft where
  negated : Bool
  ranges : List (Char × Char)
  extending : Bool
  deriving DecidableEq, Repr

namespace ClassDraft

def close (d : ClassDraft) : Lexeme :=
  .oneOf d.negated ((if d.extending then ('-', '-') :: d.ranges else d.ranges).reverse)

/-- A closing bracket or hyphen that comes first stands for itself. -/
def read (d : ClassDraft) (c : Char) : Except GlobFault ClassDraft :=
  match d.ranges with
  | [] => .ok { d with ranges := [(c, c)] }
  | r :: ranges =>
    if d.extending then
      if c < r.1 then .error (.reversedRange r.1 c) else .ok ⟨d.negated, (r.1, c) :: ranges, false⟩
    else if c = '-' then .ok { d with extending := true }
    else .ok { d with ranges := (c, c) :: r :: ranges }

def isClosedBy (d : ClassDraft) (c : Char) : Bool := c == ']' && !d.ranges.isEmpty

end ClassDraft

mutual

def lexemes : List Char → Except GlobFault (List Lexeme)
  | [] => .ok []
  | '\\' :: [] => .error .trailingEscape
  | '\\' :: c :: s => return .escaped c :: (← lexemes s)
  | '[' :: '!' :: s => classLexemes ⟨true, [], false⟩ s
  | '[' :: '^' :: s => classLexemes ⟨true, [], false⟩ s
  | '[' :: s => classLexemes ⟨false, [], false⟩ s
  | c :: s => return .plain c :: (← lexemes s)

def classLexemes (d : ClassDraft) : List Char → Except GlobFault (List Lexeme)
  | [] => .error .unclosedClass
  | c :: s => do
    if d.isClosedBy c then return d.close :: (← lexemes s)
    else classLexemes (← d.read c) s

end

def octetRanges (r : Char × Char) : List (UInt8 × UInt8) :=
  let single (b : UInt8) := (b, b)
  let first := Bytes.utf8 (String.singleton r.1)
  let last := Bytes.utf8 (String.singleton r.2)
  if r.1 = r.2 then first.map single
  else first.dropLast.map single ++ [(first.getLastD 0, last.headD 0)] ++ last.tail.map single

structure Draft where
  pieces : List Glob
  groups : List (List Glob × List Glob)
  deriving DecidableEq, Repr

namespace Draft

def push (d : Draft) (g : Glob) : Draft := { d with pieces := g :: d.pieces }

def branch (d : Draft) : Glob := sequence d.pieces.reverse

def finished (d : Draft) (done : List Glob) : List Glob :=
  if d.branch == empty then done else done ++ [d.branch]

def openGroup (d : Draft) : Draft := ⟨[], ([], d.pieces) :: d.groups⟩

def comma (d : Draft) : Draft :=
  match d.groups with
  | [] => d.push (literal ',')
  | (done, outer) :: groups => ⟨[], (d.finished done, outer) :: groups⟩

def closeGroup (d : Draft) : Except GlobFault Draft :=
  match d.groups with
  | [] => .error .unopenedGroup
  | (done, outer) :: groups =>
    let choices := d.finished done
    .ok ⟨(if choices.isEmpty then empty else group (alternatives choices)) :: outer, groups⟩

/-- Puts directories in place of the piece before two stars, unless it stands for directories itself. -/
def deepen (d : Draft) (g : Glob) : Draft :=
  match d.pieces with
  | [] => d.push g
  | last :: pieces => if last == anyDirectories || last == descendants then d else { d with pieces := g :: pieces }

def finish (d : Draft) : Except GlobFault Glob :=
  if d.groups.isEmpty then
    .ok (if d.pieces == [anyDirectories] then anyOctets else d.branch)
  else .error .unclosedGroup

end Draft

def deepensAfter (d : Draft) (prev : Option Char) : Bool :=
  prev == some '/' || (!d.groups.isEmpty && (prev == some ',' || prev == some '{'))

def build (d : Draft) (prev : Option Char) : List Lexeme → Except GlobFault Glob
  | [] => d.finish
  | .plain '*' :: .plain '*' :: rest =>
    let stars := (d.push anyOctets).push anyOctets
    if d.pieces.isEmpty then
      match rest with
      | [] => (d.push anyDirectories).finish
      | .plain '/' :: rest => build (d.push anyDirectories) (some '/') rest
      | rest => build stars (some '*') rest
    else if deepensAfter d prev then
      match rest with
      | [] => (d.deepen descendants).finish
      | .plain '/' :: rest => build (d.deepen between) (some '/') rest
      | .plain c :: rest' =>
        build (if (c == ',' || c == '}') && !d.groups.isEmpty then d.deepen descendants else stars) (some '*') (.plain c :: rest')
      | rest => build stars (some '*') rest
    else build stars (some '*') rest
  | .plain '*' :: rest => build (d.push anyOctets) (some '*') rest
  | .plain '?' :: rest => build (d.push anyOctet) (some '?') rest
  | .plain '{' :: rest => build d.openGroup (some '{') rest
  | .plain ',' :: rest => build d.comma (some ',') rest
  | .plain '}' :: rest => do build (← d.closeGroup) (some '}') rest
  | .plain c :: rest => build (d.push (literal c)) (some c) rest
  | .escaped c :: rest => build (d.push (literal c)) (some c) rest
  | .oneOf negated ranges :: rest =>
    build (d.push (oneOf negated (ranges.flatMap octetRanges))) (some ']') rest

def parse (pattern : String) : Except GlobFault Glob := do
  build ⟨[], []⟩ none (← lexemes pattern.toList)

end Glob

end NamespaceMigration
