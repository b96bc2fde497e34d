import NamespaceMigration.Settings.FieldMatch
import NamespaceMigration.Text.Utf8

/-! Directives of a log filter: a level for a target, for a span or for a field. -/

namespace NamespaceMigration

inductive LogLevel where
  | off
  | error
  | warn
  | info
  | debug
  | trace
  deriving DecidableEq, Repr

namespace LogLevel

def all : List LogLevel := [off, error, warn, info, debug, trace]

def name : LogLevel → String
  | off => "off"
  | error => "error"
  | warn => "warn"
  | info => "info"
  | debug => "debug"
  | trace => "trace"

def number? (s : List Char) : Option Nat :=
  let digits := match s with
    | '+' :: s => s
    | s => s
  if digits.isEmpty || !digits.all Char.isDigit then none else some (Date.digitsValue digits)

def parse? (s : String) : Option LogLevel :=
  match number? s.toList with
  | some n => all[n]?
  | none => all.find? fun l => Text.sameLetters l.name s

end LogLevel

structure LogDirective where
  target : Option String
  span : Option String
  field : Option FieldMatch
  level : LogLevel
  deriving DecidableEq, Repr

namespace LogDirective

inductive Part where
  | start
  | word (first : Nat)
  | span (first : Nat)
  | field (first : Nat)
  | afterField
  | afterSpan
  | level (first : Nat)
  deriving DecidableEq, Repr

def mayStart (c : Char) : Bool := c == '-' || c == ':' || c == '_' || Text.isAlphanumeric c

def step (s : List Char) (d : LogDirective) (i : Nat) (c : Char) : Part → Option (LogDirective × Part)
  | .start => if c == '[' then some (d, .span (i + 1)) else if mayStart c then some (d, .word i) else none
  | .word first => do
    if c == '=' then return ({ d with target := some (← Text.slice? s first i) }, .level (i + 1))
    else if c == '[' then return ({ d with target := some (← Text.slice? s first i) }, .span (i + 1))
    else return (d, .word first)
  | .span first => do
    if c == ']' then return ({ d with span := some (← Text.slice? s first i) }, .afterSpan)
    else if c == '\x7b' then
      let name ← Text.slice? s first i
      return ({ d with span := if name.isEmpty then none else some name }, .field (i + 1))
    else return (d, .span first)
  | .field first => do
    if c == '\x7d' then
      let text ← Text.slice? s first i
      if text.isEmpty then none else return ({ d with field := some (← FieldMatch.parse? text) }, .afterField)
    else return (d, .field first)
  | .afterField => if c == ']' then some (d, .afterSpan) else none
  | .afterSpan => if c == '=' then some (d, .level (i + 1)) else none
  | .level first => some (d, .level first)

def finish (s : List Char) (d : LogDirective) : Part → Option LogDirective
  | .word first => do
    let word ← Text.sliceFrom? s first
    match LogLevel.parse? word with
    | some level => return { d with level := level }
    | none => return { d with target := some word }
  | .level first => do
    let word ← Text.sliceFrom? s first
    if word.isEmpty then return d else (LogLevel.parse? word).map ({ d with level := · })
  | .afterSpan => some d
  | _ => none

def readFrom (s : List Char) : LogDirective → Nat → Part → List Char → Option LogDirective
  | d, _, part, [] => finish s d part
  | d, i, part, c :: rest => do
    let (d, part) ← step s d i c part
    readFrom s d (i + c.utf8Size) part rest

/-- Places are counted in the text without the blanks around it, and looked up in the text with them. -/
def parse? (s : List Char) : Option LogDirective := readFrom s ⟨none, none, none, .trace⟩ 0 .start (Text.trimChars s)

def isDynamic (d : LogDirective) : Bool := d.span.isSome || d.field.isSome

def static? (d : LogDirective) : Option LogDirective :=
  if d.span.isSome || d.field.any (·.value.isSome) then none else some d

def selector (d : LogDirective) : String :=
  let field := match d.field with
    | some f => "\x7b" ++ f.toText ++ "\x7d"
    | none => ""
  d.target.getD "" ++ if d.isDynamic then "[" ++ d.span.getD "" ++ field ++ "]" else ""

def toText (d : LogDirective) : String :=
  if d.target.isSome || d.isDynamic then d.selector ++ "=" ++ d.level.name else d.level.name

def fieldOrder : Option FieldMatch → Option FieldMatch → Ordering
  | none, none => .eq
  | none, some _ => .lt
  | some _, none => .gt
  | some f, some g => f.order g

/-- Compares the lengths of targets, then what else there is, then the names themselves. -/
def order (a b : LogDirective) : Ordering :=
  (compare (a.target.map (·.utf8ByteSize)) (b.target.map (·.utf8ByteSize))).then <|
    (compare a.span.isSome b.span.isSome).then <|
      (compare a.field.isSome b.field.isSome).then <|
        (compare a.target b.target).then <| (compare a.span b.span).then (fieldOrder a.field b.field)

def insert (d : LogDirective) : List LogDirective → List LogDirective
  | [] => [d]
  | e :: rest =>
    match d.order e with
    | .gt => d :: e :: rest
    | .eq => d :: rest
    | .lt => e :: insert d rest

def ordered (ds : List LogDirective) : List LogDirective := ds.foldl (fun acc d => insert d acc) []

end LogDirective

end NamespaceMigration
