import NamespaceMigration.Text.Search

/-! Options and positions of a command line, read from left to right. -/

namespace NamespaceMigration.CommandLine

inductive OptionKind where
  | flag
  | text
  | path
  | number
  deriving DecidableEq, Repr

structure OptionRule where
  name : String
  kind : OptionKind
  repeatable : Bool
  deriving DecidableEq, Repr

inductive UsageFault where
  | unknownArgument (argument : String)
  | missingValue (option : String)
  | unexpectedValue (option : String)
  | repeatedOption (option : String)
  | invalidValue (value : String)
  | tooManyArguments (argument : String)
  | missingArgument (name : String)
  | missingCommand
  deriving DecidableEq, Repr

def UsageFault.message : UsageFault → String
  | unknownArgument a => "unexpected argument '" ++ a ++ "' found"
  | missingValue o => "a value is required for '--" ++ o ++ "' but none was supplied"
  | unexpectedValue o => "unexpected value for '--" ++ o ++ "' found"
  | repeatedOption o => "the argument '--" ++ o ++ "' cannot be used multiple times"
  | invalidValue v => "invalid value '" ++ v ++ "'"
  | tooManyArguments a => "unexpected argument '" ++ a ++ "' found"
  | missingArgument n => "the following required arguments were not provided: <" ++ n ++ ">"
  | missingCommand => "a subcommand is required but none was provided"

inductive Stop where
  | usage (fault : UsageFault)
  | version
  | help
  deriving DecidableEq, Repr

structure CommandRule where
  options : List OptionRule
  positions : Nat
  commands : List (String × List String)
  commandsFirst : Bool
  versioned : Bool
  deriving DecidableEq, Repr

namespace CommandRule

def hasCommand (r : CommandRule) (name : String) : Bool := r.commands.any (·.1 == name)

def hasHelp (r : CommandRule) : List String → Bool
  | [] => true
  | [name] => name == "help" || r.hasCommand name
  | [name, below] => r.commands.any fun (n, names) => n == name && !names.isEmpty && (below == "help" || names.contains below)
  | _ => false

end CommandRule

structure Scanned where
  options : List (String × String)
  positions : List String
  command : Option (String × List String)
  deriving DecidableEq, Repr

namespace Scanned

def empty : Scanned := ⟨[], [], none⟩

def isEmpty (s : Scanned) : Bool := s.options.isEmpty && s.positions.isEmpty

def has (s : Scanned) (option : String) : Bool := s.options.any (·.1 == option)

def value? (s : Scanned) (option : String) : Option String := s.options.lookup option

def values (s : Scanned) (option : String) : List String := (s.options.filter (·.1 == option)).map (·.2)

end Scanned

def number? (s : String) : Option Nat :=
  let (negative, digits) := match s.toList with
    | '+' :: s => (false, s)
    | '-' :: s => (true, s)
    | s => (false, s)
  if digits.isEmpty || !digits.all Char.isDigit then none
  else
    let n := digits.foldl (fun n c => 10 * n + (c.toNat - 48)) 0
    if n < Nat.pow 2 32 && (!negative || n == 0) then some n else none

def isValid (kind : OptionKind) (value : String) : Bool :=
  match kind with
  | .path => !value.isEmpty
  | .number => (number? value).isSome
  | _ => true

def looksLikeOption (argument : String) : Bool :=
  match argument.toList with
  | '-' :: _ :: _ => true
  | _ => false

def addOption (s : Scanned) (r : OptionRule) (value : String) : Except Stop Scanned :=
  if !r.repeatable && s.has r.name then .error (.usage (.repeatedOption r.name))
  else if !isValid r.kind value then .error (.usage (.invalidValue value))
  else .ok { s with options := s.options ++ [(r.name, value)] }

def addPosition (rule : CommandRule) (s : Scanned) (argument : String) : Except Stop Scanned :=
  if s.positions.length ≥ rule.positions then .error (.usage (.tooManyArguments argument))
  else if argument.isEmpty then .error (.usage (.invalidValue argument))
  else .ok { s with positions := s.positions ++ [argument] }

def splitOption (body : List Char) : String × Option String :=
  match Text.splitFirst? (· == '=') body with
  | some (name, value) => (String.ofList name, some (String.ofList value))
  | none => (String.ofList body, none)

def takeValue (name : String) : Option String → List String → Except Stop (String × List String)
  | some value, rest => .ok (value, rest)
  | none, value :: rest => if looksLikeOption value then .error (.usage (.missingValue name)) else .ok (value, rest)
  | none, [] => .error (.usage (.missingValue name))

def scanOption (rule : CommandRule) (s : Scanned) (argument : String) (body : List Char) (rest : List String) :
    Except Stop (Scanned × Nat) :=
  let (name, value) := splitOption body
  if name = "help" ∨ (name = "version" ∧ rule.versioned) then
    .error (if value.isSome then .usage (.unexpectedValue name) else if name = "help" then .help else .version)
  else
    match rule.options.find? (·.name == name) with
    | none => .error (.usage (.unknownArgument argument))
    | some r =>
      if r.kind = .flag then
        if value.isSome then .error (.usage (.unexpectedValue name))
        else do return (← addOption s r "", 0)
      else do
        let (value, after) ← takeValue name value rest
        return (← addOption s r value, rest.length - after.length)

def scanFrom (rule : CommandRule) : Scanned → Nat → List String → Except Stop Scanned
  | s, _, [] => .ok s
  | s, skip + 1, _ :: rest => scanFrom rule s skip rest
  | s, 0, argument :: rest =>
    match argument.toList with
    | ['-', '-'] => rest.foldlM (addPosition rule) s
    | '-' :: '-' :: body => do
      let (s, taken) ← scanOption rule s argument body rest
      scanFrom rule s taken rest
    | '-' :: c :: _ =>
      if c = 'h' then .error .help
      else if c = 'V' ∧ rule.versioned then .error .version
      else .error (.usage (.unknownArgument argument))
    | _ =>
      if argument = "help" ∧ !rule.commands.isEmpty ∧ (s.isEmpty ∨ !rule.commandsFirst) then
        .error (if rule.hasHelp rest then .help else .usage (.unknownArgument argument))
      else if rule.hasCommand argument ∧ (s.isEmpty ∨ !rule.commandsFirst) then
        .ok { s with command := some (argument, rest) }
      else do
        let s ← addPosition rule s argument
        scanFrom rule s 0 rest

def scan (rule : CommandRule) (arguments : List String) : Except Stop Scanned := scanFrom rule .empty 0 arguments

end NamespaceMigration.CommandLine
