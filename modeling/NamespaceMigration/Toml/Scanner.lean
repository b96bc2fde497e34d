import NamespaceMigration.Bytes
import NamespaceMigration.Date

/-! The words of TOML: blanks, comments, keys and strings, each read from the front of a text. -/

namespace NamespaceMigration.Toml

abbrev Scanner := StateT (List Char) Option

namespace Scanner

variable {α : Type}

def charIf (p : Char → Bool) : Scanner Char := fun s =>
  match s with
  | c :: rest => if p c then some (c, rest) else none
  | [] => none

def word (w : String) : Scanner Unit := fun s =>
  if w.toList.isPrefixOf s then some ((), s.drop w.length) else none

def skipWhile (p : Char → Bool) : Scanner Unit := modify (List.dropWhile p)

def atEnd : Scanner Unit := fun s => if s.isEmpty then some ((), s) else none

def manyFrom (x : Scanner α) : List Char → List α → List Char → List α × List Char
  | [], found, s => (found.reverse, s)
  | _ :: bound, found, s =>
    match x s with
    | none => (found.reverse, s)
    | some (a, rest) => manyFrom x bound (a :: found) rest

def many (x : Scanner α) : Scanner (List α) := fun s => some (manyFrom x s [] s)

def many1 (x : Scanner α) : Scanner (List α) := do return (← x) :: (← many x)

def option (x : Scanner α) : Scanner (Option α) := some <$> x <|> pure none

def sepBy1 (x : Scanner α) (separator : Scanner Unit) : Scanner (List α) := do
  return (← x) :: (← many (do separator; x))

def isBlank (c : Char) : Bool := c == ' ' || c == '\t'

def isText (c : Char) : Bool := c == '\t' || (' ' ≤ c && c != '\x7f')

def blanks : Scanner Unit := skipWhile isBlank

def newline : Scanner Unit := word "\n" <|> word "\r\n"

def lineEnd : Scanner Unit := newline <|> atEnd

def comment : Scanner Unit := do
  word "#"
  skipWhile isText

def trailing : Scanner Unit := do
  blanks
  let _ ← option comment
  lineEnd

def blankLines : Scanner Unit := do
  blanks
  let _ ← many (do
    let _ ← option comment
    newline
    blanks)

def ofDigits (base : Nat) (s : List Char) : Nat :=
  s.foldl (fun n c => base * n + (((Bytes.hexValue? c).map (·.toNat)).getD 0)) 0

def hexCode (width : Nat) : Scanner Char := do
  let digits ← (List.replicate width ()).mapM fun _ => charIf fun c => (Bytes.hexValue? c).isSome
  let code := ofDigits 16 digits
  if code.isValidChar then return Char.ofNat code else failure

def escapes : List (Char × Char) :=
  [('b', '\x08'), ('t', '\t'), ('n', '\n'), ('f', '\x0c'), ('r', '\r'), ('"', '"'), ('\\', '\\')]

def escape : Scanner Char := do
  word "\\"
  let c ← charIf fun _ => true
  match escapes.lookup c with
  | some e => return e
  | none => if c == 'u' then hexCode 4 else if c == 'U' then hexCode 8 else failure

def plain (quote : Char) : Scanner Char := charIf fun c => isText c && c != quote

def basicChar : Scanner Char := charIf (fun c => isText c && c != '"' && c != '\\') <|> escape

def basicString : Scanner String := do
  word "\""
  let s ← many basicChar
  word "\""
  return String.ofList s

def literalString : Scanner String := do
  word "'"
  let s ← many (plain '\'')
  word "'"
  return String.ofList s

def innerQuotes (quote : Char) : Scanner (List Char) := fun s =>
  let run := s.takeWhile (· == quote)
  if 0 < run.length && run.length < 3 then some (run, s.drop run.length) else none

def closing (quote : Char) : Scanner (List Char) := fun s =>
  let run := s.takeWhile (· == quote)
  if run.length < 3 then none
  else
    let extra := min 2 (run.length - 3)
    some (List.replicate extra quote, s.drop (extra + 3))

def lineFeed : Scanner (List Char) := do
  newline
  return ['\n']

def hiddenLineEnd : Scanner (List Char) := do
  word "\\"
  blanks
  newline
  let _ ← many (newline <|> (do let _ ← charIf isBlank))
  return []

def longString (quote : Char) (item : Scanner (List Char)) : Scanner String := do
  word (String.ofList [quote, quote, quote])
  let _ ← option newline
  let s ← many (item <|> innerQuotes quote)
  return String.ofList (s.flatten ++ (← closing quote))

def longBasicString : Scanner String :=
  longString '"' (lineFeed <|> hiddenLineEnd <|> (do return [← basicChar]))

def longLiteralString : Scanner String :=
  longString '\'' (lineFeed <|> (do return [← plain '\'']))

def string : Scanner String :=
  longBasicString <|> basicString <|> longLiteralString <|> literalString

def isBareChar (c : Char) : Bool := c.isAlphanum || c == '-' || c == '_'

def bareKey : Scanner String := do return String.ofList (← many1 (charIf isBareChar))

def simpleKey : Scanner String := basicString <|> literalString <|> bareKey

def pathLimit : Nat := 79

def key : Scanner (List String) := do
  let path ← sepBy1 (do
    blanks
    let k ← simpleKey
    blanks
    return k) (word ".")
  if path.length ≤ pathLimit then return path else failure

end Scanner

end NamespaceMigration.Toml
