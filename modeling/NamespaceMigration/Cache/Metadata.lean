import NamespaceMigration.Cache.Key
import NamespaceMigration.Date
import NamespaceMigration.Text.Basic
import NamespaceMigration.Text.Search

/-! Cache metadata: the day of the last access to each cached object, written as one line for each. -/

namespace NamespaceMigration

structure Metadata where
  entries : List (CacheKey × Date)
  deriving DecidableEq, Repr

namespace Metadata

def fileName : String := "cache-metadata.txt"

def header : String := "# conversion cache metadata: hash|last_access_date"

def empty : Metadata := ⟨[]⟩

def get? (m : Metadata) (h : CacheKey) : Option Date := m.entries.lookup h

def setIn (h : CacheKey) (d : Date) : List (CacheKey × Date) → List (CacheKey × Date)
  | [] => [(h, d)]
  | e :: entries =>
    if e.1 = h then (h, d) :: entries
    else if h.text < e.1.text then (h, d) :: e :: entries
    else e :: setIn h d entries

def set (m : Metadata) (h : CacheKey) (d : Date) : Metadata := ⟨setIn h d m.entries⟩

def erase (m : Metadata) (h : CacheKey) : Metadata := ⟨m.entries.filter fun e => e.1 ≠ h⟩

/-- Records an access; a later one that is known stays. -/
def touch (m : Metadata) (h : CacheKey) (d : Date) : Metadata :=
  m.set h (match m.get? h with
    | some old => Date.later old d
    | none => d)

def supply (m : Metadata) (h : CacheKey) (d : Date) : Metadata := if (m.get? h).isSome then m else m.set h d

def merge (m other : Metadata) : Metadata := other.entries.foldl (fun m e => m.touch e.1 e.2) m

def readLine? (line : List Char) : Option (CacheKey × Date) := do
  let (hash, date) ← Text.splitFirst? (· == '|') line
  return (← CacheKey.parse? (String.ofList (Text.trimChars hash)),
    ← Date.parse? (String.ofList (Text.trimChars date)))

def isComment (line : List Char) : Bool := line.isEmpty || line.head? == some '#'

def addLine (m : Metadata) (line : List Char) : Metadata :=
  let line := Text.trimChars line
  if isComment line then m
  else match readLine? line with
    | some (h, d) => m.set h d
    | none => m

/-- Reads all lines; those that are no entries are passed over, and of one hash the last counts. -/
def parse (text : String) : Metadata := (text.toList.splitOnP (· == '\n')).foldl addLine empty

def line (e : CacheKey × Date) : String := e.1.text ++ "|" ++ e.2.toText ++ "\n"

def toText (m : Metadata) : String := header ++ "\n" ++ String.join (m.entries.map line)

end Metadata

end NamespaceMigration
