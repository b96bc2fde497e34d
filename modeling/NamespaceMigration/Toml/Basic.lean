import NamespaceMigration.Decimal
import NamespaceMigration.Text.Quoted

/-! TOML documents as the `toml` library reads them: values, and tables in the order of their keys. -/

namespace NamespaceMigration.Toml

inductive Origin where
  | header
  | path
  | dotted
  | braces
  deriving DecidableEq, Repr

inductive Value where
  | string (text : String)
  | integer (n : Int)
  | float (x : Binary64)
  | boolean (b : Bool)
  | datetime
  | array (items : List Value)
  | table (origin : Origin) (entries : List (String × Value))
  | tables (items : List (List (String × Value)))

abbrev Entries := List (String × Value)

namespace Entries

def replace (key : String) (value : Value) (entries : Entries) : Entries :=
  entries.map fun (k, v) => (k, if k = key then value else v)

def erase (key : String) (entries : Entries) : Entries := entries.filter fun (k, _) => k != key

/-- Changes the table at the end of a path, and makes the tables on the way that are missing. A path leads
through the last of several tables. One of dotted keys does not lead into a table with a header or braces,
and one of a header not into braces. -/
def change (dotted : Bool) (f : Origin → Entries → Option Entries) :
    List String → Origin → Entries → Option Entries
  | [], origin, entries => f origin entries
  | key :: path, _, entries =>
    match entries.lookup key with
    | none => do
      let origin := if dotted then .dotted else .path
      return entries ++ [(key, .table origin (← change dotted f path origin []))]
    | some (.table origin inner) =>
      if origin = .braces ∨ (dotted ∧ origin = .header) then none
      else do return replace key (.table origin (← change dotted f path origin inner)) entries
    | some (.tables items) => do
      let last ← change dotted f path .header (items.getLast?.getD [])
      return replace key (.tables (items.dropLast ++ [last])) entries
    | some _ => none

def add (dotted : Bool) (key : String) (value : Value) (origin : Origin) (entries : Entries) : Option Entries :=
  if decide (origin = .dotted) != dotted || (entries.lookup key).isSome then none
  else some (entries ++ [(key, value)])

def addAt (path : List String) (key : String) (value : Value) (origin : Origin) (entries : Entries) :
    Option Entries :=
  change true (add (!path.isEmpty) key value) path origin entries

def openTable (key : String) (_ : Origin) (entries : Entries) : Option Entries :=
  match entries.lookup key with
  | none => some (entries ++ [(key, .table .header [])])
  | some (.table .path inner) => some (erase key entries ++ [(key, .table .header inner)])
  | some _ => none

def openItem (key : String) (_ : Origin) (entries : Entries) : Option Entries :=
  match entries.lookup key with
  | none => some (entries ++ [(key, .tables [[]])])
  | some (.tables items) => some (replace key (.tables (items ++ [[]])) entries)
  | some _ => none

end Entries

end NamespaceMigration.Toml
