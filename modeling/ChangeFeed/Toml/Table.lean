import ChangeFeed.Toml.Value

/-!
Tables while a text is read. A table can be filled from several places of the text, and how it came
about says which of them are allowed: a header may fill only what no other place has filled, and a
dotted key may fill only what dotted keys have made.
-/
namespace ChangeFeed.Toml

inductive Origin
  /-- Its own header. -/
  | header
  /-- The header of a table in it. -/
  | nested
  /-- A dotted key. -/
  | dotted
deriving DecidableEq, Repr

inductive Node
  | leaf (v : Value)
  | table (origin : Origin) (entries : List (String × Node))
  /-- One table for each header in double brackets, the last one first. -/
  | series (tables : List (List (String × Node)))

abbrev Entries := List (String × Node)

namespace Entries

def get? (es : Entries) (key : String) : Option Node := (es.find? (·.1 == key)).map (·.2)

def erase (es : Entries) (key : String) : Entries := es.filter (·.1 != key)

def set (es : Entries) (key : String) (n : Node) : Entries := (key, n) :: es.erase key

def add? (es : Entries) (key : String) (n : Node) : Option Entries :=
  match es.get? key with
  | some _ => none
  | none => some (es.set key n)

/-- Changes the last table of a series. -/
def changeLast (f : Entries → Option Entries) : List Entries → Option Node
  | last :: before => (f last).map fun es => .series (es :: before)
  | [] => none

/-- Changes the table that the names of a header lead to; tables on the way come about by it. -/
def change (f : Entries → Option Entries) : List String → Entries → Option Entries
  | [], es => f es
  | key :: path, es => do
    match es.get? key with
    | none => return es.set key (.table .nested (← change f path []))
    | some (.leaf _) => none
    | some (.table origin inner) => return es.set key (.table origin (← change f path inner))
    | some (.series tables) => return es.set key (← changeLast (change f path) tables)

/-- Adds what a dotted key names; `inTable` says whether a dotted key has led here. -/
def addDotted? (key : String) (n : Node) (mayAdd : Bool) : List String → Entries → Option Entries
  | [], es => if mayAdd then es.add? key n else none
  | first :: path, es => do
    match es.get? first with
    | none => return es.set first (.table .dotted (← addDotted? key n true path []))
    | some (.leaf _) => none
    | some (.table .header _) => none
    | some (.table .nested inner) =>
      return es.set first (.table .nested (← addDotted? key n false path inner))
    | some (.table .dotted inner) =>
      return es.set first (.table .dotted (← addDotted? key n true path inner))
    | some (.series tables) =>
      return es.set first (← changeLast (addDotted? key n false path) tables)

/-- Adds a value under the names of a dotted key. -/
def addKey? (es : Entries) (key : List String) (v : Value) : Option Entries :=
  match key.getLast? with
  | some last => es.addDotted? last (.leaf v) true key.dropLast
  | none => none

end Entries

mutual

def Node.value : Node → Value
  | .leaf v => v
  | .table _ entries => .table (values entries)
  | .series tables => .list (tablesOf tables).reverse

def values : List (String × Node) → List (String × Value)
  | [] => []
  | (key, n) :: es => (key, n.value) :: values es

def tablesOf : List (List (String × Node)) → List Value
  | [] => []
  | es :: ts => .table (values es) :: tablesOf ts

end

end ChangeFeed.Toml
