import ChangeFeed.Config.Value

/-!
Places of settings in nested tables and lists, and putting values there. A table that is put where
one is already is merged into it; anything else takes the place of what was there.
-/
namespace ChangeFeed.Config

inductive Step
  | key (name : String)
  /-- A negative index counts from the end. -/
  | index (n : Int)
deriving DecidableEq, Repr

abbrev Place := List Step

namespace Place

/-- Characters that a name in a place consists of. -/
def isNameCharacter (c : Char) : Bool :=
  ('a' ≤ c && c ≤ 'z') || ('A' ≤ c && c ≤ 'Z') || c.isDigit || c == ' ' || c == '_' || c == '-'

def name? (cs : List Char) : Option (Step × List Char) :=
  match cs.takeWhile isNameCharacter with
  | [] => none
  | name => some (.key (String.ofList name), cs.dropWhile isNameCharacter)

def index? (cs : List Char) : Option (Step × List Char) :=
  let inner := cs.takeWhile (· ≠ ']')
  let number := (((inner.dropWhile isGap).reverse.dropWhile isGap).reverse)
  match cs.dropWhile (· ≠ ']'), number with
  | _ :: _, '+' :: _ => none
  | _ :: rest, _ => (Text.Numeral.signed? 10 (UInt64.size / 2) number).map (.index ·, rest)
  | [], _ => none
where
  isGap (c : Char) : Bool := c == ' ' || c == '\t'

/-- The steps after the first name, at most `fuel` of them. -/
def steps? : Nat → List Char → Option Place
  | _, [] => some []
  | 0, _ => none
  | fuel + 1, '.' :: cs => do
    let (step, rest) ← name? cs
    return step :: (← steps? fuel rest)
  | fuel + 1, '[' :: cs => do
    let (step, rest) ← index? cs
    return step :: (← steps? fuel rest)
  | _, _ => none

/-- Names with dots between them and indices in brackets. -/
def ofText? (s : String) : Option Place := do
  let (step, rest) ← name? s.toList
  return step :: (← steps? rest.length rest)

/-- The place that a name stands for; one that is no path stands for itself. -/
def ofText (s : String) : Place := (ofText? s).getD [.key s]

end Place

namespace Value

def get? (v : Value) (name : String) : Option Value :=
  (v.entries.find? (·.1 == fold name)).map (·.2)

/-- The value as a table with one entry set. -/
def set (v : Value) (name : String) (w : Value) : Value :=
  .table ((fold name, w) :: v.entries.filter (·.1 != fold name))

mutual

def put (root : Value) (name : String) : Value → Value
  | .table es => root.set name (putAll ((root.get? name).getD (.table [])) es)
  | v => root.set name v

def putAll (root : Value) : List (String × Value) → Value
  | [] => root
  | (name, v) :: es => putAll (put root name v) es

end

/-- Which item an index means in a list of `length`. -/
def position (n : Int) (length : Nat) : Nat := if 0 ≤ n then n.toNat else length - n.natAbs

/-- The list with an item set; items that are missing before it are nothing. -/
def setItem (items : List Value) (i : Nat) (v : Value) : List Value :=
  (items ++ List.replicate (i + 1 - items.length) Value.nothing).set i v

/-- Puts a value at a place; what lies on the way there becomes a table or a list. -/
def putAt (v : Value) : Place → Value → Value
  | [], root => root
  | [.key name], root => put root name v
  | .key name :: step :: steps, root =>
    root.set name (putAt v (step :: steps) ((root.get? name).getD .nothing))
  | .index n :: steps, root =>
    let i := position n root.items.length
    let old := (root.items[i]?).getD .nothing
    .list (setItem root.items i (if steps.isEmpty then v else putAt v steps old))

/-- Puts every entry at the place that its name stands for. -/
def merge (root : Value) (es : List (String × Value)) : Value :=
  es.foldl (fun root e => putAt e.2 (Place.ofText e.1) root) root

end Value

end ChangeFeed.Config
