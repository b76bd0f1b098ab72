import ChangeFeed.Toml.Moment
import ChangeFeed.Toml.Number
import ChangeFeed.Toml.Table
import ChangeFeed.Toml.Text

/-!
Reads TOML texts. Every reader gives what it read and the text after it; fuel bounds how long the
text may still be.
-/
namespace ChangeFeed.Toml

def isBareKey (c : Char) : Bool := c.isAlphanum || c == '_' || c == '-'

def name? (cs : List Char) : Option (String × List Char) :=
  match cs.takeWhile isBareKey with
  | [] => shortString? cs
  | name => some (String.ofList name, cs.dropWhile isBareKey)

def names? : Nat → List Char → Option (List String × List Char)
  | 0, _ => none
  | fuel + 1, cs => do
    let (name, rest) ← name? (skipBlanks cs)
    match skipBlanks rest with
    | '.' :: rest => do
      let (names, rest) ← names? fuel rest
      return (name :: names, rest)
    | rest => return ([name], rest)

def depthLimit : Nat := 80

/-- A key, which has fewer names than the limit. -/
def key? (cs : List Char) : Option (List String × List Char) :=
  (names? (cs.length + 1) cs).filter (·.1.length < depthLimit)

/-- Characters of numbers, moments and words. -/
def isPlainValue (c : Char) : Bool :=
  c.isAlphanum || c == '_' || c == '-' || c == '+' || c == '.' || c == ':'

/-- A value without marks, from its whole text. -/
def plainValue? (cs : List Char) : Option Value :=
  if cs = "true".toList then some (.bool true)
  else if cs = "false".toList then some (.bool false)
  else ((moment? cs).map .moment <|> (real? cs).map .real) <|> (integer? cs).map .integer

/-- A value without marks. A date may have a blank between it and a time. -/
def plain? (cs : List Char) : Option (Value × List Char) :=
  let first := cs.takeWhile isPlainValue
  let rest := cs.dropWhile isPlainValue
  let alone := (plainValue? first).map (·, rest)
  match rest with
  | ' ' :: more =>
    if (time? more).isSome && (date? first).any (·.2.isEmpty) then
      (moment? (first ++ ' ' :: more.takeWhile isPlainValue)).map fun s =>
        (.moment s, more.dropWhile isPlainValue)
    else alone
  | _ => alone

mutual

/-- A value that holds values down to `depth` deep. -/
def value? : (fuel depth : Nat) → List Char → Option (Value × List Char)
  | 0, _, _ => none
  | fuel + 1, depth, cs =>
    match cs with
    | '"' :: _ | '\'' :: _ => (string? cs).map fun p => (.text p.1, p.2)
    | '[' :: rest =>
      match depth with
      | 0 => none
      | depth + 1 => (items? fuel depth rest).map fun p => (.list p.1, p.2)
    | '\x7b' :: rest =>
      match depth with
      | 0 => none
      | depth + 1 =>
        match skipBlanks rest with
        | '\x7d' :: rest => some (.table [], rest)
        | rest => (fields? fuel depth [] rest).map fun p => (.table (values p.1), p.2)
    | _ => plain? cs

/-- The items of a list up to its closing bracket. -/
def items? : (fuel depth : Nat) → List Char → Option (List Value × List Char)
  | 0, _, _ => none
  | fuel + 1, depth, cs => do
    match ← skipLines (cs.length + 1) cs with
    | ']' :: rest => return ([], rest)
    | cs => do
      let (v, rest) ← value? fuel depth cs
      match ← skipLines (rest.length + 1) rest with
      | ',' :: rest => do
        let (vs, rest) ← items? fuel depth rest
        return (v :: vs, rest)
      | ']' :: rest => return ([v], rest)
      | _ => none

/-- The entries of an inline table up to its closing brace, added to those before them. -/
def fields? : (fuel depth : Nat) → Entries → List Char → Option (Entries × List Char)
  | 0, _, _, _ => none
  | fuel + 1, depth, es, cs => do
    let (key, rest) ← key? cs
    let (v, rest) ← value? fuel depth (skipBlanks (← after? '=' rest))
    let es ← es.addKey? key v
    match skipBlanks rest with
    | ',' :: rest => fields? fuel depth es rest
    | '\x7d' :: rest => return (es, rest)
    | _ => none

end

/-- A document down to a line: the tables before, and the table that the lines after it fill. -/
structure Draft where
  root : Entries
  /-- The names of the header, none before the first. -/
  path : List String
  isSeries : Bool
  entries : Entries

namespace Draft

def empty : Draft := ⟨[], [], false, []⟩

/-- Puts the table that is being filled in its place. -/
def close (d : Draft) : Option Entries :=
  match d.path.getLast? with
  | none => some d.entries
  | some last =>
    Entries.change (fun es =>
      if d.isSeries then
        match es.get? last with
        | some (.series tables) => some (es.set last (.series (d.entries :: tables)))
        | _ => none
      else es.add? last (.table .header d.entries)) d.path.dropLast d.root

/-- Begins the table of a header. A table that the headers of its tables have made is taken up. -/
def openTable (root : Entries) (path : List String) : Option Draft := do
  let last ← path.getLast?
  let find := fun (es : Entries) => match es.get? last with
    | none => some []
    | some (.table .nested inner) => some inner
    | some _ => none
  let root ← root.change (fun es => (find es).map fun _ => es) path.dropLast
  let parent ← entriesAt path.dropLast root
  return ⟨← root.change (fun es => some (es.erase last)) path.dropLast, path, false, ← find parent⟩
where
  /-- The table that the names of a header lead to. -/
  entriesAt : List String → Entries → Option Entries
    | [], es => some es
    | key :: path, es =>
      match es.get? key with
      | some (.table _ inner) => entriesAt path inner
      | some (.series (last :: _)) => entriesAt path last
      | _ => none

/-- Begins another table of a series. -/
def openSeries (root : Entries) (path : List String) : Option Draft := do
  let last ← path.getLast?
  let root ← root.change (fun es => match es.get? last with
    | none => some (es.set last (.series []))
    | some (.series _) => some es
    | some _ => none) path.dropLast
  return ⟨root, path, true, []⟩

def header? (d : Draft) (cs : List Char) : Option (Draft × List Char) := do
  let root ← d.close
  match cs with
  | '[' :: rest => do
    let (path, rest) ← key? rest
    let rest ← finishLine? (← after? ']' (← after? ']' rest))
    return (← openSeries root path, rest)
  | _ => do
    let (path, rest) ← key? cs
    let rest ← finishLine? (← after? ']' rest)
    return (← openTable root path, rest)

/-- Reads a line with a key and its value, which may end on a later line. -/
def entry? (d : Draft) (cs : List Char) : Option (Draft × List Char) := do
  let (key, rest) ← key? cs
  let rest := skipBlanks (← after? '=' rest)
  let (v, rest) ← value? (2 * rest.length + 2) (depthLimit - 1) rest
  return ({ d with entries := ← d.entries.addKey? key v }, ← finishLine? rest)

/-- Reads the lines that are left, at most `fuel` of them. -/
def lines? : Nat → Draft → List Char → Option Draft
  | 0, _, _ => none
  | fuel + 1, d, cs =>
    match skipBlanks cs with
    | [] => some d
    | '[' :: rest => do
      let (d, rest) ← d.header? rest
      lines? fuel d rest
    | '#' :: rest => do lines? fuel d (← finishLine? ('#' :: rest))
    | '\n' :: rest => lines? fuel d rest
    | '\r' :: rest => do lines? fuel d (← lineEnd? ('\r' :: rest))
    | rest => do
      let (d, rest) ← d.entry? rest
      lines? fuel d rest

end Draft

def read? (s : String) : Option (List (String × Value)) := do
  let cs := match s.toList with
    | '\ufeff' :: cs => cs
    | cs => cs
  return values (← (← Draft.empty.lines? (cs.length + 1) cs).close)

end ChangeFeed.Toml
