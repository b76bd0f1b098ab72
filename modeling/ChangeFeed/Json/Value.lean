import ChangeFeed.Text.Numeral

/-!
JSON values and their text. Objects keep the order of their members.
-/
namespace ChangeFeed

open Text

/-- A number as it is written: `mantissa · 10^exponent`. It is `integral` when it has neither a point
nor an exponent and is not a negative zero. -/
structure JsonNumber where
  mantissa : Int
  exponent : Int
  integral : Bool
deriving DecidableEq, Repr

/-- A string that names half of a surrogate pair alone is no text; it is `none` here. -/
inductive Json
  | null
  | bool (b : Bool)
  | number (n : JsonNumber)
  | string (s : Option String)
  | array (items : List Json)
  | object (members : List (Option String × Json))
deriving Repr

namespace Json

def text (s : String) : Json := .string (some s)

def natural (n : Nat) : Json := .number ⟨n, 0, true⟩

/-- Marks and control characters are escaped, the control characters that have no letter by four
hexadecimal digits. -/
def escape (c : Char) : List Char :=
  if c == '"' then ['\\', '"']
  else if c == '\\' then ['\\', '\\']
  else if c == '\n' then ['\\', 'n']
  else if c == '\r' then ['\\', 'r']
  else if c == '\t' then ['\\', 't']
  else if c == '\x08' then ['\\', 'b']
  else if c == '\x0c' then ['\\', 'f']
  else if c.toNat < 32 then
    ['\\', 'u', '0', '0', Numeral.digitChar (c.toNat / 16), Numeral.digitChar (c.toNat % 16)]
  else [c]

def quote (s : String) : List Char :=
  '"' :: s.toList.flatMap escape ++ ['"']

def numberText (n : JsonNumber) : String :=
  if n.exponent = 0 then Numeral.integer n.mantissa
  else Numeral.integer n.mantissa ++ "e" ++ Numeral.integer n.exponent

mutual

def compact : Json → List Char
  | .null => "null".toList
  | .bool b => (if b then "true" else "false").toList
  | .number n => (numberText n).toList
  | .string s => quote (s.getD "")
  | .array items => '[' :: compactItems items ++ [']']
  | .object members => '\x7b' :: compactMembers members ++ ['\x7d']

def compactItems : List Json → List Char
  | [] => []
  | [v] => compact v
  | v :: vs => compact v ++ ',' :: compactItems vs

def compactMembers : List (Option String × Json) → List Char
  | [] => []
  | [m] => quote (m.1.getD "") ++ ':' :: compact m.2
  | m :: ms => quote (m.1.getD "") ++ ':' :: compact m.2 ++ ',' :: compactMembers ms

end

def indent (depth : Nat) : List Char := '\n' :: List.replicate (2 * depth) ' '

mutual

/-- With every member on a line of its own, two blanks deeper than what holds it. -/
def pretty (depth : Nat) : Json → List Char
  | .array [] => ['[', ']']
  | .array items => '[' :: prettyItems (depth + 1) items ++ indent depth ++ [']']
  | .object [] => ['\x7b', '\x7d']
  | .object members => '\x7b' :: prettyMembers (depth + 1) members ++ indent depth ++ ['\x7d']
  | .null => "null".toList
  | .bool b => (if b then "true" else "false").toList
  | .number n => (numberText n).toList
  | .string s => quote (s.getD "")

def prettyItems (depth : Nat) : List Json → List Char
  | [] => []
  | [v] => indent depth ++ pretty depth v
  | v :: vs => indent depth ++ pretty depth v ++ ',' :: prettyItems depth vs

def prettyMembers (depth : Nat) : List (Option String × Json) → List Char
  | [] => []
  | [m] => indent depth ++ quote (m.1.getD "") ++ ':' :: ' ' :: pretty depth m.2
  | m :: ms =>
    indent depth ++ quote (m.1.getD "") ++ ':' :: ' ' :: pretty depth m.2 ++
      ',' :: prettyMembers depth ms

end

def compactText (v : Json) : String := String.ofList v.compact

def prettyText (v : Json) : String := String.ofList (v.pretty 0)

end Json

end ChangeFeed
