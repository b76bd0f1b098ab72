import ChangeFeed.Decimal.Shortest

/-!
Values of settings before it is known what is expected of them, and what they mean where a text, a
number or a choice is expected.
-/
namespace ChangeFeed.Config

inductive Value
  | nothing
  | bool (b : Bool)
  | integer (n : Int)
  | real (x : Float)
  | text (s : String)
  | list (items : List Value)
  | table (entries : List (String × Value))

/-- The letters of a name that are capitals become small. The Kelvin sign counts as a capital K; no
other letter outside ASCII has a small form inside it. -/
def foldLetter (c : Char) : Char := if c = '\u212a' then 'k' else c.toLower

/-- Names and words that differ only in their capitals are the same. -/
def fold (s : String) : String := s.map foldLetter

namespace Value

def isYes (word : String) : Bool := word == "true" || word == "on" || word == "yes"

def isNo (word : String) : Bool := word == "false" || word == "off" || word == "no"

/-- The choice that a value makes: numbers other than zero and certain words are a yes. -/
def bool? : Value → Option Bool
  | .bool b => some b
  | .integer n => some (n != 0)
  | .real x => some (x != 0)
  | .text s =>
    let word := fold s
    if word == "1" || isYes word then some true
    else if word == "0" || isNo word then some false
    else none
  | _ => none

/-- The natural number of 64 bits that a value stands for. A number with a fraction is rounded, a
half away from zero, and one outside the range becomes its end. -/
def natural? : Value → Option Nat
  | .integer n => if 0 ≤ n ∧ n < UInt64.size then some n.toNat else none
  | .bool b => some b.toNat
  | .real x => some x.round.toUInt64.toNat
  | .text s =>
    let word := fold s
    if isYes word then some 1
    else if isNo word then some 0
    else Text.Numeral.unsigned? 10 UInt64.size s.toList
  | _ => none

def text? : Value → Option String
  | .text s => some s
  | .bool b => some (if b then "true" else "false")
  | .integer n => some (Text.Numeral.integer n)
  | .real x => some (Decimal.floatText x)
  | _ => none

/-- The entries of a table; what is no table has none. -/
def entries : Value → List (String × Value)
  | .table es => es
  | _ => []

/-- The items of a list; what is no list has none. -/
def items : Value → List Value
  | .list vs => vs
  | _ => []

end Value

end ChangeFeed.Config
