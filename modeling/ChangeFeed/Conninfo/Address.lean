import ChangeFeed.Text.Cut
import ChangeFeed.Text.Numeral

/-!
Numeric internet addresses of both families, as far as telling them from other texts.
-/
namespace ChangeFeed.Conninfo.Address

open Text

/-- A number of at most three digits without leading zeros, below 256. -/
def isOctet (cs : List Char) : Bool :=
  cs.length ≤ 3 && (cs.length ≤ 1 || cs.head? != some '0') &&
    ((Numeral.read? 10 cs).filter (· < 256)).isSome

def isFour (cs : List Char) : Bool :=
  let octets := parts '.' cs
  octets.length = 4 && octets.all isOctet

def isGroup (cs : List Char) : Bool := cs.length ≤ 4 && (Numeral.read? 16 cs).isSome

/-- How many groups a row of groups between colons takes; its end may be an address of four octets,
which takes two. -/
def groupCount? : List (List Char) → Option Nat
  | [] => some 0
  | [g] => if isGroup g then some 1 else if isFour g then some 2 else none
  | g :: gs => if isGroup g then (groupCount? gs).map (· + 1) else none

/-- The texts before and after the first pair of colons. -/
def cutPair? : List Char → Option (List Char × List Char)
  | ':' :: ':' :: cs => some ([], cs)
  | c :: cs => (cutPair? cs).map fun p => (c :: p.1, p.2)
  | [] => none

/-- The groups of a text, none of an empty one. -/
def groups (cs : List Char) : List (List Char) := if cs = [] then [] else parts ':' cs

/-- Eight groups, or fewer around a pair of colons that stands for the missing ones; octets may only
stand at the end. -/
def isSix (cs : List Char) : Bool :=
  match cutPair? cs with
  | none => groupCount? (groups cs) = some 8
  | some (before, after) =>
    match groupCount? (groups before), groupCount? (groups after) with
    | some m, some n => m + n ≤ 7 && (groups before).all isGroup
    | _, _ => false

def isAddress (s : String) : Bool := isFour s.toList || isSix s.toList

end ChangeFeed.Conninfo.Address
