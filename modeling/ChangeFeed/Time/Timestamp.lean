import ChangeFeed.Text.Blank
import ChangeFeed.Text.Numeral
import ChangeFeed.Time.Instant

/-!
Timestamps written by hand or by other programs: the parts of RFC 3339 in their order, with fewer
digits and more blanks than it allows. Every reader gives the value and the text after it.
-/
namespace ChangeFeed.Time.Timestamp

open Text

/-- The digits at the start, at most `limit` where there is a limit. -/
def digitsUpTo : Option Nat → List Char → List Char × List Char
  | some 0, cs => ([], cs)
  | _, [] => ([], [])
  | limit, c :: cs =>
    if c.isDigit then
      let (ds, rest) := digitsUpTo (limit.map (· - 1)) cs
      (c :: ds, rest)
    else ([], c :: cs)

def number? (limit : Option Nat) (cs : List Char) : Option (Nat × List Char) :=
  let (ds, rest) := digitsUpTo limit cs
  (Numeral.read? 10 ds).map (·, rest)

/-- A number of at most two digits after blanks. -/
def field? (cs : List Char) : Option (Nat × List Char) :=
  number? (some 2) (trimStart cs)

/-- A year after blanks: up to four digits, or a sign and any number of them. -/
def year? (cs : List Char) : Option (Int × List Char) :=
  match trimStart cs with
  | '-' :: rest => (number? none rest).map fun p => (-(p.1 : Int), p.2)
  | '+' :: rest => (number? none rest).map fun p => ((p.1 : Int), p.2)
  | rest => (number? (some 4) rest).map fun p => ((p.1 : Int), p.2)

/-- The character `c`, after blanks. -/
def mark? (c : Char) (cs : List Char) : Option (List Char) :=
  match trimStart cs with
  | d :: rest => if d = c then some rest else none
  | [] => none

def date? (cs : List Char) : Option (Date × List Char) := do
  let (year, cs) ← year? cs
  let cs ← mark? '-' cs
  let (month, cs) ← field? cs
  let cs ← mark? '-' cs
  let (day, cs) ← field? cs
  return (⟨year, month, day⟩, cs)

def separator? : List Char → Option (List Char)
  | [] => none
  | c :: cs => if c = 'T' ∨ c = 't' ∨ isBlank c then some cs else none

/-- Nanoseconds after a point: at least one digit, and those after the ninth have no effect. -/
def fraction? : List Char → Option (Nat × List Char)
  | '.' :: cs => do
    let (ds, rest) := digitsUpTo none cs
    let n ← Numeral.read? 10 (ds.take 9)
    return (n * Nat.pow 10 (9 - (ds.take 9).length), rest)
  | cs => some (0, cs)

structure Clock where
  hour : Nat
  minute : Nat
  second : Nat
  nanos : Nat

def clock? (cs : List Char) : Option (Clock × List Char) := do
  let (hour, cs) ← field? cs
  let cs ← mark? ':' cs
  let (minute, cs) ← field? cs
  let cs ← mark? ':' cs
  let (second, cs) ← field? cs
  let (nanos, cs) ← fraction? cs
  return (⟨hour, minute, second, nanos⟩, cs)

def pair? (bound : Nat) : List Char → Option (Nat × List Char)
  | a :: b :: cs => do
    let n ← Numeral.read? 10 [a, b]
    if n < bound then some (n, cs) else none
  | _ => none

def isSeparatorOfMinutes (c : Char) : Bool := c == ':' || isBlank c

/-- Hours and minutes in seconds. -/
def span? (cs : List Char) : Option (Int × List Char) := do
  let (hours, cs) ← pair? 100 cs
  let (minutes, cs) ← pair? 60 (cs.dropWhile isSeparatorOfMinutes)
  return ((hours * 3600 + minutes * 60 : Nat), cs)

/-- Seconds east of universal time: a letter Z, the letters UTC, or a signed span. The minus sign of
mathematics counts as a minus sign. -/
def offset? (cs : List Char) : Option (Int × List Char) :=
  match trimStart cs with
  | 'Z' :: rest | 'z' :: rest => some (0, rest)
  | '+' :: rest => span? rest
  | '-' :: rest | '\u2212' :: rest => (span? rest).map fun p => (-p.1, p.2)
  | a :: b :: c :: rest =>
    if [a, b, c].map Char.toLower = ['u', 't', 'c'] then some (0, rest) else none
  | _ => none

/-- The instant of a date and a time of day at an offset of less than a day. -/
def resolve? (date : Date) (clock : Clock) (offset : Int) : Option Instant := do
  guard (decide date.Exists && -262143 ≤ date.year && date.year ≤ 262142)
  guard (clock.hour < 24 && clock.minute < 60 && clock.second ≤ 60 && offset.natAbs < 86400)
  let second := min clock.second 59
  let nanos := if clock.second = 60 then 1000000000 + clock.nanos else clock.nanos
  let local_ := date.toDays * 86400 + (clock.hour * 3600 + clock.minute * 60 + second : Nat)
  Instant.ofParts? (local_ - offset) nanos

def read? (s : String) : Option Instant := do
  let (date, cs) ← date? s.toList
  let cs ← separator? cs
  let (clock, cs) ← clock? cs
  let (offset, cs) ← offset? cs
  guard (trimStart cs).isEmpty
  resolve? date clock offset

end ChangeFeed.Time.Timestamp
