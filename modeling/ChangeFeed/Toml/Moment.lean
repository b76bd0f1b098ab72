import ChangeFeed.Text.Numeral
import ChangeFeed.Time.Calendar

/-!
The dates and times of TOML: a date, a time, or both with a `T` or a blank between them and an offset
after them. They are written in one way.
-/
namespace ChangeFeed.Toml

open ChangeFeed.Text

def field? (count : Nat) (cs : List Char) : Option (Nat × List Char) := do
  let ds := cs.take count
  guard (ds.length = count)
  return (← Numeral.read? 10 ds, cs.drop count)

def after? (mark : Char) : List Char → Option (List Char)
  | c :: cs => if c = mark then some cs else none
  | [] => none

def date? (cs : List Char) : Option (String × List Char) := do
  let (year, rest) ← field? 4 cs
  let (month, rest) ← field? 2 (← after? '-' rest)
  let (day, rest) ← field? 2 (← after? '-' rest)
  guard (⟨year, month, day⟩ : Time.Date).Exists
  return (String.ofList (cs.take 10), rest)

/-- The digits of a fraction of a second, of which nine count. -/
def fraction (ds : List Char) : String :=
  let ds := ((ds.take 9).reverse.dropWhile (· = '0')).reverse
  if ds.isEmpty then "" else String.ofList ('.' :: ds)

def time? (cs : List Char) : Option (String × List Char) := do
  let (hour, rest) ← field? 2 cs
  let (minute, rest) ← field? 2 (← after? ':' rest)
  let (second, rest) ← field? 2 (← after? ':' rest)
  guard (hour < 24 ∧ minute < 60 ∧ second ≤ 60)
  let text := String.ofList (cs.take 8)
  match rest with
  | '.' :: rest =>
    let ds := rest.takeWhile (·.isDigit)
    guard !ds.isEmpty
    return (text ++ fraction ds, rest.dropWhile (·.isDigit))
  | _ => return (text, rest)

/-- An offset that a text ends with, or none. -/
def offset? : List Char → Option String
  | [] => some ""
  | ['Z'] | ['z'] => some "Z"
  | sign :: cs => do
    guard (sign = '+' ∨ sign = '-')
    let (hours, rest) ← field? 2 cs
    let (minutes, rest) ← field? 2 (← after? ':' rest)
    guard (hours < 24 ∧ minutes < 60 ∧ rest.isEmpty)
    let sign := if hours = 0 ∧ minutes = 0 then '+' else sign
    return String.ofList (sign :: cs)

/-- What the whole text of a date, a time or both means. -/
def moment? (cs : List Char) : Option String :=
  match date? cs with
  | some (date, []) => some date
  | some (date, mark :: rest) => do
    guard (mark = 'T' ∨ mark = 't' ∨ mark = ' ')
    let (time, rest) ← time? rest
    return date ++ "T" ++ time ++ (← offset? rest)
  | none => do
    let (time, rest) ← time? cs
    guard rest.isEmpty
    return time

end ChangeFeed.Toml
