import ChangeFeed.Text.Numeral
import ChangeFeed.Time.Instant

/-!
Instants as text: date, `T`, time of day, and an offset of zero.
-/
namespace ChangeFeed.Time

open Text

/-- Four digits; years that do not fit have a sign before at least four. -/
def yearText (year : Int) : String :=
  if 0 ≤ year ∧ year ≤ 9999 then Numeral.padded 4 year.toNat
  else (if year < 0 then "-" else "+") ++ Numeral.padded 4 year.natAbs

/-- The fewest of 0, 3, 6 and 9 digits that are exact, after a point. -/
def fractionText (nanos : Nat) : String :=
  if nanos = 0 then ""
  else if nanos % 1000000 = 0 then "." ++ Numeral.padded 3 (nanos / 1000000)
  else if nanos % 1000 = 0 then "." ++ Numeral.padded 6 (nanos / 1000)
  else "." ++ Numeral.padded 9 nanos

def Date.text (d : Date) : String :=
  yearText d.year ++ "-" ++ Numeral.padded 2 d.month ++ "-" ++ Numeral.padded 2 d.day

/-- Hour, minute and second; a leap second is second 60. -/
def clockText (secondOfDay nanos : Nat) : String :=
  Numeral.padded 2 (secondOfDay / 3600) ++ ":" ++ Numeral.padded 2 (secondOfDay / 60 % 60) ++ ":" ++
    Numeral.padded 2 (secondOfDay % 60 + nanos / 1000000000) ++ fractionText (nanos % 1000000000)

namespace Instant

def localText (t : Instant) : String :=
  t.date.text ++ "T" ++ clockText t.secondOfDay t.nanos

/-- With the offset as the letter Z. -/
def zuluText (t : Instant) : String := t.localText ++ "Z"

/-- With the offset in digits. -/
def offsetText (t : Instant) : String := t.localText ++ "+00:00"

end Instant

end ChangeFeed.Time
