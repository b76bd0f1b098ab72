import ChangeFeed.Text.Numeral

/-!
The shortest decimal numeral that reads back as a binary number: of all numerals with the fewest
digits between the halfway points to the two neighbours of a number, the nearest to it.
-/
namespace ChangeFeed

structure Decimal where
  digits : Nat
  exponent : Int
deriving DecidableEq, Repr

namespace Decimal

/-- What reads back as the number `4 · mantissa`: all from `4 · mantissa - below` to
`4 · mantissa + 2`, counted in units of `2^exponent`; the ends belong to it if the mantissa is even. -/
structure Span where
  mantissa : Nat
  below : Nat
  exponent : Int

namespace Span

/-- The point `n` of the decimal grid `10^k`, in units so small that all points are whole. -/
def gridPoint (s : Span) (k : Int) (n : Nat) : Nat := (n * Nat.pow 10 k.toNat) <<< (-s.exponent).toNat

/-- The point `n` of the binary grid in the same units. -/
def binaryPoint (s : Span) (k : Int) (n : Nat) : Nat := (n <<< s.exponent.toNat) * Nat.pow 10 (-k).toNat

def contains (s : Span) (k : Int) (n : Nat) : Bool :=
  let low := s.binaryPoint k (4 * s.mantissa - s.below)
  let high := s.binaryPoint k (4 * s.mantissa + 2)
  let point := s.gridPoint k n
  if s.mantissa % 2 = 0 then low ≤ point && point ≤ high else low < point && point < high

/-- The nearer of the two points of a decimal grid beside the number, if it reads back. -/
def nearest? (s : Span) (k : Int) : Option Nat :=
  let value := s.binaryPoint k (4 * s.mantissa)
  let unit := s.gridPoint k 1
  let n := value / unit
  match s.contains k n, s.contains k (n + 1) with
  | true, true => some (if 2 * (value % unit) ≤ unit then n else n + 1)
  | true, false => some n
  | false, true => some (n + 1)
  | false, false => none

/-- The power of ten of the first digit. -/
def leading (s : Span) : Int :=
  let p := s.binaryPoint 0 (4 * s.mantissa)
  let q := s.gridPoint 0 1
  if q ≤ p then (Text.Numeral.write 10 (p / q)).length - 1
  else -((Text.Numeral.write 10 ((q + p - 1) / p - 1)).length : Int)

/-- Tries grids that are finer and finer, at most `fuel` of them. A point that ends in zero is on the
coarser grid before its own. -/
def search (s : Span) : Nat → Int → Decimal
  | 0, k => ⟨s.binaryPoint k (4 * s.mantissa) / s.gridPoint k 1, k⟩
  | fuel + 1, k =>
    match s.nearest? k with
    | some n => if n % 10 = 0 then ⟨n / 10, k + 1⟩ else ⟨n, k⟩
    | none => search s fuel (k - 1)

/-- Seventeen digits always are enough. -/
def shortest (s : Span) : Decimal := s.search 17 s.leading

end Span

def positional (d : Decimal) : List Char :=
  let ds := Text.Numeral.write 10 d.digits
  if 0 ≤ d.exponent then
    if d.digits = 0 then ['0'] else ds ++ List.replicate d.exponent.toNat '0'
  else
    let places := (-d.exponent).toNat
    let ds := List.replicate (places + 1 - ds.length) '0' ++ ds
    ds.take (ds.length - places) ++ '.' :: ds.drop (ds.length - places)

/-- The span of a finite positive number of double precision, from its bits. -/
def spanOfBits (bits : Nat) : Span :=
  let fraction := bits % (1 <<< 52)
  let power : Nat := bits >>> 52
  if power = 0 then ⟨fraction, 2, -1076⟩
  else ⟨(1 <<< 52) + fraction, if fraction = 0 ∧ 1 < power then 1 else 2, (power : Int) - 1077⟩

/-- The shortest positional text of a number of double precision. -/
def floatText (x : Float) : String :=
  if x.isNaN then "NaN"
  else
    let bits := x.toBits.toNat
    let size := bits % (UInt64.size / 2)
    let sign := if UInt64.size / 2 ≤ bits then "-" else ""
    if size = 0 then sign ++ "0"
    else if 0x7FF <<< 52 ≤ size then sign ++ "inf"
    else sign ++ String.ofList (spanOfBits size).shortest.positional

end Decimal

end ChangeFeed
