import ChangeFeed.Text.Numeral
import ChangeFeed.Toml.Value

/-!
The numbers of TOML. A reader takes the whole text of a number.
-/
namespace ChangeFeed.Toml

open ChangeFeed.Text

/-- Digits between which single underscores may stand, without these. -/
def digits? (base : Nat) : List Char → Option (List Char)
  | [] => none
  | [c] => if (Numeral.digitOf? base c).isSome then some [c] else none
  | c :: '_' :: cs => if (Numeral.digitOf? base c).isSome then (digits? base cs).map (c :: ·) else none
  | c :: cs => if (Numeral.digitOf? base c).isSome then (digits? base cs).map (c :: ·) else none

/-- Decimal digits that do not begin with a zero, or zero alone. -/
def whole? (cs : List Char) : Option (List Char) :=
  match digits? 10 cs with
  | some ['0'] => some ['0']
  | some ('0' :: _) => none
  | ds => ds

/-- Whether a sign is a minus, and the text after it. -/
def signed : List Char → Bool × List Char
  | '-' :: cs => (true, cs)
  | '+' :: cs => (false, cs)
  | cs => (false, cs)

def valueOf (base : Nat) (ds : List Char) : Nat := (Numeral.read? base ds).getD 0

def integer? (cs : List Char) : Option Int :=
  let natural := fun base ds => ((digits? base ds).map (valueOf base)).filter (· < UInt64.size / 2)
  match cs with
  | '0' :: 'x' :: ds => (natural 16 ds).map Int.ofNat
  | '0' :: 'o' :: ds => (natural 8 ds).map Int.ofNat
  | '0' :: 'b' :: ds => (natural 2 ds).map Int.ofNat
  | _ => do
    let (negative, ds) := signed cs
    let n := valueOf 10 (← whole? ds)
    if negative then
      if n ≤ UInt64.size / 2 then some (-n) else none
    else if n < UInt64.size / 2 then some n
    else none

/-- The double precision number nearest to `m · 10^e`. -/
def nearest (m : Nat) (e : Int) : Float :=
  let size := (Numeral.write 10 m).length + e
  if m = 0 ∨ size < -400 then 0.0
  else if 400 < size then 1.0 / 0.0
  else Float.ofScientific m (e < 0) e.natAbs

def power? (cs : List Char) : Option Int := do
  let (negative, ds) := signed cs
  let n := valueOf 10 (← digits? 10 ds)
  return if negative then -n else n

def isPowerMark (c : Char) : Bool := c == 'e' || c == 'E'

/-- A number with a point or an exponent, or one of the words for what is no number. A positive one
that is too large is refused. -/
def real? (cs : List Char) : Option Float := do
  let (negative, cs) := signed cs
  let negate := fun (x : Float) => if negative then -x else x
  if cs = ['i', 'n', 'f'] then return negate (1.0 / 0.0)
  if cs = ['n', 'a', 'n'] then return 0.0 / 0.0
  let base := cs.takeWhile (!isPowerMark ·)
  let e ← match cs.dropWhile (!isPowerMark ·) with
    | _ :: ds => power? ds
    | [] => some 0
  let ws ← whole? (base.takeWhile (· ≠ '.'))
  let fs ← match base.dropWhile (· ≠ '.') with
    | _ :: ds => digits? 10 ds
    | [] => some []
  guard (base.contains '.' || cs.any isPowerMark)
  let x := nearest (valueOf 10 (ws ++ fs)) (e - fs.length)
  guard (negative || x.isFinite)
  return negate x

end ChangeFeed.Toml
