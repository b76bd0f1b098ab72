/-!
Numerals: digits in a base up to thirty-six, read and written. The readers take what the number
formats of this library allow: one sign where a sign is allowed, at least one digit, any number of
leading zeros, and a bound on the value.
-/
namespace ChangeFeed.Text.Numeral

/-- The value of a digit; letters of either case follow nine. -/
def digit? (c : Char) : Option Nat :=
  if '0' ≤ c ∧ c ≤ '9' then some (c.toNat - 48)
  else if 'a' ≤ c ∧ c ≤ 'z' then some (c.toNat - 87)
  else if 'A' ≤ c ∧ c ≤ 'Z' then some (c.toNat - 55)
  else none

def digitOf? (base : Nat) (c : Char) : Option Nat :=
  (digit? c).filter (· < base)

/-- The value of digits that follow digits of value `acc`. -/
def readFrom (base : Nat) : Nat → List Char → Option Nat
  | acc, [] => some acc
  | acc, c :: cs =>
    match digitOf? base c with
    | some d => readFrom base (acc * base + d) cs
    | none => none

/-- The value of a numeral of at least one digit and no sign. -/
def read? (base : Nat) (cs : List Char) : Option Nat :=
  if cs.isEmpty then none else readFrom base 0 cs

/-- A numeral below `bound`, which may begin with one plus sign. -/
def unsigned? (base bound : Nat) (cs : List Char) : Option Nat :=
  let digits := match cs with
    | '+' :: ds => ds
    | ds => ds
  (read? base digits).filter (· < bound)

/-- A numeral from `-bound` up to below `bound`, which may begin with one sign. -/
def signed? (base bound : Nat) (cs : List Char) : Option Int :=
  match cs with
  | '-' :: ds => ((read? base ds).filter (· ≤ bound)).map fun n => -(n : Int)
  | _ => (unsigned? base bound cs).map Int.ofNat

def digitChar (d : Nat) : Char :=
  if d < 10 then Char.ofNat (48 + d) else Char.ofNat (87 + d)

def write (base n : Nat) : List Char :=
  if _ : base < 2 ∨ n < base then [digitChar n]
  else write base (n / base) ++ [digitChar (n % base)]
termination_by n
decreasing_by
  have : 2 ≤ base ∧ base ≤ n := by omega
  exact Nat.div_lt_self (by omega) (by omega)

def decimal (n : Nat) : String :=
  String.ofList (write 10 n)

def integer : Int → String
  | .ofNat n => decimal n
  | .negSucc n => "-" ++ decimal (n + 1)

def lowerHex (n : Nat) : String :=
  String.ofList (write 16 n)

def upperHex (n : Nat) : String :=
  String.ofList ((write 16 n).map Char.toUpper)

/-- The decimal numeral of `n`, filled up with zeros to `width`. -/
def padded (width n : Nat) : String :=
  let ds := write 10 n
  String.ofList (List.replicate (width - ds.length) '0' ++ ds)

end ChangeFeed.Text.Numeral
