import ChangeFeed.Bytes
import ChangeFeed.Text.Numeral

/-!
Percent encoding: a percent sign and two hexadecimal digits stand for a byte.
-/
namespace ChangeFeed.Text.Percent

def digit? (b : UInt8) : Option Nat := Numeral.digitOf? 16 (Char.ofNat b.toNat)

def pair? (a b : UInt8) : Option UInt8 := do
  return UInt8.ofNat ((← digit? a) * 16 + (← digit? b))

/-- Percent signs that two digits do not follow stand for themselves. -/
def decode : Bytes → Bytes
  | 0x25 :: a :: b :: rest =>
    match pair? a b with
    | some byte => byte :: decode rest
    | none => 0x25 :: decode (a :: b :: rest)
  | b :: rest => b :: decode rest
  | [] => []

end ChangeFeed.Text.Percent
