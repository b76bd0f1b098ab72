import ChangeFeed.Text.Utf8

/-!
The form of a password that both sides of a salted login compute with. Texts are taken in composed
form; what is no text, or holds a character that passwords must not have, is used as it is.
-/
namespace ChangeFeed.Session.Password

/-- Spaces other than the ASCII one, which it stands for. -/
def isOtherSpace (c : Char) : Bool :=
  let n := c.toNat
  n == 0xA0 || n == 0x1680 || (0x2000 ≤ n && n ≤ 0x200B) || n == 0x202F || n == 0x205F || n == 0x3000

/-- Characters without a meaning of their own, such as soft hyphens and joiners. -/
def isDropped (c : Char) : Bool :=
  let n := c.toNat
  n == 0xAD || n == 0x34F || n == 0x1806 || (0x180B ≤ n && n ≤ 0x180D) ||
    (0x200B ≤ n && n ≤ 0x200D) || n == 0x2060 || (0xFE00 ≤ n && n ≤ 0xFE0F) || n == 0xFEFF

/-- Control characters, private and unassigned code points, and characters that change how others are
shown. -/
def isProhibited (c : Char) : Bool :=
  let n := c.toNat
  n < 0x20 || (0x7F ≤ n && n ≤ 0x9F) || n == 0x340 || n == 0x341 || n == 0x6DD || n == 0x70F ||
    n == 0x180E || n == 0x200E || n == 0x200F || n == 0x2028 || n == 0x2029 ||
    (0x202A ≤ n && n ≤ 0x202E) || (0x2060 ≤ n && n ≤ 0x2063) || (0x206A ≤ n && n ≤ 0x206F) ||
    (0x2FF0 ≤ n && n ≤ 0x2FFB) || (0xE000 ≤ n && n ≤ 0xF8FF) || (0xFDD0 ≤ n && n ≤ 0xFDEF) ||
    (0xFFF9 ≤ n && n ≤ 0xFFFD) || n % 0x10000 ≥ 0xFFFE || (0x1D173 ≤ n && n ≤ 0x1D17A) ||
    n == 0xE0001 || (0xE0020 ≤ n && n ≤ 0xE007F) || 0xF0000 ≤ n

def prepareText (s : String) : Option String :=
  let cs := (s.toList.map fun c => if isOtherSpace c then ' ' else c).filter (!isDropped ·)
  if cs.any isProhibited then none else some (String.ofList cs)

def prepare (password : Bytes) : Bytes :=
  match Text.Utf8.decode password with
  | .ok s => ((prepareText s).map Bytes.ofString).getD password
  | .error _ => password

end ChangeFeed.Session.Password
