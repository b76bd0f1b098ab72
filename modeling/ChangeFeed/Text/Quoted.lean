import ChangeFeed.Text.Numeral
import ChangeFeed.Text.Printable

/-!
Texts in quotation marks, as messages show what they were given. Marks and line ends are written
with a backslash, other characters that cannot be shown as their code point in braces.
-/
namespace ChangeFeed.Text.Quoted

/-- A character between marks `mark`; the mark itself is escaped. -/
def escape (mark c : Char) : List Char :=
  if c == '\x00' then ['\\', '0']
  else if c == '\t' then ['\\', 't']
  else if c == '\r' then ['\\', 'r']
  else if c == '\n' then ['\\', 'n']
  else if c == '\\' || c == mark then ['\\', c]
  else if isPrintable c then [c]
  else ['\\', 'u', '\x7b'] ++ Numeral.write 16 c.toNat ++ ['\x7d']

def string (s : String) : String :=
  String.ofList (['"'] ++ s.toList.flatMap (escape '"') ++ ['"'])

/-- The name of a file, in which the marks of characters are escaped too. -/
def path (s : String) : String :=
  let escapeBoth := fun c => if c == '\'' then ['\\', '\''] else escape '"' c
  String.ofList (['"'] ++ s.toList.flatMap escapeBoth ++ ['"'])

def char (c : Char) : String :=
  String.ofList (['\''] ++ escape '\'' c ++ ['\''])

end ChangeFeed.Text.Quoted
