import ChangeFeed.Text.Numeral
import ChangeFeed.Toml.Blank

/-!
The four kinds of TOML strings. Every reader starts after the opening marks and gives the characters
and the text after the closing ones; fuel bounds how long the string is.
-/
namespace ChangeFeed.Toml

open ChangeFeed.Text

/-- The character of a code point, if it is one of a character. -/
def scalar? (n : Nat) : Option Char := if n.isValidChar then some (Char.ofNat n) else none

def codePoint? (count : Nat) (cs : List Char) : Option (Char × List Char) := do
  let digits := cs.take count
  guard (digits.length = count)
  return (← scalar? (← Numeral.read? 16 digits), cs.drop count)

def escape? : List Char → Option (Char × List Char)
  | 'b' :: cs => some ('\x08', cs)
  | 't' :: cs => some ('\t', cs)
  | 'n' :: cs => some ('\n', cs)
  | 'f' :: cs => some ('\x0c', cs)
  | 'r' :: cs => some ('\r', cs)
  | '"' :: cs => some ('"', cs)
  | '\\' :: cs => some ('\\', cs)
  | 'u' :: cs => codePoint? 4 cs
  | 'U' :: cs => codePoint? 8 cs
  | _ => none

def basic? : Nat → List Char → Option (List Char × List Char)
  | 0, _ => none
  | _, [] => none
  | fuel + 1, c :: cs =>
    if c = '"' then some ([], cs)
    else if c = '\\' then do
      let (d, rest) ← escape? cs
      let (ds, rest) ← basic? fuel rest
      return (d :: ds, rest)
    else if isPlain c then (basic? fuel cs).map fun p => (c :: p.1, p.2)
    else none

def literal? : List Char → Option (List Char × List Char)
  | [] => none
  | c :: cs =>
    if c = '\'' then some ([], cs)
    else if isPlain c then (literal? cs).map fun p => (c :: p.1, p.2)
    else none

/-- The end of a string over many lines: three marks, and before them up to two that belong to it. -/
def closing? (mark : Char) (cs : List Char) : Option (List Char × List Char) :=
  let count := min 5 (cs.takeWhile (· = mark)).length
  if 3 ≤ count then some (List.replicate (count - 3) mark, cs.drop count) else none

/-- After a backslash at the end of a line: blanks and line ends do not count. -/
def continued? (cs : List Char) : Option (List Char) :=
  (lineEnd? (skipBlanks cs)).map skipSpace

def longBasic? : Nat → List Char → Option (List Char × List Char)
  | 0, _ => none
  | fuel + 1, cs =>
    match closing? '"' cs, cs with
    | some end', _ => some end'
    | none, [] => none
    | none, '\r' :: '\n' :: rest => (longBasic? fuel rest).map fun p => ('\n' :: p.1, p.2)
    | none, '\n' :: rest => (longBasic? fuel rest).map fun p => ('\n' :: p.1, p.2)
    | none, '\\' :: rest =>
      match continued? rest with
      | some rest => longBasic? fuel rest
      | none => do
        let (d, rest) ← escape? rest
        let (ds, rest) ← longBasic? fuel rest
        return (d :: ds, rest)
    | none, c :: rest =>
      if isPlain c then (longBasic? fuel rest).map fun p => (c :: p.1, p.2) else none

def longLiteral? : Nat → List Char → Option (List Char × List Char)
  | 0, _ => none
  | fuel + 1, cs =>
    match closing? '\'' cs, cs with
    | some end', _ => some end'
    | none, [] => none
    | none, '\r' :: '\n' :: rest => (longLiteral? fuel rest).map fun p => ('\n' :: p.1, p.2)
    | none, '\n' :: rest => (longLiteral? fuel rest).map fun p => ('\n' :: p.1, p.2)
    | none, c :: rest =>
      if isPlain c then (longLiteral? fuel rest).map fun p => (c :: p.1, p.2) else none

/-- Without the line end that follows the opening marks. -/
def skipFirstLineEnd (cs : List Char) : List Char := (lineEnd? cs).getD cs

def shortString? : List Char → Option (String × List Char)
  | '"' :: cs => (basic? (cs.length + 1) cs).map fun p => (String.ofList p.1, p.2)
  | '\'' :: cs => (literal? cs).map fun p => (String.ofList p.1, p.2)
  | _ => none

def string? : List Char → Option (String × List Char)
  | '"' :: '"' :: '"' :: cs =>
    (longBasic? (cs.length + 1) (skipFirstLineEnd cs)).map fun p => (String.ofList p.1, p.2)
  | '\'' :: '\'' :: '\'' :: cs =>
    (longLiteral? (cs.length + 1) (skipFirstLineEnd cs)).map fun p => (String.ofList p.1, p.2)
  | cs => shortString? cs

end ChangeFeed.Toml
