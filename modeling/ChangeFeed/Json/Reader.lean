import ChangeFeed.Json.Value

/-!
Reads JSON texts. Every reader gives what it read and the text after it; the readers of nested
values take as fuel how deep and how long the text may still be, which its length bounds.
-/
namespace ChangeFeed.Json

open Text

def isBlank (c : Char) : Bool := c == ' ' || c == '\n' || c == '\t' || c == '\r'

def skip (cs : List Char) : List Char := cs.dropWhile isBlank

def unit? : List Char → Option (Nat × List Char)
  | a :: b :: c :: d :: rest => (Numeral.read? 16 [a, b, c, d]).map (·, rest)
  | _ => none

def simpleEscape? (c : Char) : Option Char :=
  if c == '"' || c == '\\' || c == '/' then some c
  else if c == 'n' then some '\n'
  else if c == 'r' then some '\r'
  else if c == 't' then some '\t'
  else if c == 'b' then some '\x08'
  else if c == 'f' then some '\x0c'
  else none

def isHigh (n : Nat) : Bool := 0xD800 ≤ n && n < 0xDC00

def isLow (n : Nat) : Bool := 0xDC00 ≤ n && n < 0xE000

/-- The parts of a string: characters, and code units that may be halves of a pair. -/
inductive Piece
  | char (c : Char)
  | unit (n : Nat)

def pieces? : Nat → List Char → Option (List Piece × List Char)
  | 0, _ => none
  | _ + 1, [] => none
  | fuel + 1, c :: cs =>
    if c = '"' then some ([], cs)
    else if c = '\\' then
      match cs with
      | 'u' :: rest => do
        let (n, rest) ← unit? rest
        let (ps, rest) ← pieces? fuel rest
        return (.unit n :: ps, rest)
      | e :: rest => do
        let d ← simpleEscape? e
        let (ps, rest) ← pieces? fuel rest
        return (.char d :: ps, rest)
      | [] => none
    else if c.toNat < 32 then none
    else do
      let (ps, rest) ← pieces? fuel cs
      return (.char c :: ps, rest)

/-- The text of the pieces, when every half of a pair stands beside its other half. -/
def join? : List Piece → Option (List Char)
  | [] => some []
  | .char c :: ps => (join? ps).map (c :: ·)
  | .unit n :: .unit m :: ps =>
    if isHigh n then
      if isLow m then
        (join? ps).map (Char.ofNat (0x10000 + (n - 0xD800) * 0x400 + (m - 0xDC00)) :: ·)
      else none
    else if isLow n then none
    else (join? (.unit m :: ps)).map (Char.ofNat n :: ·)
  | .unit n :: ps => if isHigh n || isLow n then none else (join? ps).map (Char.ofNat n :: ·)

def string? (cs : List Char) : Option (Option String × List Char) :=
  (pieces? (cs.length + 1) cs).map fun p => ((join? p.1).map String.ofList, p.2)

def digits (cs : List Char) : List Char × List Char := (cs.takeWhile (·.isDigit), cs.dropWhile (·.isDigit))

/-- The digits before the point: zero alone, or digits that do not begin with zero. -/
def whole? (cs : List Char) : Option (List Char × List Char) :=
  match digits cs with
  | ([], _) => none
  | (['0'], rest) => some (['0'], rest)
  | ('0' :: _, _) => none
  | (ds, rest) => some (ds, rest)

def fraction? : List Char → Option (List Char × List Char)
  | '.' :: cs =>
    match digits cs with
    | ([], _) => none
    | (ds, rest) => some (ds, rest)
  | cs => some ([], cs)

/-- The exponent, if there is one. -/
def exponent? : List Char → Option (Option Int × List Char)
  | c :: cs =>
    if c = 'e' ∨ c = 'E' then
      let (negative, cs) := match cs with
        | '-' :: r => (true, r)
        | '+' :: r => (false, r)
        | r => (false, r)
      match digits cs with
      | ([], _) => none
      | (ds, rest) =>
        let n : Int := ((Numeral.read? 10 ds).getD 0 : Nat)
        some (some (if negative then -n else n), rest)
    else some (none, c :: cs)
  | [] => some (none, [])

def number? (negative : Bool) (cs : List Char) : Option (JsonNumber × List Char) := do
  let (ws, cs) ← whole? cs
  let (fs, cs) ← fraction? cs
  let (e, cs) ← exponent? cs
  let n := (Numeral.read? 10 (ws ++ fs)).getD 0
  let integral := fs.isEmpty && e.isNone && !(negative && n == 0)
  return (⟨if negative then -n else n, e.getD 0 - fs.length, integral⟩, cs)

mutual

def value? : Nat → List Char → Option (Json × List Char)
  | 0, _ => none
  | fuel + 1, cs =>
    match skip cs with
    | '"' :: rest => (string? rest).map fun p => (.string p.1, p.2)
    | '[' :: rest =>
      match skip rest with
      | ']' :: rest => some (.array [], rest)
      | _ => (items? fuel rest).map fun p => (.array p.1, p.2)
    | '\x7b' :: rest =>
      match skip rest with
      | '\x7d' :: rest => some (.object [], rest)
      | _ => (members? fuel rest).map fun p => (.object p.1, p.2)
    | 'n' :: 'u' :: 'l' :: 'l' :: rest => some (.null, rest)
    | 't' :: 'r' :: 'u' :: 'e' :: rest => some (.bool true, rest)
    | 'f' :: 'a' :: 'l' :: 's' :: 'e' :: rest => some (.bool false, rest)
    | '-' :: rest => (number? true rest).map fun p => (.number p.1, p.2)
    | rest => (number? false rest).map fun p => (.number p.1, p.2)

/-- The items of an array up to its closing bracket. -/
def items? : Nat → List Char → Option (List Json × List Char)
  | 0, _ => none
  | fuel + 1, cs => do
    let (v, cs) ← value? fuel cs
    match skip cs with
    | ',' :: rest => do
      let (vs, rest) ← items? fuel rest
      return (v :: vs, rest)
    | ']' :: rest => return ([v], rest)
    | _ => none

/-- The members of an object up to its closing brace. -/
def members? : Nat → List Char → Option (List (Option String × Json) × List Char)
  | 0, _ => none
  | fuel + 1, cs => do
    let .cons '"' cs := skip cs | none
    let (key, cs) ← string? cs
    let .cons ':' cs := skip cs | none
    let (v, cs) ← value? fuel cs
    match skip cs with
    | ',' :: rest => do
      let (ms, rest) ← members? fuel rest
      return ((key, v) :: ms, rest)
    | '\x7d' :: rest => return ([(key, v)], rest)
    | _ => none

end

def read? (s : String) : Option Json := do
  let cs := s.toList
  let (v, rest) ← value? (cs.length + 1) cs
  if (skip rest).isEmpty then some v else none

/-- The value of a number that is a natural one below `bound`. -/
def natural? (bound : Nat) : Json → Option Nat
  | .number n =>
    if n.integral ∧ 0 ≤ n.mantissa ∧ n.mantissa.toNat < bound then some n.mantissa.toNat else none
  | _ => none

end ChangeFeed.Json
