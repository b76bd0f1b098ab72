import ChangeFeed.Config.Value
import ChangeFeed.Error
import ChangeFeed.Json.Reader
import ChangeFeed.Toml.Reader

/-!
Settings files. The extension of a file's name says in which format it is.
-/
namespace ChangeFeed.Config

inductive Format
  | toml
  | json
deriving DecidableEq, Repr

def Format.extension : Format → String
  | .toml => "toml"
  | .json => "json"

def formats : List Format := [.toml, .json]

/-- What follows the last dot of a file's name, unless that dot is its first character. -/
def extension? (path : String) : Option String :=
  let name := path.toList.reverse.takeWhile (· ≠ '/')
  match name.dropWhile (· ≠ '.') with
  | _ :: _ :: _ => some (String.ofList (name.takeWhile (· ≠ '.')).reverse)
  | _ => none

def formatOf? (path : String) : Option Format :=
  (extension? path).bind fun e => formats.find? (·.extension == e)

mutual

def ofToml : Toml.Value → Value
  | .text s => .text s
  | .integer n => .integer n
  | .real x => .real x
  | .bool b => .bool b
  | .moment s => .text s
  | .list vs => .list (ofTomlList vs)
  | .table es => .table (ofTomlEntries es)

def ofTomlList : List Toml.Value → List Value
  | [] => []
  | v :: vs => ofToml v :: ofTomlList vs

def ofTomlEntries : List (String × Toml.Value) → List (String × Value)
  | [] => []
  | (key, v) :: es => (key, ofToml v) :: ofTomlEntries es

end

/-- The most digits of a number that count: as many as fit into 64 bits. -/
def leadingDigits : Nat → Nat → Nat × Nat
  | 0, n => (n, 0)
  | fuel + 1, n =>
    if n < UInt64.size then (n, 0)
    else
      let (m, dropped) := leadingDigits fuel (n / 10)
      (m, dropped + 1)

def powerOfTen (n : Nat) : Float := Float.ofScientific 1 false n

/-- A number with a fraction or an exponent, in double precision; none if it is too large. -/
def scaled? (m : Nat) (e : Int) : Option Float :=
  let x := Float.ofNat m
  if m = 0 then some 0.0
  else if 0 ≤ e then
    let y := x * powerOfTen e.toNat
    if 308 < e || !y.isFinite then none else some y
  else if -308 ≤ e then some (x / powerOfTen e.natAbs)
  else if -616 ≤ e then some (x / powerOfTen 308 / powerOfTen (e + 308).natAbs)
  else some 0.0

def ofJsonNumber? (n : JsonNumber) : Option Value :=
  if n.integral ∧ Int64.minValue.toInt ≤ n.mantissa ∧ n.mantissa ≤ Int64.maxValue.toInt then some (.integer n.mantissa)
  else
    let (m, dropped) := leadingDigits n.mantissa.natAbs n.mantissa.natAbs
    (scaled? m (n.exponent + dropped)).map fun x => .real (if n.mantissa < 0 then -x else x)

mutual

/-- A JSON value down to `depth` deep, in which every string is a text and no number too large. -/
def ofJson? : (depth : Nat) → Json → Option Value
  | _, .null => some .nothing
  | _, .bool b => some (.bool b)
  | _, .number n => ofJsonNumber? n
  | _, .string s => s.map .text
  | 0, _ => none
  | depth + 1, .array vs => (ofJsonList? depth vs).map .list
  | depth + 1, .object ms => (ofJsonMembers? depth ms).map .table

def ofJsonList? : (depth : Nat) → List Json → Option (List Value)
  | _, [] => some []
  | depth, v :: vs => do return (← ofJson? depth v) :: (← ofJsonList? depth vs)

/-- Of members with the same name the last one counts. -/
def ofJsonMembers? : (depth : Nat) → List (Option String × Json) → Option (List (String × Value))
  | _, [] => some []
  | depth, (key, v) :: ms => do
    let key ← key
    let v ← ofJson? depth v
    let es ← ofJsonMembers? depth ms
    return if es.any (·.1 == key) then es else (key, v) :: es

end

/-- How deep the values of a settings file in JSON may be. -/
def jsonDepth : Nat := 127

/-- The entries of the table that a file holds. -/
def Format.read? (f : Format) (text : String) : Option (List (String × Value)) :=
  match f with
  | .toml => (Toml.read? text).map ofTomlEntries
  | .json =>
    match (Json.read? text).bind (ofJson? jsonDepth) with
    | some (.table es) => some es
    | _ => none

end ChangeFeed.Config
