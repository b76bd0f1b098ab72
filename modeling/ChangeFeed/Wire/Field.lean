import ChangeFeed.Session.Identity
import ChangeFeed.Text.Utf8
import ChangeFeed.Wire.Message

/-!
The lists inside message bodies: columns, values, the fields of an error, and login mechanisms.
-/
namespace ChangeFeed.Wire

open Reader

def text (bs : Bytes) : Except MessageFault String := (Text.Utf8.decode bs).mapError .invalidUtf8

/-- A column's name and the eighteen bytes that describe its type. -/
def column : Reader String := fun bs => do
  let (name, bs) ← terminated bs
  let name ← text name
  let (_, bs) ← fixed 18 bs
  return (name, bs)

/-- A value after its length; a negative length stands for no value. -/
def value : Reader (Option String) := fun bs => do
  let (length, bs) ← integer 4 bs
  if length < 0 then return (none, bs)
  else match Bytes.splitAt? length.toNat bs with
    | some (v, bs) => return (some (Text.Utf8.lossyString v), bs)
    | none => .error .unexpectedEnd

/-- Exactly `n` items, with `fault` for bytes after them. -/
def items {α : Type} (r : Reader α) (fault : MessageFault) : Nat → Bytes → Except MessageFault (List α)
  | 0, bs => if bs = [] then .ok [] else .error fault
  | n + 1, bs => do
    let (a, bs) ← r bs
    return a :: (← items r fault n bs)

def columns (count : Nat) (fields : Bytes) : Except MessageFault (List String) :=
  items column .trailingFields count fields

def values (count : Nat) (bs : Bytes) : Except MessageFault (List (Option String)) :=
  items value .trailingValues count bs

/-- The fields of an error up to the first that is malformed: a letter and a text each. -/
def fields : Nat → Bytes → List (UInt8 × String)
  | _, [] => []
  | 0, _ => []
  | fuel + 1, kind :: bs =>
    if kind = 0 then []
    else match terminated bs with
      | .ok (v, bs) => (kind, Text.Utf8.lossyString v) :: fields fuel bs
      | .error _ => []

def lastField (kind : Char) (fs : List (UInt8 × String)) : Option String :=
  ((fs.filter fun f => f.1.toNat = kind.toNat).getLast?).map (·.2)

/-- What the server says went wrong, with the state where it names one. -/
def errorText (body : Bytes) : String :=
  let fs := fields body.length body
  match lastField 'M' fs, lastField 'C' fs with
  | some m, some c => m ++ " (SQLSTATE " ++ c ++ ")"
  | some m, none => m
  | none, _ => "unknown server error"

/-- The names of the mechanisms; an empty name ends the list. -/
def mechanisms : Nat → Bytes → Except MessageFault (List String)
  | 0, _ => .error .unexpectedEnd
  | fuel + 1, bs => do
    let (name, rest) ← terminated bs
    if name = [] then
      if rest = [] then return [] else .error .trailingMechanisms
    else return (← text name) :: (← mechanisms fuel rest)

end ChangeFeed.Wire
