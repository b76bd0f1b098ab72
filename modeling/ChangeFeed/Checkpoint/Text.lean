import ChangeFeed.Checkpoint.Basic
import ChangeFeed.Json.Reader
import ChangeFeed.Text.Utf8
import ChangeFeed.Time.Rfc3339
import ChangeFeed.Time.Timestamp

/-!
Checkpoints and positions as JSON. A checkpoint is an object with the members `lsn` and `time`, or
an array of the two; other members mean nothing.
-/
namespace ChangeFeed

/-- A bare natural number. -/
def Lsn.ofJson? (v : Json) : Option Lsn :=
  (v.natural? UInt64.size).bind Lsn.ofNat?

namespace Checkpoint

def toJson (c : Checkpoint) : Json :=
  .object [(some "lsn", .natural c.lsn.offset), (some "time", .text c.time.zuluText)]

def ofParts? (lsn time : Json) : Option Checkpoint := do
  let lsn ← Lsn.ofJson? lsn
  let .string (some s) := time | none
  return ⟨lsn, ← Time.Timestamp.read? s⟩

/-- The value of the only member of a name. -/
def only? (name : String) (members : List (Option String × Json)) : Option Json :=
  match members.filter (·.1 == some name) with
  | [m] => some m.2
  | _ => none

def ofJson? : Json → Option Checkpoint
  | .object members => do
    guard (members.all (·.1.isSome))
    ofParts? (← only? "lsn" members) (← only? "time" members)
  | .array [lsn, time] => ofParts? lsn time
  | _ => none

def ofFile (bs : Bytes) : Except Error Checkpoint :=
  match Text.Utf8.decode bs with
  | .error _ => .error (.io .invalidUtf8)
  | .ok s =>
    match (Json.read? s).bind ofJson? with
    | some c => .ok c
    | none => .error (.config (.checkpointFile "no checkpoint in JSON"))

def toFile (c : Checkpoint) : Bytes := Bytes.ofString c.toJson.prettyText

end Checkpoint

end ChangeFeed
