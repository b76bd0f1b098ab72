import ChangeFeed.Checkpoint.Basic
import ChangeFeed.Error

/-!
What a server says about itself, and the command that makes it stream a slot from a position.
-/
namespace ChangeFeed.Session

structure Row where
  columns : List String
  values : List (Option String)
deriving DecidableEq, Repr

/-- The value under the first column of that name. -/
def Row.get? (row : Row) (column : String) : Option String :=
  match row.columns.findIdx? (· == column) with
  | some i => (row.values[i]?).join
  | none => none

structure Identity where
  systemId : String
  timeline : Int
  position : Lsn
  database : Option String
deriving DecidableEq, Repr

namespace Identity

def column (row : Row) (name : String) : Except Error String :=
  match row.get? name with
  | some s => .ok s
  | none => .error (.protocol (.missingColumn name))

def ofRow (row : Row) : Except Error Identity := do
  let timeline ← column row "timeline"
  let systemId ← column row "systemid"
  let some timeline := Text.Numeral.signed? 10 (UInt32.size / 2) timeline.toList
    | .error (.protocol (.invalidTimeline timeline))
  let position ← Lsn.parse (← column row "xlogpos")
  return ⟨systemId, timeline, position, row.get? "dbname"⟩

/-- The first of the rows that answer the identify command. -/
def ofRows : List Row → Except Error Identity
  | [] => .error (.protocol .noRows)
  | row :: _ => ofRow row

end Identity

def identifyCommand : String := "IDENTIFY_SYSTEM"

/-- A checkpoint's own position, or where the server is if that is zero. -/
def startPosition (c : Checkpoint) (current : Lsn) : Lsn :=
  if c.lsn.isZero then current else c.lsn

/-- What the output plugin is asked for: protocol 1, and binary values of base types as a big-endian
server of version 9.6 writes them. -/
def pluginParameters : List String :=
  ["min_proto_version '1'", "max_proto_version '1'", "startup_params_format '1'",
    "\"binary.want_binary_basetypes\" '1'", "\"binary.basetypes_major_version\" '906'",
    "\"binary.bigendian\" '1'"]

def startCommand (slot : String) (l : Lsn) : String :=
  "START_REPLICATION SLOT " ++ slot ++ " LOGICAL " ++ l.text ++ " (" ++
    ", ".intercalate pluginParameters ++ ")"

/-- A stream that a server has started, from where it starts. -/
structure Stream where
  slot : String
  start : Lsn
  server : Identity
deriving DecidableEq, Repr

end ChangeFeed.Session
