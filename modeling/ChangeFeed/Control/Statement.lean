/-!
The statements that are run over a control connection.
-/
namespace ChangeFeed.Control

inductive Statement
  | readOnly
  | listTypes
  | installExtension
  | createSlot (slot : String)
deriving DecidableEq, Repr

/-- The output plugin that a slot is bound to. -/
def outputPlugin : String := "pglogical_output"

namespace Statement

def text : Statement → String
  | .readOnly => "SHOW transaction_read_only"
  | .listTypes => "SELECT oid, typname FROM pg_type"
  | .installExtension => "CREATE EXTENSION IF NOT EXISTS pgcapture"
  | .createSlot _ => "SELECT pg_create_logical_replication_slot($1, $2)"

/-- Whether a statement is prepared before it is run, and with which parameters it is run then. -/
def parameters? : Statement → Option (List String)
  | .listTypes => some []
  | .createSlot slot => some [slot, outputPlugin]
  | .readOnly | .installExtension => none

end Statement

end ChangeFeed.Control
