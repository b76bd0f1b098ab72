import ChangeFeed.Checkpoint.Basic
import ChangeFeed.Json.Value
import ChangeFeed.Pglogical.Frame
import ChangeFeed.Text.Base64
import ChangeFeed.Time.Rfc3339

/-!
The line of text that stands for a change: one JSON object, its members in the order of their names.
-/
namespace ChangeFeed.Program

def relationName (r : Pglogical.Relation) : String := r.schema ++ "." ++ r.table

def lineValue (c : Change Pglogical.Message) : Json :=
  .object [
    (some "commit_time", .text c.checkpoint.time.offsetText),
    (some "lsn", .text c.checkpoint.lsn.text),
    (some "payload", .text (Text.Base64.encodeString c.message.payload)),
    (some "relation", (c.message.relation.map fun r => Json.text (relationName r)).getD .null),
    (some "tag", .text (latin1 c.message.tag).toString)]

def line (c : Change Pglogical.Message) : String := (lineValue c).compactText

end ChangeFeed.Program
