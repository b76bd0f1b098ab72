import ChangeFeed.Program.Line
import ChangeFeed.Checkpoint.Text
import ChangeFeed.Proofs.Json.RoundTrip

/-!
What the line of a change says. Main statement: the position that it names is the change's.
-/
namespace ChangeFeed.Program

/-- The text of a line's only member `lsn`. -/
def position? (text : String) : Option String := do
  let .object members ← Json.read? text | none
  let .string named ← Checkpoint.only? "lsn" members | none
  named

theorem plain_lineValue (c : Change Pglogical.Message) : (lineValue c).Plain := by
  refine ⟨rfl, rfl, rfl, rfl, rfl, rfl, rfl, ?_, rfl, rfl, trivial⟩
  cases c.message.relation with
  | none => exact trivial
  | some => exact rfl

/-- A line is read as the value that it was written for. -/
theorem read?_line (c : Change Pglogical.Message) : Json.read? (line c) = some (lineValue c) :=
  Json.read?_compactText (plain_lineValue c)

theorem position?_line (c : Change Pglogical.Message) : position? (line c) = some c.checkpoint.lsn.text := by
  rw [position?, read?_line]
  rfl

end ChangeFeed.Program
