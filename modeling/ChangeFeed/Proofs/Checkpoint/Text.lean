import ChangeFeed.Checkpoint.Text
import ChangeFeed.Proofs.Json.RoundTrip
import ChangeFeed.Proofs.Text.Utf8
import ChangeFeed.Proofs.Time.Timestamps

/-!
The file of a checkpoint. Main statement: what was written for a checkpoint is read as that checkpoint,
unless its time is a leap second that does not end a minute; then it is read with the second after it.
-/
namespace ChangeFeed.Checkpoint

/-- The checkpoint that its text stands for. -/
def asRead (c : Checkpoint) : Checkpoint := { c with time := c.time.asRead }

@[simp] theorem asRead_lsn (c : Checkpoint) : c.asRead.lsn = c.lsn := rfl

/-- Reading keeps the position, and makes of the time what it makes of any instant. -/
def ReadAs (c found : Checkpoint) : Prop := found.lsn = c.lsn ∧ c.time.ReadAs found.time

theorem readAs_asRead (c : Checkpoint) : c.ReadAs c.asRead := ⟨rfl, c.time.readAs_asRead⟩

theorem asRead_of_legible {c : Checkpoint} (legible : c.time.Legible) : c.asRead = c := by
  rw [asRead, Time.Instant.asRead_of_legible legible]

theorem plain_toJson (c : Checkpoint) : c.toJson.Plain :=
  ⟨rfl, ⟨rfl, rfl⟩, rfl, rfl, trivial⟩

theorem lsn_ofJson? (l : Lsn) : Lsn.ofJson? (.natural l.offset) = some l := by
  have natural : (Json.natural l.offset).natural? UInt64.size = some l.offset := by
    simp [Json.natural, Json.natural?, l.offset_lt]
  rw [Lsn.ofJson?, natural, Option.bind_some, Lsn.ofNat?, dif_pos l.offset_lt]

theorem ofJson?_toJson (c : Checkpoint) : ofJson? c.toJson = some c.asRead := by
  have parts : ofParts? (.natural c.lsn.offset) (.text c.time.zuluText) = some c.asRead := by
    simp [ofParts?, lsn_ofJson?, Json.text, Time.Instant.read?_zuluText, asRead]
  exact parts

theorem ofFile_toFile (c : Checkpoint) : ofFile c.toFile = .ok c.asRead := by
  rw [ofFile, toFile, Text.Utf8.decode_ofString]
  dsimp only
  rw [Json.read?_prettyText c.plain_toJson, Option.bind_some, ofJson?_toJson]

/-- What was read has a text that it is read from. -/
theorem asRead_of_ofJson? {v : Json} {c : Checkpoint} (read : ofJson? v = some c) : c.asRead = c := by
  have parts {lsn time : Json} (read : ofParts? lsn time = some c) : c.asRead = c := by
    obtain ⟨l, -, read⟩ := Option.bind_eq_some_iff.mp read
    split at read
    · obtain ⟨t, time, read⟩ := Option.bind_eq_some_iff.mp read
      cases read
      exact asRead_of_legible (Time.Timestamp.legible_of_read? time)
    · cases read
  unfold ofJson? at read
  split at read
  · obtain ⟨-, -, read⟩ := Option.bind_eq_some_iff.mp read
    obtain ⟨lsn, -, read⟩ := Option.bind_eq_some_iff.mp read
    obtain ⟨time, -, read⟩ := Option.bind_eq_some_iff.mp read
    exact parts read
  · exact parts read
  · cases read

end ChangeFeed.Checkpoint
