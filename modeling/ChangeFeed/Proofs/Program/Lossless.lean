import ChangeFeed.Proofs.Json.Compact
import ChangeFeed.Proofs.Lsn.Notation
import ChangeFeed.Proofs.Program.Lines
import ChangeFeed.Proofs.Text.Base64
import ChangeFeed.Proofs.Time.Format

/-!
What can be told of changes from the lines that are written for them. Main statement: the output falls
into one line for each change, and everything that a line is to tell comes back from it exactly, but for
a leap second that does not end a minute.
-/
namespace ChangeFeed.Program

open Text

/-- The bytes of the line of a change, without what ends it. -/
def lineBytes (c : Change Pglogical.Message) : Bytes := Bytes.ofString (line c)

/-- The output after the lines of changes, each ended by a newline. -/
def written (cs : List (Change Pglogical.Message)) : Bytes :=
  cs.flatMap fun c => Bytes.ofString (line c ++ "\n")

/-- The members of the object that a line stands for. -/
def members? (bs : Bytes) : Option (List (Option String × Json)) :=
  match Utf8.decode bs with
  | .ok s =>
    match Json.read? s with
    | some (.object members) => some members
    | _ => none
  | .error _ => none

/-- The text of the only member of a name. -/
def textOf? (name : String) (members : List (Option String × Json)) : Option String :=
  match Checkpoint.only? name members with
  | some (.string s) => s
  | _ => none

/-- What the members of an object tell of a change. -/
structure Tells (c : Change Pglogical.Message) (members : List (Option String × Json)) : Prop where
  keys : members.map Prod.fst = ["commit_time", "lsn", "payload", "relation", "tag"].map some
  lsn : ∃ text, textOf? "lsn" members = some text ∧ Lsn.parse text = .ok c.checkpoint.lsn
  time : ∃ text, textOf? "commit_time" members = some text ∧
    Time.DateTime c.checkpoint.time.date.year text.toList ∧
    Time.Timestamp.read? text = some c.checkpoint.time.asRead
  /-- The code of one character is the tag. -/
  tag : ∃ d, textOf? "tag" members = some (String.singleton d) ∧ d.toNat = c.message.tag.toNat
  payload : ∃ text, textOf? "payload" members = some text ∧
    Base64.decode? text.toList = some c.message.payload
  relation : match c.message.relation with
    | none => Checkpoint.only? "relation" members = some .null
    | some r => Checkpoint.only? "relation" members = some (.text (r.schema ++ "." ++ r.table))

theorem toNat_latin1 (b : UInt8) : (latin1 b).toNat = b.toNat := by
  have small : b.toNat < 256 := b.toNat_lt
  have valid : b.toNat.isValidChar := .inl (by omega)
  rw [latin1, Char.ofNat, dif_pos valid]
  rfl

theorem members?_lineBytes (c : Change Pglogical.Message) :
    ∃ members, members? (lineBytes c) = some members ∧ lineValue c = .object members := by
  refine ⟨_, ?_, rfl⟩
  rw [members?, lineBytes, Utf8.decode_ofString]
  dsimp only
  rw [read?_line]
  rfl

theorem tells_lineValue {c : Change Pglogical.Message} {members : List (Option String × Json)}
    (value : lineValue c = .object members) : Tells c members := by
  cases value
  let t := c.checkpoint.time
  refine ⟨rfl, ⟨_, rfl, ?_⟩, ⟨_, rfl, t.dateTime_offsetText, t.read?_offsetText⟩,
    ⟨_, rfl, toNat_latin1 c.message.tag⟩, ⟨_, rfl, ?_⟩, ?_⟩
  · exact Lsn.parse_eq_ok_iff_denotes.mpr (Lsn.denotes_text c.checkpoint.lsn)
  · rw [Base64.encodeString, String.toList_ofList]
    exact Base64.decode?_encode c.message.payload
  · cases c.message.relation <;> rfl

/-- A newline is no part of any line. -/
theorem written_cons (c : Change Pglogical.Message) (cs : List (Change Pglogical.Message)) :
    written (c :: cs) = lineBytes c ++ 10 :: written cs := by
  have newline : Bytes.ofString (line c ++ "\n") = lineBytes c ++ [10] := by
    rw [lineBytes, Bytes.ofString_eq, Bytes.ofString_eq, String.toList_append, List.flatMap_append]
    rfl
  rw [written, List.flatMap_cons, newline, List.append_assoc]
  rfl

theorem lineBytes_low (c : Change Pglogical.Message) : ∀ b ∈ lineBytes c, 0x20 ≤ b :=
  Json.compactText_low (lineValue c)

theorem splitOn_written (cs : List (Change Pglogical.Message)) :
    (written cs).splitOn 10 = cs.map lineBytes ++ [[]] := by
  induction cs with
  | nil => rfl
  | cons c cs ih =>
    have inside : ∀ b ∈ lineBytes c, (b == 10) = false := by
      intro b member
      refine beq_eq_false_iff_ne.mpr fun newline => ?_
      rw [newline] at member
      exact absurd (lineBytes_low c 10 member) (by decide)
    rw [List.splitOn] at ih ⊢
    rw [written_cons, List.splitOnP_append_cons_of_forall_mem inside 10 rfl, ih]
    rfl

/-- No byte of a line is below that of the blank; what was written for some changes falls into their
lines, one for each and in their order, where the newlines are; and the object that a line stands for has
its five members and tells the position, the instant, the tag, the payload and the relation. A leap second
that does not end a minute is told as the second after it. -/
theorem lines_lossless :
    (∀ c : Change Pglogical.Message, (∀ b ∈ lineBytes c, 0x20 ≤ b) ∧
      (∃ members, members? (lineBytes c) = some members ∧ Tells c members) ∧
      c.checkpoint.time.ReadAs c.checkpoint.time.asRead) ∧
    ∀ cs : List (Change Pglogical.Message), (written cs).splitOn 10 = cs.map lineBytes ++ [[]] := by
  refine ⟨fun c => ⟨lineBytes_low c, ?_, c.checkpoint.time.readAs_asRead⟩, splitOn_written⟩
  obtain ⟨members, read, value⟩ := members?_lineBytes c
  exact ⟨members, read, tells_lineValue value⟩

/-- A leap second in the middle of a minute and the second after it have the same line. -/
theorem leap_second_shares_line :
    let at_ (t : Time.Instant) : Change Pglogical.Message := ⟨⟨⟨1, by decide⟩, t⟩, ⟨67, .other, none, []⟩⟩
    let leap := at_ ⟨30, 1500000000, by decide⟩
    let next := at_ ⟨31, 500000000, by decide⟩
    leap.checkpoint.time ≠ next.checkpoint.time ∧ lineBytes leap = lineBytes next := by
  intro at_ leap next
  exact ⟨by decide, by decide +kernel⟩

end ChangeFeed.Program
