import ChangeFeed.Proofs.Checkpoint.Text

/-!
The texts that stand for a checkpoint. Main statement: both texts that are written for a checkpoint are
read as it, and so is every other text with its position and some spelling of its time, but for leap
seconds that do not end a minute; whatever text was read, writing what it gave and reading that changes
nothing.
-/
namespace ChangeFeed.Checkpoint

open Time.Timestamp

def read? (s : String) : Option Checkpoint := (Json.read? s).bind ofJson?

/-- A file is read as its text is. -/
theorem ofFile_ofString_eq_ok {s : String} {c : Checkpoint} :
    ofFile (Bytes.ofString s) = .ok c ↔ read? s = some c := by
  rw [ofFile, Text.Utf8.decode_ofString, read?]
  dsimp only
  cases (Json.read? s).bind ofJson? with
  | none => simp
  | some c => simp

/-- The values that hold a position and a time: an object with them in any order among members of other
names, or an array of the two. -/
inductive Form (lsn time : Json) : Json → Prop
  | object {members others : List (Option String × Json)}
    (order : members.Perm ((some "lsn", lsn) :: (some "time", time) :: others))
    (unknown : ∀ m ∈ others, ∃ name, m.1 = some name ∧ name ≠ "lsn" ∧ name ≠ "time") :
    Form lsn time (.object members)
  | array : Form lsn time (.array [lsn, time])

theorem only?_perm {name : String} {v : Json} {members others : List (Option String × Json)}
    (order : members.Perm ((some name, v) :: others)) (other : ∀ m ∈ others, m.1 ≠ some name) :
    only? name members = some v := by
  have none : others.filter (·.1 == some name) = [] :=
    List.filter_eq_nil_iff.mpr fun m member => by simpa using other m member
  have single : members.filter (·.1 == some name) = [(some name, v)] := by
    have filtered := order.filter (·.1 == some name)
    rw [List.filter_cons_of_pos (by simp), none] at filtered
    exact List.perm_singleton.mp filtered
  rw [only?, single]

theorem Form.ofJson? {lsn time v : Json} (form : Form lsn time v) : ofJson? v = ofParts? lsn time := by
  cases form with
  | array => rfl
  | @object members others order unknown =>
    have named : ∀ m ∈ others, m.1.isSome ∧ m.1 ≠ some "lsn" ∧ m.1 ≠ some "time" := by
      intro m member
      obtain ⟨name, same, notLsn, notTime⟩ := unknown m member
      rw [same]
      exact ⟨rfl, by simpa using notLsn, by simpa using notTime⟩
    have all : members.all (·.1.isSome) = true := by
      refine List.all_eq_true.mpr fun m member => ?_
      rcases List.mem_cons.mp (order.mem_iff.mp member) with rfl | member
      · rfl
      rcases List.mem_cons.mp member with rfl | member
      · rfl
      · exact (named m member).1
    have first : only? "lsn" members = some lsn := by
      refine only?_perm order fun m member => ?_
      rcases List.mem_cons.mp member with rfl | member
      · simp
      · exact (named m member).2.1
    have second : only? "time" members = some time := by
      refine only?_perm (order.trans (.swap _ _ _)) fun m member => ?_
      rcases List.mem_cons.mp member with rfl | member
      · simp
      · exact (named m member).2.2
    rw [Checkpoint.ofJson?, all, first, second]
    rfl

theorem ofParts?_spells {c : Checkpoint} {time : List Char} (spells : Spells c.time time) :
    ofParts? (.natural c.lsn.offset) (.text (String.ofList time)) = some c.asRead := by
  simp [ofParts?, lsn_ofJson?, Json.text, c.time.read?_spells spells, asRead]

/-- All texts of a checkpoint are read alike. -/
theorem read?_spell {c : Checkpoint} {time : List Char} {v : Json} (spells : Spells c.time time)
    (form : Form (.natural c.lsn.offset) (.text (String.ofList time)) v) (plain : v.Plain)
    (layout : Json.Layout) : read? (String.ofList (v.spell layout 0)) = some c.asRead := by
  rw [read?, Json.read?_spell layout plain, Option.bind_some, form.ofJson?, ofParts?_spells spells]

def writers : List (Json → String) := [Json.compactText, Json.prettyText]

theorem read?_writer {write : Json → String} (writer : write ∈ writers) (c : Checkpoint) :
    read? (write c.toJson) = some c.asRead := by
  have read : Json.read? (write c.toJson) = some c.toJson := by
    rcases List.mem_cons.mp writer with rfl | writer
    · exact Json.read?_compactText c.plain_toJson
    · rw [List.mem_singleton.mp writer]
      exact Json.read?_prettyText c.plain_toJson
  rw [read?, read, Option.bind_some, ofJson?_toJson]

/-- Reading a checkpoint and writing it again. -/
def rewrite? (write : Json → String) (s : String) : Option String :=
  (read? s).map fun c => write c.toJson

/-- A checkpoint comes back from both texts that are written for it, unless its time is a leap second in the
middle of a minute, from whose texts the second after it comes back. A text that
was read and written again stays as it is from then on; and what is read, also from a file, does not depend
on the layout, the order of members, or how the time is spelled and at which offset. -/
theorem rewrite?_idempotent :
    (∀ write ∈ writers, ∀ c : Checkpoint, read? (write c.toJson) = some c.asRead ∧ c.ReadAs c.asRead) ∧
    (∀ write ∈ writers, ∀ s c, read? s = some c →
      ∃ s', rewrite? write s = some s' ∧ read? s' = some c ∧ rewrite? write s' = some s') ∧
    (∀ s c, ofFile (Bytes.ofString s) = .ok c ↔ read? s = some c) ∧
    (∀ (c : Checkpoint) time v layout, Spells c.time time →
      Form (.natural c.lsn.offset) (.text (String.ofList time)) v → v.Plain →
      read? (String.ofList (v.spell layout 0)) = some c.asRead) := by
  refine ⟨fun write writer c => ⟨read?_writer writer c, c.readAs_asRead⟩, fun write writer s c read => ?_,
    fun s c => ofFile_ofString_eq_ok,
    fun c time v layout spells form plain => read?_spell spells form plain layout⟩
  obtain ⟨v, -, found⟩ := Option.bind_eq_some_iff.mp read
  have reread := read?_writer writer c
  rw [asRead_of_ofJson? found] at reread
  refine ⟨write c.toJson, ?_, reread, ?_⟩
  · rw [rewrite?, read, Option.map_some]
  · rw [rewrite?, reread, Option.map_some]

/-- A leap second in the middle of a minute is read as the second after it, from either text. -/
theorem leap_second_read_as_next :
    let leap : Checkpoint := ⟨⟨1, by decide⟩, ⟨30, 1500000000, by decide⟩⟩
    let next : Checkpoint := ⟨⟨1, by decide⟩, ⟨31, 500000000, by decide⟩⟩
    leap ≠ next ∧ ∀ write ∈ writers, read? (write leap.toJson) = some next := by
  intro leap next
  have same : leap.asRead = next := by decide
  exact ⟨by decide, fun write writer => same ▸ read?_writer writer leap⟩

end ChangeFeed.Checkpoint
