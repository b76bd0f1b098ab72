import ChangeFeed.Proofs.Lsn.Notation
import ChangeFeed.Proofs.Session.Commands
import ChangeFeed.Proofs.Text.Classes

/-!
The command that starts a stream, taken apart at its spaces. Main statement: a slot that settings may
name and a position stand in the command as words of their own, so they are read back from it, and all
marks in it are those of the parameters for the plugin.
-/
namespace ChangeFeed

open Text Utf8

/-- A byte that the server allows in the name of a slot. -/
def isSlotByte (b : UInt8) : Bool :=
  (0x61 ≤ b && b ≤ 0x7A) || (0x30 ≤ b && b ≤ 0x39) || b == 0x5F

theorem isSlotCharacter_of_high {c : Char} (high : 128 ≤ c.toNat) : isSlotCharacter c = false := by
  have letter : ¬ c ≤ 'z' := by
    rw [Char.le_def, UInt32.le_iff_toNat_le]
    change ¬ c.toNat ≤ 122
    omega
  have digit : ¬ c ≤ '9' := by
    rw [Char.le_def, UInt32.le_iff_toNat_le]
    change ¬ c.toNat ≤ 57
    omega
  have line : c ≠ '_' := by
    rintro rfl
    exact absurd high (by decide)
  simp [isSlotCharacter, letter, digit, line]

theorem tells_slot : Tells isSlotByte isSlotCharacter :=
  tells_of_ascii false (by decide +kernel) (by decide +kernel) fun _ => isSlotCharacter_of_high

theorem length_ofString (s : String) : (Bytes.ofString s).length = s.utf8ByteSize := by
  have whole := String.toByteArray_ofList (l := s.toList)
  rw [String.ofList_toList] at whole
  rw [Bytes.ofString_toByteArray whole, ← String.size_toByteArray, whole]
  exact List.size_toByteArray.symm

/-- The check of a name is one of its bytes: there are up to 63 of them, each a small letter, a digit or
an underscore. -/
theorem checkSlot_eq_ok {name : String} :
    checkSlot name = .ok () ↔
      0 < (Bytes.ofString name).length ∧ (Bytes.ofString name).length ≤ 63 ∧
        ∀ b ∈ Bytes.ofString name, isSlotByte b = true := by
  rw [← List.all_eq_true, ofString_eq_encode, tells_slot.all_encode, ← ofString_eq_encode, length_ofString]
  unfold checkSlot
  split
  · rename_i size
    refine ⟨nofun, fun ⟨named, few, _⟩ => ?_⟩
    omega
  · rename_i size
    split
    · rename_i fits
      exact ⟨fun _ => ⟨by omega, by omega, fits⟩, fun _ => rfl⟩
    · rename_i unfit
      exact ⟨nofun, fun ⟨_, _, fits⟩ => absurd fits unfit⟩

theorem forall_mem_of_checkSlot {name : String} (checked : checkSlot name = .ok ()) :
    ∀ c ∈ name.toList, isSlotCharacter c = true := by
  obtain ⟨-, -, fits⟩ := checkSlot_eq_ok.mp checked
  rwa [← List.all_eq_true, ofString_eq_encode, tells_slot.all_encode, List.all_eq_true] at fits

theorem Lsn.mem_text {l : Lsn} {c : Char} (own : c ∈ l.text.toList) :
    c ∈ "0123456789ABCDEF/".toList := by
  have digit {n : Nat} (own : c ∈ Numeral.capitals n) : c ∈ "0123456789ABCDEF/".toList :=
    List.mem_append_left ['/'] ((Numeral.capital_capitals n).upper c own)
  rw [Lsn.text_toList, List.mem_append, List.mem_cons] at own
  rcases own with high | rfl | low
  · exact digit high
  · decide
  · exact digit low

namespace Session

/-- What the plugin is asked for, as it stands in a command. -/
def parameterList : String := "(" ++ ", ".intercalate pluginParameters ++ ")"

/-- The words in front of the parameters. -/
def startWords (slot : String) (l : Lsn) : List (List Char) :=
  ["START_REPLICATION".toList, "SLOT".toList, slot.toList, "LOGICAL".toList, l.text.toList]

/-- The slot and the position that stand in a command, as its third word and its fifth. -/
def startOf? (command : String) : Option (String × Lsn) :=
  match parts ' ' command.toList with
  | _ :: _ :: slot :: _ :: position :: _ =>
    (Lsn.ofText? (String.ofList position)).map (String.ofList slot, ·)
  | _ => none

/-- Characters with which a command could be made to go on in another way. -/
def marks : List Char := ['\'', '"', ';', '(', ')']

theorem toList_startCommand (slot : String) (l : Lsn) :
    (startCommand slot l).toList = (startWords slot l).flatMap (· ++ [' ']) ++ parameterList.toList := by
  have first : "START_REPLICATION SLOT ".toList =
      "START_REPLICATION".toList ++ ([' '] ++ ("SLOT".toList ++ [' '])) := by decide +kernel
  have second : " LOGICAL ".toList = [' '] ++ ("LOGICAL".toList ++ [' ']) := by decide +kernel
  have third : " (".toList = [' '] ++ "(".toList := by decide +kernel
  unfold startCommand parameterList startWords
  simp only [String.toList_append, first, second, third, List.flatMap_cons, List.flatMap_nil,
    List.append_assoc, List.nil_append]

/-- A command that asks for the stream of a slot from a position: so it begins, and a name that is
accepted for a slot is read back from it together with the position. -/
structure StreamsFrom (slot : String) (l : Lsn) (command : String) : Prop where
  words : ("START_REPLICATION SLOT " ++ slot ++ " LOGICAL " ++ l.text ++ " ").toList <+: command.toList
  read : checkSlot slot = .ok () → startOf? command = some (slot, l)

theorem parts_words {words : List (List Char)} (free : ∀ w ∈ words, ' ' ∉ w) (rest : List Char) :
    parts ' ' (words.flatMap (· ++ [' ']) ++ rest) = words ++ parts ' ' rest := by
  induction words with
  | nil => rfl
  | cons w words ih =>
    obtain ⟨first, others⟩ := List.forall_mem_cons.mp free
    have step := parts_append first (words.flatMap (· ++ [' ']) ++ rest)
    rw [ih others] at step
    simpa only [List.flatMap_cons, List.append_assoc, List.cons_append, List.nil_append] using step

section Accepted

variable {slot : String} (checked : checkSlot slot = .ok ()) (l : Lsn)
include checked

/-- What is no slot character and does not stand in positions stands in a word only if it stands in one
that is fixed. -/
theorem notMem_startWords {c : Char} (other : isSlotCharacter c = false)
    (other' : c ∉ "0123456789ABCDEF/".toList)
    (fixed : c ∉ "START_REPLICATION".toList ++ "SLOT".toList ++ "LOGICAL".toList) :
    ∀ w ∈ startWords slot l, c ∉ w := by
  have named : c ∉ slot.toList := fun own => by
    rw [forall_mem_of_checkSlot checked c own] at other
    cases other
  have placed : c ∉ l.text.toList := fun own => other' (Lsn.mem_text own)
  simp only [List.mem_append, not_or] at fixed
  simp only [startWords, List.forall_mem_cons]
  exact ⟨fixed.1.1, fixed.1.2, named, fixed.2, placed, by simp⟩

theorem parts_startCommand :
    parts ' ' (startCommand slot l).toList = startWords slot l ++ parts ' ' parameterList.toList := by
  have free := notMem_startWords checked l (c := ' ') (by decide) (by decide) (by decide +kernel)
  rw [toList_startCommand, parts_words free]

theorem startOf?_startCommand : startOf? (startCommand slot l) = some (slot, l) := by
  have read : Lsn.ofText? l.text = some l := Lsn.ofText?_eq_some.mpr (Lsn.denotes_text l)
  rw [startOf?, parts_startCommand checked, startWords]
  simp only [List.cons_append, String.ofList_toList, read, Option.map_some]

theorem marks_notMem_startWords : ∀ c ∈ marks, c ∉ (startWords slot l).flatMap (· ++ [' ']) := by
  -- The marks are gone through one by one; a decision about characters would go through all of them.
  have others : marks.all (fun c => decide (isSlotCharacter c = false ∧ c ∉ "0123456789ABCDEF/".toList ∧
      c ∉ "START_REPLICATION".toList ++ "SLOT".toList ++ "LOGICAL".toList ∧ c ≠ ' ')) = true := by
    decide +kernel
  intro c mark own
  obtain ⟨other, other', fixed, solid⟩ := of_decide_eq_true (List.all_eq_true.mp others c mark)
  obtain ⟨w, word, inside⟩ := List.mem_flatMap.mp own
  rcases List.mem_append.mp inside with inside | space
  · exact notMem_startWords checked l other other' fixed w word inside
  · exact solid (List.mem_singleton.mp space)

end Accepted

theorem streamsFrom_startCommand (slot : String) (l : Lsn) : StreamsFrom slot l (startCommand slot l) := by
  refine ⟨?_, fun checked => startOf?_startCommand checked l⟩
  have opening : " (".toList = " ".toList ++ "(".toList := by decide +kernel
  unfold startCommand
  simp only [String.toList_append, opening, List.append_assoc, List.prefix_append_right_inj,
    List.prefix_append]

/-- Settings are accepted only with a slot of up to 63 bytes, all of them small letters, digits or
underscores. A command with such a slot is, between its spaces, fixed words, the slot, the position and
the parameters, so both are read back from it, and no two of them give the same command; quotes,
semicolons and parentheses stand nowhere but in the parameters. -/
theorem startCommand_divides :
    (∀ c : SourceConfig, c.validate = .ok () →
      0 < (Bytes.ofString c.slot).length ∧ (Bytes.ofString c.slot).length ≤ 63 ∧
        ∀ b ∈ Bytes.ofString c.slot, isSlotByte b = true) ∧
    (∀ c : SourceConfig, c.validate = .ok () → ∀ l : Lsn,
      parts ' ' (startCommand c.slot l).toList =
        ["START_REPLICATION".toList, "SLOT".toList, c.slot.toList, "LOGICAL".toList, l.text.toList] ++
          parts ' ' parameterList.toList ∧
      startOf? (startCommand c.slot l) = some (c.slot, l) ∧
      ∃ front, (startCommand c.slot l).toList = front ++ parameterList.toList ∧
        ∀ mark ∈ marks, mark ∉ front) ∧
    (∀ c c' : SourceConfig, c.validate = .ok () → c'.validate = .ok () → ∀ l l' : Lsn,
      startCommand c.slot l = startCommand c'.slot l' → c.slot = c'.slot ∧ l = l') := by
  have checked {c : SourceConfig} (valid : c.validate = .ok ()) : checkSlot c.slot = .ok () :=
    (SourceConfig.accepted_of_validate valid).slot
  refine ⟨fun c valid => checkSlot_eq_ok.mp (checked valid), fun c valid l => ?_,
    fun c c' valid valid' l l' same => ?_⟩
  · exact ⟨parts_startCommand (checked valid) l, startOf?_startCommand (checked valid) l, _,
      toList_startCommand c.slot l, marks_notMem_startWords (checked valid) l⟩
  · have read := startOf?_startCommand (checked valid) l
    rw [same, startOf?_startCommand (checked valid') l'] at read
    obtain ⟨slot, position⟩ := Prod.mk.inj (Option.some.inj read)
    exact ⟨slot.symm, position.symm⟩

/-- The longest name, at the last position. -/
theorem startCommand_divides_longest :
    let name := String.ofList (List.replicate 62 '_' ++ ['0'])
    let c : SourceConfig := ⟨"host=a", "host=b", name, false, 5, 100, 30⟩
    c.validate = .ok () ∧
      startOf? (startCommand name ⟨0xFFFFFFFFFFFFFFFF, by decide⟩) = some (name, ⟨0xFFFFFFFFFFFFFFFF, by decide⟩) := by
  intro name c
  have valid : c.validate = .ok () := by decide +kernel
  exact ⟨valid, (startCommand_divides.2.1 c valid _).2.1⟩

end Session

end ChangeFeed
