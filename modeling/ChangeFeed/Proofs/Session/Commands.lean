import ChangeFeed.Config.Load
import ChangeFeed.Proofs.Surroundings.Calls
import ChangeFeed.Proofs.Text.Numerals

/-!
The commands that a client gives to start a stream from a checkpoint. Main statement: when what it says
consists of these, a command to start a stream that it gives names the position of the checkpoint.
-/
namespace ChangeFeed

/-- Only the zero character has a zero byte. -/
theorem Bytes.zero_notMem_ofString {s : String} (free : '\x00' ∉ s.toList) : 0 ∉ Bytes.ofString s := by
  have positive : ∀ c ∈ s.toList, 1 ≤ c.toNat := by
    intro c own
    refine Nat.pos_of_ne_zero fun none => ?_
    have same : c = '\x00' := Char.ext (UInt32.toNat.inj none)
    exact free (same ▸ own)
  intro zero
  exact absurd (Bytes.le_of_mem_ofString (by decide) positive 0 zero) (by decide)

theorem Wire.Request.query_of_free {text : String} (free : '\x00' ∉ text.toList) :
    ∃ bytes, Wire.Request.query text = .ok bytes := by
  have none : (Bytes.ofString text).contains 0 = false := by
    simpa using Bytes.zero_notMem_ofString free
  exact ⟨_, by rw [query, terminatedText, terminated, none]; rfl⟩

namespace Session

/-- The commands to find out about a server and to stream a slot from a position. -/
def Resuming (slot : String) (l : Lsn) (command : String) : Prop :=
  command = identifyCommand ∨ command = startCommand slot l

variable {slot : String} {l : Lsn}

theorem mayStart_resuming {c : Checkpoint} (past : c.lsn ≠ .zero) :
    Trial.MayStart (Resuming slot c.lsn) slot c := by
  refine ⟨.inl rfl, fun current => .inr ?_⟩
  have nonzero : c.lsn.isZero = false := beq_eq_false_iff_ne.mpr fun zero => past (Lsn.ext zero)
  rw [startPosition, nonzero]
  rfl

theorem free_append {a b : String} (first : '\x00' ∉ a.toList) (second : '\x00' ∉ b.toList) :
    '\x00' ∉ (a ++ b).toList := by
  rw [String.toList_append, List.mem_append]
  exact not_or.mpr ⟨first, second⟩

theorem free_text (l : Lsn) : '\x00' ∉ l.text.toList := by
  have half (n : Nat) : '\x00' ∉ (Text.Numeral.upperHex n).toList := by
    have digits : ∀ c ∈ Text.Numeral.write 16 n, c.toUpper ≠ '\x00' :=
      Text.Numeral.forall_mem_write (by decide) (by decide)
    simpa [Text.Numeral.upperHex] using digits
  exact free_append (free_append (half _) (by decide +kernel)) (half _)

theorem free_startCommand (free : '\x00' ∉ slot.toList) : '\x00' ∉ (startCommand slot l).toList := by
  have named : '\x00' ∉ ("START_REPLICATION SLOT " ++ slot ++ " LOGICAL " ++ l.text).toList :=
    free_append (free_append (free_append (by decide +kernel) free) (by decide +kernel)) (free_text l)
  have parameters : '\x00' ∉ (", ".intercalate pluginParameters).toList := by decide +kernel
  exact free_append (free_append (free_append named (by decide +kernel)) parameters) (by decide +kernel)

/-- A slot that has been checked can stand in a command. -/
theorem free_of_checkSlot (checked : checkSlot slot = .ok ()) : '\x00' ∉ slot.toList := by
  unfold checkSlot at checked
  split at checked
  · cases checked
  split at checked
  · rename_i fits
    intro zero
    cases List.all_eq_true.mp fits _ zero
  · cases checked

/-- A command to start a stream that begins what is said names the position. -/
theorem eq_startCommand (checked : checkSlot slot = .ok ()) {said asked rest : Bytes} {text : String}
    (speech : Wire.Speech (Resuming slot l) said) (written : Wire.Request.query text = .ok asked)
    (begins : said = asked ++ rest) (starts : "START_REPLICATION".toList <+: text.toList) :
    text = startCommand slot l := by
  obtain ⟨tail, shape⟩ := starts
  have first : "START_REPLICATION".toList = 'S' :: "TART_REPLICATION".toList := by decide +kernel
  rw [first, List.cons_append] at shape
  have writable : ∀ t, Resuming slot l t → ∃ bytes, Wire.Request.query t = .ok bytes := by
    rintro _ (rfl | rfl)
    · exact Wire.Request.query_of_free (by decide +kernel)
    · exact Wire.Request.query_of_free (free_startCommand (free_of_checkSlot checked))
  have other : (Bytes.ofString text).head? ≠ some 3 := by
    rw [Bytes.ofString_eq, ← shape, List.flatMap_cons]
    rintro ⟨⟩
  rcases speech.query_mem writable written other begins with identify | start
  · have second : identifyCommand.toList.head? = some 'I' := by decide +kernel
    rw [identify] at shape
    rw [← shape] at second
    cases second
  · exact start

end Session

end ChangeFeed
