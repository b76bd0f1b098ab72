import ChangeFeed.Error
import ChangeFeed.Text.Blank

/-!
The settings of a capture, and which of them are refused.
-/
namespace ChangeFeed

structure SourceConfig where
  setupTarget : String
  replicationTarget : String
  slot : String
  createSlot : Bool := false
  /-- Seconds from one status report to the next. -/
  reportInterval : Nat := 5
  /-- How many changes wait for the consumer at most. -/
  channelCapacity : Nat := 100
  /-- Seconds that opening a connection may take. -/
  connectTimeout : Nat := 30
deriving DecidableEq, Repr

structure CheckpointConfig where
  file : Option String := none
  /-- Seconds from one save to the next. -/
  saveInterval : Nat := 10
deriving DecidableEq, Repr

structure Settings where
  source : SourceConfig
  checkpoint : CheckpointConfig
deriving DecidableEq, Repr

/-- A character that the server itself allows in the name of a slot. -/
def isSlotCharacter (c : Char) : Bool :=
  ('a' ≤ c && c ≤ 'z') || ('0' ≤ c && c ≤ '9') || c == '_'

/-- Slot names go into commands as they are, so nothing but slot characters may be in them. -/
def checkSlot (name : String) : Except ConfigFault Unit :=
  if name.utf8ByteSize = 0 ∨ 63 < name.utf8ByteSize then .error (.slotLength name)
  else if name.toList.all isSlotCharacter then .ok ()
  else .error (.slotCharacters name)

namespace SourceConfig

def check (c : SourceConfig) : Except ConfigFault Unit := do
  if (Text.trim c.setupTarget).isEmpty then .error .emptySetupTarget
  if (Text.trim c.replicationTarget).isEmpty then .error .emptyReplicationTarget
  checkSlot c.slot
  if c.reportInterval = 0 then .error .zeroReportInterval
  if c.channelCapacity = 0 then .error .zeroChannelCapacity
  if c.connectTimeout = 0 then .error .zeroConnectTimeout

def validate (c : SourceConfig) : Except Error Unit := c.check.mapError .config

/-- What is so of settings that are accepted. -/
structure Accepted (c : SourceConfig) : Prop where
  setupTarget : (Text.trim c.setupTarget).isEmpty = false
  replicationTarget : (Text.trim c.replicationTarget).isEmpty = false
  slot : checkSlot c.slot = .ok ()
  reportInterval : c.reportInterval ≠ 0
  channelCapacity : c.channelCapacity ≠ 0
  connectTimeout : c.connectTimeout ≠ 0

theorem accepted_of_validate {c : SourceConfig} (valid : c.validate = .ok ()) : c.Accepted := by
  have checked : c.check = .ok () := by
    cases found : c.check with
    | error => rw [validate, found] at valid; cases valid
    | ok => rfl
  unfold check at checked
  by_cases setup : (Text.trim c.setupTarget).isEmpty
  · simp [setup, bind, Except.bind] at checked
  by_cases replication : (Text.trim c.replicationTarget).isEmpty
  · simp [setup, replication, bind, Except.bind] at checked
  cases slot : checkSlot c.slot with
  | error => simp [setup, replication, slot, bind, Except.bind] at checked
  | ok =>
    by_cases interval : c.reportInterval = 0
    · simp [setup, replication, slot, interval, bind, Except.bind] at checked
    by_cases capacity : c.channelCapacity = 0
    · simp [setup, replication, slot, interval, capacity, bind, Except.bind] at checked
    by_cases timeout : c.connectTimeout = 0
    · simp [setup, replication, slot, interval, capacity, timeout, bind, Except.bind] at checked
    exact ⟨by simpa using setup, by simpa using replication, slot, interval, capacity, timeout⟩

end SourceConfig

end ChangeFeed
