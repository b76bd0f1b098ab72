import ChangeFeed.Proofs.Feed.Moves
import Mathlib.Data.List.Induction

/-!
What a reader of the frames alone makes of them: a fold from left to right that knows nothing of the
channel, of reports, of the clock or of stops. The ends of refreshes are given beforehand; a record whose
refresh has not ended yet is waited for.
-/
namespace ChangeFeed.Feed

/-- How the reading of frames goes on. -/
inductive Stance (μ : Type)
  | reading
  /-- `message` waits for new metadata; its record ends at `lsn`. -/
  | waiting (lsn : Lsn) (message : μ) (ignored : Bool)
  | failed (e : Error)

structure Transcript (δ μ : Type) where
  decoder : δ
  commitTime : Time.Instant
  /-- How the refreshes to come end. -/
  refreshes : List (Except Error Unit)
  changes : List (Change μ)
  stance : Stance μ

namespace Transcript

variable {δ μ : Type}

def fail (t : Transcript δ μ) (e : Error) : Transcript δ μ := { t with stance := .failed e }

def emit (t : Transcript δ μ) (l : Lsn) (message : μ) : Transcript δ μ :=
  { t with changes := t.changes ++ [⟨⟨l, t.commitTime⟩, message⟩], stance := .reading }

def settle (t : Transcript δ μ) (l : Lsn) (message : μ) (ignored : Bool) : Transcript δ μ :=
  if ignored then { t with stance := .reading } else t.emit l message

/-- A record whose refresh succeeds is settled, and what is read after it is decoded with new metadata. -/
def answer [Decoder δ μ] (t : Transcript δ μ) (l : Lsn) (message : μ) (ignored : Bool) :
    Except Error Unit → Transcript δ μ
  | .error e => t.fail (.schemaRefresh e)
  | .ok _ => { t with decoder := Decoder.refreshed t.decoder }.settle l message ignored

def await [Decoder δ μ] (t : Transcript δ μ) (l : Lsn) (message : μ) (ignored : Bool) : Transcript δ μ :=
  match t.refreshes with
  | [] => { t with stance := .waiting l message ignored }
  | outcome :: rest => { t with refreshes := rest }.answer l message ignored outcome

def readMessage [Decoder δ μ] (t : Transcript δ μ) (l : Lsn) (message : μ) : Transcript δ μ :=
  match Decoder.classOf δ message with
  | .begin micros =>
    (Time.ServerClock.toInstant? micros).elim (t.fail (.invalidMessage (.commitTimeRange micros)))
      fun time => { t with commitTime := time }.emit l message
  | .change ignored true => t.await l message ignored
  | .change ignored false => t.settle l message ignored
  | .other => t.emit l message

/-- Goes on with what was decoded; whatever a decoder fails with is a failure to decode. -/
def readDecoded [Decoder δ μ] (t : Transcript δ μ) (l : Lsn) :
    Except Error (Option μ) → Transcript δ μ
  | .error (.decode fault) => t.fail (.decode fault)
  | .error e => t.fail (.decode (.other e.message))
  | .ok none => t
  | .ok (some message) => t.readMessage l message

def readRecord [Decoder δ μ] (t : Transcript δ μ) (start : Lsn) (data : Bytes) : Transcript δ μ :=
  if range : start.offset + data.length < UInt64.size then
    { t with decoder := (Decoder.decode t.decoder data).2 }.readDecoded ⟨_, range⟩
      (Decoder.decode t.decoder data).1
  else t.fail (.invalidMessage (.lsnOverflow start))

def readContent [Decoder δ μ] (t : Transcript δ μ) :
    Except Error (Option (Lsn × Bytes)) → Transcript δ μ
  | .error e => t.fail e
  | .ok none => t
  | .ok (some (start, data)) => t.readRecord start data

/-- A failure ends the reading, and so does a refresh whose end is not known. -/
def read [Decoder δ μ] (t : Transcript δ μ) (frame : Frame) : Transcript δ μ :=
  match t.stance with
  | .reading => t.readContent frame.content
  | _ => t

end Transcript

def transcript {δ μ : Type} [Decoder δ μ] (decoder : δ) (refreshes : List (Except Error Unit))
    (frames : List Frame) : Transcript δ μ :=
  frames.foldl Transcript.read ⟨decoder, .epoch, refreshes, [], .reading⟩

namespace Transcript

variable {δ μ : Type}

def more (t : Transcript δ μ) (outcome : Except Error Unit) : Transcript δ μ :=
  { t with refreshes := t.refreshes ++ [outcome] }

/-- It turns out how one more refresh ends. -/
def supply [Decoder δ μ] (t : Transcript δ μ) (outcome : Except Error Unit) : Transcript δ μ :=
  match t.stance with
  | .waiting l message ignored => t.answer l message ignored outcome
  | _ => t.more outcome

variable [Decoder δ μ]

theorem supply_of_reading {t : Transcript δ μ} (reading : t.stance = .reading)
    (outcome : Except Error Unit) :
    t.supply outcome = t.more outcome := by
  rw [supply, reading]

theorem settle_more (t : Transcript δ μ) (l : Lsn) (message : μ) (ignored : Bool)
    (outcome : Except Error Unit) :
    (t.more outcome).settle l message ignored =
      (t.settle l message ignored).supply outcome := by
  cases ignored <;> rfl

theorem answer_more (t : Transcript δ μ) (l : Lsn) (message : μ) (ignored : Bool)
    (first outcome : Except Error Unit) :
    (t.more outcome).answer l message ignored first =
      (t.answer l message ignored first).supply outcome := by
  cases first with
  | error e => rfl
  | ok => exact settle_more { t with decoder := Decoder.refreshed t.decoder } l message ignored outcome

theorem await_more (t : Transcript δ μ) (l : Lsn) (message : μ) (ignored : Bool)
    (outcome : Except Error Unit) :
    (t.more outcome).await l message ignored =
      (t.await l message ignored).supply outcome := by
  obtain ⟨decoder, commitTime, refreshes, changes, stance⟩ := t
  cases refreshes with
  | nil => cases outcome <;> cases ignored <;> rfl
  | cons first rest => exact answer_more ⟨decoder, commitTime, rest, changes, stance⟩ ..

theorem readMessage_more (t : Transcript δ μ) (l : Lsn) (message : μ) (outcome : Except Error Unit) :
    (t.more outcome).readMessage l message =
      (t.readMessage l message).supply outcome := by
  unfold readMessage
  split
  · rename_i micros _
    cases time : Time.ServerClock.toInstant? micros <;> rfl
  · exact await_more t l message _ outcome
  · exact settle_more t l message _ outcome
  · rfl

theorem readDecoded_more {t : Transcript δ μ} (reading : t.stance = .reading) (l : Lsn)
    (decoded : Except Error (Option μ)) (outcome : Except Error Unit) :
    (t.more outcome).readDecoded l decoded =
      (t.readDecoded l decoded).supply outcome := by
  rcases decoded with e | _ | message
  · cases e <;> rfl
  · exact (supply_of_reading reading outcome).symm
  · exact readMessage_more t l message outcome

theorem readRecord_more {t : Transcript δ μ} (reading : t.stance = .reading) (start : Lsn)
    (data : Bytes) (outcome : Except Error Unit) :
    (t.more outcome).readRecord start data =
      (t.readRecord start data).supply outcome := by
  unfold readRecord
  split
  · exact readDecoded_more (t := { t with decoder := (Decoder.decode t.decoder data).2 }) reading ..
  · rfl

theorem read_of_reading {t : Transcript δ μ} (reading : t.stance = .reading) (frame : Frame) :
    t.read frame = t.readContent frame.content := by
  rw [read, reading]

/-- Knowing more of the refreshes beforehand comes to the same as learning of it afterwards. -/
theorem read_more {t : Transcript δ μ} (reading : t.stance = .reading) (frame : Frame)
    (outcome : Except Error Unit) :
    (t.more outcome).read frame = (t.read frame).supply outcome := by
  rw [read_of_reading reading, read_of_reading (t := t.more outcome) reading]
  rcases frame.content with e | _ | ⟨start, data⟩
  · rfl
  · exact (supply_of_reading reading outcome).symm
  · exact readRecord_more reading start data outcome

theorem reading_of_read {t : Transcript δ μ} {frame : Frame} (h : (t.read frame).stance = .reading) :
    t.stance = .reading := by
  unfold read at h
  split at h
  · assumption
  · exact h

end Transcript

section Frames

variable {δ μ : Type} [Decoder δ μ] {decoder : δ} {refreshes : List (Except Error Unit)}
  {frames : List Frame}

@[simp] theorem transcript_append_singleton {frame : Frame} :
    transcript decoder refreshes (frames ++ [frame]) =
      (transcript decoder refreshes frames).read frame := by
  simp [transcript]

theorem transcript_more (outcome : Except Error Unit)
    (reading : (transcript decoder refreshes frames).stance = .reading) :
    transcript decoder (refreshes ++ [outcome]) frames =
      (transcript decoder refreshes frames).supply outcome := by
  induction frames using List.reverseRecOn with
  | nil => rfl
  | append_singleton frames frame ih =>
    rw [transcript_append_singleton] at reading ⊢
    have before := Transcript.reading_of_read reading
    rw [transcript_append_singleton, ih before, Transcript.supply_of_reading before,
      Transcript.read_more before]

/-- The refresh that is waited for belongs to the last frame. -/
theorem transcript_more_of_last (frame : Frame) (outcome : Except Error Unit)
    (reading : (transcript decoder refreshes frames).stance = .reading) :
    transcript decoder (refreshes ++ [outcome]) (frames ++ [frame]) =
      (transcript decoder refreshes (frames ++ [frame])).supply outcome := by
  rw [transcript_append_singleton, transcript_append_singleton, transcript_more outcome reading,
    Transcript.supply_of_reading reading, Transcript.read_more reading]

end Frames

end ChangeFeed.Feed
