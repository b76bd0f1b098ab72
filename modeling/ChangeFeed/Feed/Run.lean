import ChangeFeed.Checkpoint.Basic
import ChangeFeed.Decoder
import ChangeFeed.Feed.Ledger
import ChangeFeed.Lifecycle
import ChangeFeed.Stream.Status
import ChangeFeed.Time.ServerClock

/-!
The feed: a task that turns the frames of a streaming connection into changes on a bounded channel
and reports how far the consumer has come. Between two moves it is in a `Phase`; `Run.apply` says
which moves a phase allows and what each does. Whoever runs the task chooses the moves: what the
transport delivers and when, how a refresh ends, when the clock has reached the next report.
-/
namespace ChangeFeed.Feed

inductive Phase (μ : Type)
  | checking
  | reporting (update : StatusUpdate)
  /-- Waiting for a request to stop, a frame, or the time of the next report. -/
  | listening
  /-- Waiting for new metadata after `message`, whose record ends at `lsn`. -/
  | refreshing (lsn : Lsn) (message : μ) (ignore : Bool)
  | offering (change : Change μ)
  | closing (result : Except Error Unit)
  | releasing (result : Except Error Unit)
  | publishing (result : Except Error Unit)
  | ended

structure Channel (μ : Type) where
  capacity : Nat
  /-- Changes sent and not yet received, the oldest first. -/
  buffer : List (Change μ)
  hasSender : Bool
  hasReceiver : Bool

namespace Channel

/-- The most changes that a channel can be made for. -/
def maxCapacity : Nat := (1 <<< 61) - 1

/-- A channel for at least one change, unless it is asked to hold too many. -/
def open? (μ : Type) (capacity : Nat) : Option (Channel μ) :=
  if 0 < capacity ∧ capacity ≤ maxCapacity then some ⟨capacity, [], true, true⟩ else none

/-- What is said of a capacity that no channel can have. -/
def refusal (capacity : Nat) : String :=
  if capacity = 0 then "mpsc bounded channel requires buffer > 0"
  else "a semaphore may not have more than MAX_PERMITS permits (2305843009213693951)"

end Channel

structure Run (δ μ : Type) where
  decoder : δ
  phase : Phase μ
  /-- Milliseconds from one report to the next. -/
  interval : Nat
  /-- When the next report is due. -/
  nextReport : Nat
  /-- The commit time of the transaction that the stream is in. -/
  commitTime : Time.Instant
  ledger : Ledger
  channel : Channel μ
  life : Lifecycle

/-- What the task sees when it moves: the time that passes, in milliseconds, the position that the
consumer has confirmed, and the clock on the wall. -/
structure View where
  now : Nat
  acked : Lsn
  wallClock : Int

/-- What happens in a move, as far as others can see it. -/
inductive Event (μ : Type)
  | reported (update : StatusUpdate)
  | decoded (data : Bytes)
  | refreshed
  | sent (change : Change μ)
  | closed

inductive Move
  | check
  /-- The transport has taken the report, or failed to. -/
  | report (outcome : Except Error Unit)
  /-- Notices the request to stop while it waits for a frame. -/
  | heed
  | take (frame : Except Error Frame)
  /-- The time of the next report comes while it waits for a frame. -/
  | expire
  | refresh (outcome : Except Error Unit)
  | deliver
  /-- Notices that nobody receives any more. -/
  | lose
  /-- Notices the request to stop while it waits for room; the change is dropped. -/
  | abandon
  | close
  | release
  | publish

namespace Run

variable {δ μ : Type}

/-- The latest time that the clock can tell, in milliseconds. -/
def clockLimit : Nat := UInt64.size / 2 * 1000

/-- The time `interval` from now, if the clock reaches it. -/
def due? (now interval : Nat) : Option Nat :=
  if now + interval < clockLimit then some (now + interval) else none

/-- A task that breaks off lets go of its end of the channel and reports nothing. -/
def panic (r : Run δ μ) (task : Nat) (message : String) : Run δ μ :=
  { r with
    phase := .ended
    channel := { r.channel with hasSender := false }
    life := r.life.finish (.panicked task message) }

/-- Waits for the next report from `now` on, in phase `next`. -/
def schedule (r : Run δ μ) (now : Nat) (next : Phase μ) : Run δ μ :=
  match due? now r.interval with
  | some t => { r with nextReport := t, phase := next }
  | none => r.panic 0 "overflow when adding duration to instant"

def spawn (decoder : δ) (interval : Nat) (channel : Channel μ) (phase : Phase μ) : Run δ μ :=
  { decoder, phase, interval, nextReport := 0, commitTime := .epoch
    ledger := .fresh, channel, life := .started }

def start (decoder : δ) (interval : Nat) (channel : Channel μ) (now : Nat) : Run δ μ :=
  (spawn decoder interval channel .checking).schedule now .checking

/-- A task that has no connection to read from. -/
def startWithoutConnection (decoder : δ) (interval : Nat) (channel : Channel μ) : Run δ μ :=
  spawn decoder interval channel (.closing (.error (.replication .notOpen)))

/-- Ends the work; that the receiver has gone is no failure. -/
def conclude (r : Run δ μ) (e : Error) : Run δ μ :=
  { r with phase := .closing (if e = .shutdown then .ok () else .error e) }

/-- Looks at the clock at once. -/
def hurry (r : Run δ μ) (now : Nat) : Run δ μ := { r with nextReport := now, phase := .checking }

def skip (r : Run δ μ) (l : Lsn) : Run δ μ := { r with ledger := r.ledger.skip l, phase := .checking }

def forward (r : Run δ μ) (l : Lsn) (message : μ) : Run δ μ :=
  { r with
    ledger := r.ledger.forward l
    phase := .offering ⟨⟨l, r.commitTime⟩, message⟩ }

/-- Whatever a decoder fails with is a failure to decode. -/
def decodeError (e : Error) : Error :=
  match e with
  | .decode _ => e
  | _ => .decode (.other e.message)

/-- A transaction that commits `micros` after 2000-01-01 begins with `message`. -/
def openTransaction (r : Run δ μ) (l : Lsn) (message : μ) (micros : Nat) : Run δ μ :=
  (Time.ServerClock.toInstant? micros).elim
    (r.conclude (.invalidMessage (.commitTimeRange micros)))
    fun t => { r with commitTime := t }.forward l message

/-- What becomes of a decoded message whose record ends at `l`. -/
def dispatch [Decoder δ μ] (r : Run δ μ) (l : Lsn) (message : μ) : Run δ μ × List (Event μ) :=
  match Decoder.classOf δ message with
  | .begin micros => (r.openTransaction l message micros, [])
  | .change ignore true => ({ r with phase := .refreshing l message ignore }, [.refreshed])
  | .change true false => (r.skip l, [])
  | .change false false => (r.forward l message, [])
  | .other => (r.forward l message, [])

/-- Decodes a record, unless its end exceeds the range of positions. -/
def record [Decoder δ μ] (r : Run δ μ) (start : Lsn) (data : Bytes) : Run δ μ × List (Event μ) :=
  match start.advance? data.length with
  | none => (r.conclude (.invalidMessage (.lsnOverflow start)), [])
  | some l =>
    let (outcome, decoder) := Decoder.decode r.decoder data
    let r := { r with decoder }
    match outcome with
    | .error e => (r.conclude (decodeError e), [.decoded data])
    | .ok none => (r.skip l, [.decoded data])
    | .ok (some message) =>
      let (r, events) := r.dispatch l message
      (r, .decoded data :: events)

def take [Decoder δ μ] (r : Run δ μ) (now : Nat) (frame : Except Error Frame) :
    Run δ μ × List (Event μ) :=
  match frame with
  | .error e => (r.conclude e, [])
  | .ok (.unexpected kind) => (r.conclude (.protocol (.unexpectedFrame kind)), [])
  | .ok (.copyData payload) =>
    match StreamMessage.parse payload with
    | .error e => (r.conclude e, [])
    | .ok (.keepalive _ _ true) => (r.hurry now, [])
    | .ok (.keepalive _ _ false) => ({ r with phase := .checking }, [])
    | .ok (.record start _ _ data) => r.record start data

/-- The task after a move, and what happened in it; nothing if the phase does not allow the move. -/
def apply [Decoder δ μ] (r : Run δ μ) (v : View) (move : Move) : Option (Run δ μ × List (Event μ)) :=
  match r.phase, move with
  | .checking, .check =>
    if r.nextReport ≤ v.now then
      let ledger := r.ledger.report v.acked
      let update := StatusUpdate.acknowledge ledger.reported v.wallClock
      some ({ r with ledger, phase := .reporting update }, [.reported update])
    else some ({ r with phase := .listening }, [])
  | .reporting _, .report (.error e) => some (r.conclude e, [])
  | .reporting _, .report (.ok _) =>
    let next := if r.life.stopRequested then .closing (.ok ()) else .listening
    some (r.schedule v.now next, [])
  | .listening, .heed => if r.life.stopRequested then some (r.hurry v.now, []) else none
  | .listening, .take frame => if r.life.stopRequested then none else some (r.take v.now frame)
  | .listening, .expire =>
    if !r.life.stopRequested && r.nextReport ≤ v.now then some ({ r with phase := .checking }, [])
    else none
  | .refreshing _ _ _, .refresh (.error e) => some (r.conclude (.schemaRefresh e), [])
  | .refreshing l message ignore, .refresh (.ok _) =>
    let r := { r with decoder := Decoder.refreshed r.decoder }
    some (if ignore then r.skip l else r.forward l message, [])
  | .offering change, .deliver =>
    if r.channel.hasReceiver && r.channel.buffer.length < r.channel.capacity then
      let channel := { r.channel with buffer := r.channel.buffer ++ [change] }
      some ({ r with channel, phase := .checking }, [.sent change])
    else none
  | .offering _, .lose => if r.channel.hasReceiver then none else some (r.conclude .shutdown, [])
  | .offering _, .abandon =>
    if r.channel.hasReceiver && r.channel.capacity ≤ r.channel.buffer.length &&
        r.life.stopRequested then
      some (r.hurry v.now, [])
    else none
  | .closing result, .close => some ({ r with phase := .releasing result }, [.closed])
  | .releasing result, .release =>
    some ({ r with phase := .publishing result, channel := { r.channel with hasSender := false } }, [])
  | .publishing result, .publish =>
    some ({ r with phase := .ended, life := r.life.finish (.returned result) }, [])
  | _, _ => none

/-- What trying to receive finds. -/
inductive Received (μ : Type)
  | change (c : Change μ)
  | empty
  | closed
  | dropped

def receive (r : Run δ μ) : Received μ × Run δ μ :=
  if r.channel.hasReceiver then
    match r.channel.buffer with
    | c :: rest => (.change c, { r with channel := { r.channel with buffer := rest } })
    | [] => (if r.channel.hasSender then .empty else .closed, r)
  else (.dropped, r)

def dropReceiver (r : Run δ μ) : Run δ μ :=
  { r with channel := { r.channel with hasReceiver := false, buffer := [] } }

def requestStop (r : Run δ μ) : Run δ μ := { r with life := r.life.requestStop }

end Run

end ChangeFeed.Feed
