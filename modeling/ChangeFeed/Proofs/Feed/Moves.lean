import ChangeFeed.Feed.Run

/-!
Everything a move of the feed can do, one constructor for each way it can turn out. The invariants of
whole histories are derived from this list and never from the definition of a move.
-/
namespace ChangeFeed

/-- What a frame carries: a record, as its start and its data, or nothing but a heartbeat. -/
def Frame.content : Frame → Except Error (Option (Lsn × Bytes))
  | .unexpected kind => .error (.protocol (.unexpectedFrame kind))
  | .copyData payload =>
    match StreamMessage.parse payload with
    | .error e => .error e
    | .ok (.keepalive _ _ _) => .ok none
    | .ok (.record start _ _ data) => .ok (some (start, data))

/-- Whether a heartbeat asks for a report. -/
def Frame.heartbeat? : Frame → Option Bool
  | .unexpected _ => none
  | .copyData payload =>
    match StreamMessage.parse payload with
    | .ok (.keepalive _ _ reply) => some reply
    | _ => none

theorem Frame.content_of_heartbeat {frame : Frame} {reply : Bool}
    (heartbeat : frame.heartbeat? = some reply) : frame.content = .ok none := by
  unfold heartbeat? at heartbeat
  split at heartbeat
  · cases heartbeat
  · split at heartbeat
    · rename_i parsed; simp [content, parsed]
    · cases heartbeat

/-- Where the record of a frame ends, also where that exceeds the range of positions. -/
def Frame.recordEnd? (frame : Frame) : Option Nat :=
  match frame.content with
  | .ok (some (start, data)) => some (start.offset + data.length)
  | _ => none

namespace Feed.Run

variable {δ μ : Type}

theorem offset_of_advance {l m : Lsn} {n : Nat} (h : l.advance? n = some m) :
    m.offset = l.offset + n := by
  unfold Lsn.advance? Lsn.ofNat? at h
  split at h
  · cases h; rfl
  · cases h

theorem recordEnd_of_advance {frame : Frame} {start l : Lsn} {data : Bytes}
    (carries : frame.content = .ok (some (start, data))) (ends : start.advance? data.length = some l) :
    frame.recordEnd? = some l.offset := by
  rw [Frame.recordEnd?, carries, offset_of_advance ends]

/-- At its start a task is about to look at the clock, or it has broken off because the clock cannot tell
the time of its first report. -/
theorem start_eq (decoder : δ) (interval : Nat) (channel : Channel μ) (now : Nat) :
    (∃ t, due? now interval = some t ∧ start decoder interval channel now =
        { spawn decoder interval channel .checking with nextReport := t }) ∨
      due? now interval = none ∧ start decoder interval channel now =
        (spawn decoder interval channel .checking).panic 0 "overflow when adding duration to instant" := by
  unfold start schedule
  split
  · exact Or.inl ⟨_, ‹_›, rfl⟩
  · exact Or.inr ⟨‹_›, rfl⟩

/-- Whether a message becomes a change as soon as it is decoded, and at which commit time. -/
inductive Forwards [Decoder δ μ] (t : Time.Instant) (m : μ) : Time.Instant → Prop
  | begin {micros t'} : Decoder.classOf δ m = .begin micros →
      Time.ServerClock.toInstant? micros = some t' → Forwards t m t'
  | change : Decoder.classOf δ m = .change false false → Forwards t m t
  | other : Decoder.classOf δ m = .other → Forwards t m t

/-- What taking a frame, or failing to receive one, leads to. -/
inductive Takes [Decoder δ μ] (r : Run δ μ) (now : Nat) :
    Except Error Frame → Run δ μ → List (Event μ) → Prop
  | lost {e} : Takes r now (.error e) (r.conclude e) []
  | refused {frame e} : frame.content = .error e → Takes r now (.ok frame) (r.conclude e) []
  | overflow {frame start data} : frame.content = .ok (some (start, data)) →
      start.advance? data.length = none →
      Takes r now (.ok frame) (r.conclude (.invalidMessage (.lsnOverflow start))) []
  | undecoded {frame start data l e d} : frame.content = .ok (some (start, data)) →
      start.advance? data.length = some l → Decoder.decode r.decoder data = (.error e, d) →
      Takes r now (.ok frame) ({ r with decoder := d }.conclude (decodeError e)) [.decoded data]
  | undated {frame start data l m d micros} : frame.content = .ok (some (start, data)) →
      start.advance? data.length = some l → Decoder.decode r.decoder data = (.ok (some m), d) →
      Decoder.classOf δ m = .begin micros → Time.ServerClock.toInstant? micros = none →
      Takes r now (.ok frame)
        ({ r with decoder := d }.conclude (.invalidMessage (.commitTimeRange micros)))
        [.decoded data]
  | answer {frame} : frame.content = .ok none → frame.heartbeat? = some true →
      Takes r now (.ok frame) (r.hurry now) []
  | ignore {frame} : frame.content = .ok none → frame.heartbeat? = some false →
      Takes r now (.ok frame) { r with phase := .checking } []
  | filter {frame start data l d} : frame.content = .ok (some (start, data)) →
      start.advance? data.length = some l → Decoder.decode r.decoder data = (.ok none, d) →
      Takes r now (.ok frame) ({ r with decoder := d }.skip l) [.decoded data]
  | skip {frame start data l m d} : frame.content = .ok (some (start, data)) →
      start.advance? data.length = some l → Decoder.decode r.decoder data = (.ok (some m), d) →
      Decoder.classOf δ m = .change true false →
      Takes r now (.ok frame) ({ r with decoder := d }.skip l) [.decoded data]
  | refresh {frame start data l m d ignored} : frame.content = .ok (some (start, data)) →
      start.advance? data.length = some l → Decoder.decode r.decoder data = (.ok (some m), d) →
      Decoder.classOf δ m = .change ignored true →
      Takes r now (.ok frame) { r with decoder := d, phase := .refreshing l m ignored }
        [.decoded data, .refreshed]
  | forward {frame start data l m d t} : frame.content = .ok (some (start, data)) →
      start.advance? data.length = some l → Decoder.decode r.decoder data = (.ok (some m), d) →
      Forwards (δ := δ) r.commitTime m t →
      Takes r now (.ok frame) ({ r with decoder := d, commitTime := t }.forward l m) [.decoded data]

/-- What a move leads to, and what is seen of it. -/
inductive Makes [Decoder δ μ] (r : Run δ μ) (v : View) : Move → Run δ μ → List (Event μ) → Prop
  | due : r.phase = .checking → r.nextReport ≤ v.now →
      Makes r v .check
        { r with
          ledger := r.ledger.report v.acked
          phase := .reporting (.acknowledge (r.ledger.report v.acked).reported v.wallClock) }
        [.reported (.acknowledge (r.ledger.report v.acked).reported v.wallClock)]
  | early : r.phase = .checking → v.now < r.nextReport →
      Makes r v .check { r with phase := .listening } []
  | unreported {u e} : r.phase = .reporting u → Makes r v (.report (.error e)) (r.conclude e) []
  | goOn {u t} : r.phase = .reporting u → r.life.stopRequested = false →
      due? v.now r.interval = some t →
      Makes r v (.report (.ok ())) { r with nextReport := t, phase := .listening } []
  | leave {u t} : r.phase = .reporting u → r.life.stopRequested = true →
      due? v.now r.interval = some t →
      Makes r v (.report (.ok ())) { r with nextReport := t, phase := .closing (.ok ()) } []
  | breakOff {u} : r.phase = .reporting u → due? v.now r.interval = none →
      Makes r v (.report (.ok ())) (r.panic 0 "overflow when adding duration to instant") []
  | heed : r.phase = .listening → r.life.stopRequested = true → Makes r v .heed (r.hurry v.now) []
  | take {frame r' events} : r.phase = .listening → r.life.stopRequested = false →
      Takes r v.now frame r' events → Makes r v (.take frame) r' events
  | expire : r.phase = .listening → r.life.stopRequested = false → r.nextReport ≤ v.now →
      Makes r v .expire { r with phase := .checking } []
  | unrefreshed {l m ignored e} : r.phase = .refreshing l m ignored →
      Makes r v (.refresh (.error e)) (r.conclude (.schemaRefresh e)) []
  | refreshSkip {l m} : r.phase = .refreshing l m true →
      Makes r v (.refresh (.ok ())) ({ r with decoder := Decoder.refreshed r.decoder }.skip l) []
  | refreshForward {l m} : r.phase = .refreshing l m false →
      Makes r v (.refresh (.ok ())) ({ r with decoder := Decoder.refreshed r.decoder }.forward l m) []
  | deliver {c} : r.phase = .offering c → r.channel.hasReceiver = true →
      r.channel.buffer.length < r.channel.capacity →
      Makes r v .deliver
        { r with
          channel := { r.channel with buffer := r.channel.buffer ++ [c] }
          phase := .checking }
        [.sent c]
  | lose {c} : r.phase = .offering c → r.channel.hasReceiver = false →
      Makes r v .lose (r.conclude .shutdown) []
  | abandon {c} : r.phase = .offering c → r.channel.hasReceiver = true →
      r.channel.capacity ≤ r.channel.buffer.length → r.life.stopRequested = true →
      Makes r v .abandon (r.hurry v.now) []
  | close {result} : r.phase = .closing result →
      Makes r v .close { r with phase := .releasing result } [.closed]
  | release {result} : r.phase = .releasing result →
      Makes r v .release
        { r with phase := .publishing result, channel := { r.channel with hasSender := false } } []
  | publish {result} : r.phase = .publishing result →
      Makes r v .publish { r with phase := .ended, life := r.life.finish (.returned result) } []

variable [Decoder δ μ]

theorem takes_of_dispatch {r r' : Run δ μ} {now : Nat} {frame : Frame} {start l : Lsn} {data : Bytes}
    {m : μ} {d : δ} {events : List (Event μ)} (carries : frame.content = .ok (some (start, data)))
    (ends : start.advance? data.length = some l)
    (decoded : Decoder.decode r.decoder data = (.ok (some m), d))
    (h : { r with decoder := d }.dispatch l m = (r', events)) :
    Takes r now (.ok frame) r' (.decoded data :: events) := by
  unfold dispatch at h
  split at h
  · rename_i micros cls
    cases h
    cases time : Time.ServerClock.toInstant? micros with
    | some t =>
      rw [openTransaction, time, Option.elim_some]
      exact .forward carries ends decoded (.begin cls time)
    | none =>
      rw [openTransaction, time, Option.elim_none]
      exact .undated carries ends decoded cls time
  · rename_i ignored cls; cases h; exact .refresh carries ends decoded cls
  · rename_i cls; cases h; exact .skip carries ends decoded cls
  · rename_i cls; cases h; exact .forward carries ends decoded (.change cls)
  · rename_i cls; cases h; exact .forward carries ends decoded (.other cls)

theorem takes_of_record {r r' : Run δ μ} {now : Nat} {frame : Frame} {start : Lsn} {data : Bytes}
    {events : List (Event μ)} (carries : frame.content = .ok (some (start, data)))
    (h : r.record start data = (r', events)) : Takes r now (.ok frame) r' events := by
  unfold record at h
  split at h
  · rename_i ends
    cases h
    exact .overflow carries ends
  · rename_i l ends
    rcases decoded : Decoder.decode r.decoder data with ⟨e | m, d⟩
    · simp only [decoded] at h
      cases h
      exact .undecoded carries ends decoded
    · cases m with
      | none =>
        simp only [decoded] at h
        cases h
        exact .filter carries ends decoded
      | some m =>
        simp only [decoded] at h
        cases h
        exact takes_of_dispatch carries ends decoded rfl

theorem takes_of_take {r r' : Run δ μ} {now : Nat} {frame : Except Error Frame}
    {events : List (Event μ)} (h : r.take now frame = (r', events)) : Takes r now frame r' events := by
  unfold take at h
  split at h
  · cases h; exact .lost
  · cases h; exact .refused rfl
  · rename_i payload
    split at h
    · rename_i parsed; cases h; exact .refused (by simp [Frame.content, parsed])
    · rename_i parsed
      cases h
      exact .answer (by simp [Frame.content, parsed]) (by simp [Frame.heartbeat?, parsed])
    · rename_i parsed
      cases h
      exact .ignore (by simp [Frame.content, parsed]) (by simp [Frame.heartbeat?, parsed])
    · rename_i parsed; exact takes_of_record (by simp [Frame.content, parsed]) h

theorem makes_of_apply {r r' : Run δ μ} {v : View} {move : Move} {events : List (Event μ)}
    (h : r.apply v move = some (r', events)) : Makes r v move r' events := by
  unfold apply at h
  split at h
  · rename_i phase
    split at h
    · rename_i late; cases h; exact .due phase late
    · rename_i late; cases h; exact .early phase (by omega)
  · rename_i phase; cases h; exact .unreported phase
  · rename_i phase
    cases h
    unfold schedule
    split
    · rename_i time
      cases stop : r.life.stopRequested with
      | true => exact .leave phase stop time
      | false => exact .goOn phase stop time
    · rename_i time; exact .breakOff phase time
  · rename_i phase
    split at h
    · rename_i stop; cases h; exact .heed phase stop
    · cases h
  · rename_i phase
    split at h
    · cases h
    · rename_i stop
      exact .take phase (by simpa using stop) (takes_of_take (Option.some.inj h))
  · rename_i phase
    split at h
    · rename_i ready
      cases h
      simp only [Bool.and_eq_true, Bool.not_eq_true', decide_eq_true_eq] at ready
      exact .expire phase ready.1 ready.2
    · cases h
  · rename_i phase; cases h; exact .unrefreshed phase
  · rename_i ignored _ phase
    cases h
    cases ignored with
    | true => exact .refreshSkip phase
    | false => exact .refreshForward phase
  · rename_i phase
    split at h
    · rename_i ready
      cases h
      simp only [Bool.and_eq_true, decide_eq_true_eq] at ready
      exact .deliver phase ready.1 ready.2
    · cases h
  · rename_i phase
    split at h
    · cases h
    · rename_i gone; cases h; exact .lose phase (by simpa using gone)
  · rename_i phase
    split at h
    · rename_i ready
      cases h
      simp only [Bool.and_eq_true, decide_eq_true_eq] at ready
      exact .abandon phase ready.1.1 ready.1.2 ready.2
    · cases h
  · rename_i phase; cases h; exact .close phase
  · rename_i phase; cases h; exact .release phase
  · rename_i phase; cases h; exact .publish phase
  · cases h

end Feed.Run

end ChangeFeed
