import ChangeFeed.Pglogical.Frame
import ChangeFeed.Proofs.Feed.Keeping
import ChangeFeed.Proofs.Feed.Transcript

/-!
What the feed puts on the channel. Main statement: however the feed is run, the changes made of the
frames are those of a plain reading of the frames, and all of them but the last one are on the channel.
-/
namespace ChangeFeed

theorem StreamMessage.parse_ne_shutdown (payload : Bytes) : parse payload ≠ .error .shutdown := by
  unfold parse
  split
  · simp
  · repeat' split
    all_goals simp

/-- A frame that cannot be read never counts as a lost receiver. -/
theorem Frame.content_ne_shutdown {frame : Frame} {e : Error} (h : frame.content = .error e) :
    e ≠ .shutdown := by
  rintro rfl
  cases frame with
  | unexpected kind => simp [content] at h
  | copyData payload =>
    rw [content] at h
    split at h
    · rename_i parsed
      cases h
      exact StreamMessage.parse_ne_shutdown payload parsed
    · cases h
    · cases h

namespace Feed

variable {δ μ : Type}

/-- What the stance of a reader says of the task, if the transport has failed with the errors `lost`. -/
def Stance.Fits (r : Run δ μ) (lost : List Error) : Stance μ → Prop
  | .reading => (∀ l m ignored, r.phase ≠ .refreshing l m ignored) ∧
      ∀ e, r.outcome? = some (.error e) → e ∈ lost
  | .waiting l m ignored => r.phase = .refreshing l m ignored
  | .failed e => r.outcome? = some (.error e)

/-- The reader has come as far as the task. -/
structure Transcript.Abreast (t : Transcript δ μ) (r : Run δ μ) : Prop where
  decoder : t.decoder = r.decoder
  commitTime : t.commitTime = r.commitTime
  refreshes : t.refreshes = []

structure Transcript.Follows (t : Transcript δ μ) (r : Run δ μ) (lost : List Error) : Prop where
  abreast : t.Abreast r
  stance : t.stance.Fits r lost

namespace Transcript

variable [Decoder δ μ] {t : Transcript δ μ} {start l : Lsn} {data : Bytes}

theorem readRecord_of_advance (ends : start.advance? data.length = some l) :
    t.readRecord start data =
      { t with decoder := (Decoder.decode t.decoder data).2 }.readDecoded l
        (Decoder.decode t.decoder data).1 := by
  unfold Lsn.advance? Lsn.ofNat? at ends
  split at ends
  · rename_i range
    cases ends
    rw [readRecord, dif_pos range]
  · cases ends

theorem readRecord_of_overflow (ends : start.advance? data.length = none) :
    t.readRecord start data = t.fail (.invalidMessage (.lsnOverflow start)) := by
  unfold Lsn.advance? Lsn.ofNat? at ends
  split at ends
  · cases ends
  · rename_i range
    rw [readRecord, dif_neg range]

theorem readDecoded_error (e : Error) :
    t.readDecoded l (.error e) = t.fail (Run.decodeError e) := by
  cases e <;> rfl

end Transcript

theorem Run.decodeError_ne_shutdown (e : Error) : decodeError e ≠ .shutdown := by
  unfold decodeError
  split <;> simp

theorem Run.outcome?_conclude (r : Run δ μ) {e : Error} (h : e ≠ .shutdown) :
    (r.conclude e).outcome? = some (.error e) := by
  simp [conclude, outcome?, h]

theorem Run.eq_of_outcome?_conclude {r : Run δ μ} {e e' : Error}
    (h : (r.conclude e).outcome? = some (.error e')) : e = e' := by
  simp only [conclude, outcome?, Option.some.injEq] at h
  split at h <;> cases h
  rfl

namespace Transcript.Follows

variable {t : Transcript δ μ} {r : Run δ μ} {lost : List Error}

theorem waiting_iff (follows : t.Follows r lost) {l : Lsn} {m : μ} {ignored : Bool} :
    t.stance = .waiting l m ignored ↔ r.phase = .refreshing l m ignored := by
  have fits := follows.stance
  cases stance : t.stance with
  | reading => rw [stance] at fits; simp [fits.1 l m ignored]
  | waiting k n other =>
    rw [stance] at fits
    rw [show r.phase = .refreshing k n other from fits]
    simp
  | failed e =>
    rw [stance] at fits
    simp only [reduceCtorEq, false_iff]
    intro phase
    simp [Stance.Fits, Run.outcome?, phase] at fits

theorem reading (follows : t.Follows r lost) (phase : r.phase = .listening) :
    t.stance = .reading := by
  have fits := follows.stance
  cases stance : t.stance with
  | reading => rfl
  | waiting l m ignored => rw [follows.waiting_iff.mp stance] at phase; cases phase
  | failed e => simp [stance, Stance.Fits, Run.outcome?, phase] at fits

theorem outcome (follows : t.Follows r lost) {e : Error} (failed : t.stance = .failed e) :
    r.outcome? = some (.error e) := by
  have fits := follows.stance
  rwa [failed] at fits

theorem error (follows : t.Follows r lost) {e : Error} (failed : r.outcome? = some (.error e)) :
    t.stance = .failed e ∨ e ∈ lost := by
  have fits := follows.stance
  cases stance : t.stance with
  | reading => rw [stance] at fits; exact Or.inr (fits.2 e failed)
  | waiting l m ignored =>
    have phase := follows.waiting_iff.mp stance
    simp [Run.outcome?, phase] at failed
  | failed e' =>
    rw [follows.outcome stance] at failed
    cases failed
    exact Or.inl rfl

end Transcript.Follows

section Simulation

variable {t : Transcript δ μ} {r r' : Run δ μ} {lost : List Error}

namespace Transcript.Abreast

theorem fail (abreast : t.Abreast r) {e : Error} (h : e ≠ .shutdown) :
    (t.fail e).Follows (r.conclude e) lost ∧
      (t.fail e).changes = t.changes ++ (r.conclude e).phase.offered?.toList :=
  ⟨⟨⟨abreast.decoder, abreast.commitTime, abreast.refreshes⟩, r.outcome?_conclude h⟩,
    (List.append_nil _).symm⟩

theorem pass (abreast : t.Abreast r) (reading : t.stance = .reading) (phase : r.phase = .checking) :
    t.Follows r lost ∧ t.changes = t.changes ++ r.phase.offered?.toList := by
  refine ⟨⟨abreast, ?_⟩, by simp [phase, Phase.offered?]⟩
  rw [reading]
  exact ⟨by simp [phase], by simp [Run.outcome?, phase]⟩

theorem emit (abreast : t.Abreast r) (l : Lsn) (message : μ) :
    (t.emit l message).Follows (r.forward l message) lost ∧
      (t.emit l message).changes = t.changes ++ (r.forward l message).phase.offered?.toList := by
  obtain ⟨decoder, commitTime, refreshes⟩ := abreast
  constructor
  · exact ⟨⟨decoder, commitTime, refreshes⟩, by simp [Run.forward], by simp [Run.outcome?, Run.forward]⟩
  · simp [Transcript.emit, Run.forward, Phase.offered?, commitTime]

theorem settle (abreast : t.Abreast r) (l : Lsn) (message : μ) (ignored : Bool) :
    (t.settle l message ignored).Follows (if ignored then r.skip l else r.forward l message) lost ∧
      (t.settle l message ignored).changes = t.changes ++
        (if ignored then r.skip l else r.forward l message).phase.offered?.toList := by
  obtain ⟨decoder, commitTime, refreshes⟩ := id abreast
  cases ignored with
  | false => exact abreast.emit l message
  | true => exact pass (t := { t with stance := .reading }) ⟨decoder, commitTime, refreshes⟩ rfl rfl

end Transcript.Abreast

variable [Decoder δ μ]

theorem Transcript.Abreast.refreshed (abreast : t.Abreast r) :
    Transcript.Abreast { t with decoder := Decoder.refreshed t.decoder }
      { r with decoder := Decoder.refreshed r.decoder } :=
  ⟨congrArg Decoder.refreshed abreast.decoder, abreast.commitTime, abreast.refreshes⟩

/-- The reader makes of a frame what the task makes of it. -/
theorem Transcript.Abreast.take (lost : List Error) {now : Nat} {frame : Frame}
    {events : List (Event μ)} (abreast : t.Abreast r) (reading : t.stance = .reading)
    (takes : Run.Takes r now (.ok frame) r' events) :
    (t.read frame).Follows r' lost ∧
      (t.read frame).changes = t.changes ++ r'.phase.offered?.toList := by
  obtain ⟨decoder, commitTime, refreshes⟩ := id abreast
  have decoded (d : δ) : Transcript.Abreast { t with decoder := d } { r with decoder := d } :=
    ⟨rfl, commitTime, refreshes⟩
  rw [Transcript.read_of_reading reading]
  cases takes with
  | refused carries =>
    rw [carries]
    exact abreast.fail (Frame.content_ne_shutdown carries)
  | overflow carries ends =>
    rw [carries, readContent, readRecord_of_overflow ends]
    exact abreast.fail (by simp)
  | @undecoded _ _ _ _ e d carries ends fails =>
    rw [carries, readContent, readRecord_of_advance ends, decoder, fails, readDecoded_error]
    exact (decoded d).fail (Run.decodeError_ne_shutdown e)
  | @undated _ _ _ _ m d _ carries ends gives cls time =>
    rw [carries, readContent, readRecord_of_advance ends, decoder, gives, readDecoded, readMessage, cls]
    dsimp only
    rw [time]
    exact (decoded d).fail (by simp)
  | answer carries =>
    rw [carries]
    exact pass ⟨decoder, commitTime, refreshes⟩ reading rfl
  | ignore carries =>
    rw [carries]
    exact pass ⟨decoder, commitTime, refreshes⟩ reading rfl
  | @filter _ _ _ _ d carries ends gives =>
    rw [carries, readContent, readRecord_of_advance ends, decoder, gives]
    exact pass ⟨rfl, commitTime, refreshes⟩ reading rfl
  | @skip _ _ _ _ m d carries ends gives cls =>
    rw [carries, readContent, readRecord_of_advance ends, decoder, gives, readDecoded, readMessage, cls]
    exact (decoded d).settle _ m true
  | @refresh _ _ _ l m d ignored carries ends gives cls =>
    rw [carries, readContent, readRecord_of_advance ends, decoder, gives, readDecoded, readMessage, cls]
    dsimp only
    rw [await, refreshes]
    exact ⟨⟨⟨rfl, commitTime, rfl⟩, rfl⟩, (List.append_nil _).symm⟩
  | @forward _ _ _ l m d time carries ends gives forwards =>
    rw [carries, readContent, readRecord_of_advance ends, decoder, gives, readDecoded, readMessage]
    cases forwards with
    | begin cls dated =>
      rw [cls]
      dsimp only
      rw [dated]
      exact emit (t := { t with decoder := d, commitTime := time })
        (r := { r with decoder := d, commitTime := time }) ⟨rfl, rfl, refreshes⟩ l m
    | change cls => rw [cls]; exact (decoded d).emit l m
    | other cls => rw [cls]; exact (decoded d).emit l m

section Steps

variable {s s' : Situation δ μ} {act : Act} {events : List (Event μ)}

theorem Leads.refreshing_stays {l : Lsn} {m : μ} {ignored : Bool} (leads : Leads s act s' events)
    (waiting : s.run.phase = .refreshing l m ignored)
    (unended : Step.refreshed? ⟨s, act, events, s'⟩ = none) : s'.run.phase = .refreshing l m ignored := by
  cases leads with
  | move h => cases Run.makes_of_apply h <;> simp_all [Step.refreshed?]
  | receive => rw [Run.receive_snd]; exact waiting
  | _ => exact waiting

/-- Where an error comes from that no frame and no refresh has caused. -/
theorem Leads.error_origin {e : Error} (leads : Leads s act s' events)
    (unread : Step.frame? ⟨s, act, events, s'⟩ = none)
    (unrefreshed : Step.refreshed? ⟨s, act, events, s'⟩ = none)
    (failed : s'.run.outcome? = some (.error e)) :
    s.run.outcome? = some (.error e) ∨ Step.failure? ⟨s, act, events, s'⟩ = some e := by
  cases leads with
  | move h =>
    cases Run.makes_of_apply h with
    | take _ _ takes =>
      cases takes with
      | lost => cases Run.eq_of_outcome?_conclude failed; exact Or.inr rfl
      | _ => cases unread
    | unreported => cases Run.eq_of_outcome?_conclude failed; exact Or.inr rfl
    | close phase | release phase => exact Or.inl (by rw [Run.outcome?, phase]; exact failed)
    | publish phase => exact Or.inl (by rw [Run.outcome?, phase]; exact failed)
    | unrefreshed | refreshSkip | refreshForward => cases unrefreshed
    | _ => cases failed
  | receive => rw [Run.receive_snd] at failed; exact Or.inl failed
  | requestStop =>
    simp only [Run.requestStop, Lifecycle.requestStop] at failed
    split at failed <;> exact Or.inl failed
  | _ => exact Or.inl failed

theorem Leads.decoder_stays (leads : Leads s act s' events)
    (unread : Step.frame? ⟨s, act, events, s'⟩ = none)
    (unrefreshed : Step.refreshed? ⟨s, act, events, s'⟩ = none) :
    s'.run.decoder = s.run.decoder ∧ s'.run.commitTime = s.run.commitTime := by
  cases leads with
  | move h =>
    cases Run.makes_of_apply h with
    | take _ _ takes =>
      cases takes with
      | lost => exact ⟨rfl, rfl⟩
      | _ => cases unread
    | refreshSkip | refreshForward => cases unrefreshed
    | _ => exact ⟨rfl, rfl⟩
  | receive => rw [Run.receive_snd]; exact ⟨rfl, rfl⟩
  | _ => exact ⟨rfl, rfl⟩

theorem Transcript.Follows.rest (follows : t.Follows s.run lost) (leads : Leads s act s' events)
    (unread : Step.frame? ⟨s, act, events, s'⟩ = none)
    (unrefreshed : Step.refreshed? ⟨s, act, events, s'⟩ = none) :
    t.Follows s'.run (lost ++ (Step.failure? ⟨s, act, events, s'⟩).toList) := by
  obtain ⟨decoder, commitTime⟩ := leads.decoder_stays unread unrefreshed
  obtain ⟨abreast, fits⟩ := follows
  refine ⟨⟨by rw [decoder, abreast.decoder], by rw [commitTime, abreast.commitTime],
    abreast.refreshes⟩, ?_⟩
  cases stance : t.stance with
  | reading =>
    rw [stance] at fits
    refine ⟨fun l m ignored now => fits.1 l m ignored (leads.refreshing_origin unread now), ?_⟩
    intro e failed
    rcases leads.error_origin unread unrefreshed failed with old | new
    · exact List.mem_append_left _ (fits.2 e old)
    · simp [new]
  | waiting l m ignored =>
    rw [stance] at fits
    exact leads.refreshing_stays fits unrefreshed
  | failed e =>
    rw [stance] at fits
    exact leads.outcome_stays fits

theorem Leads.kept?_of_rest (leads : Leads s act s' events)
    (unread : Step.frame? ⟨s, act, events, s'⟩ = none)
    (unrefreshed : Step.refreshed? ⟨s, act, events, s'⟩ = none) :
    Step.kept? ⟨s, act, events, s'⟩ = none := by
  cases made : Step.kept? ⟨s, act, events, s'⟩ with
  | none => rfl
  | some c =>
    obtain ⟨offering, -, -, ⟨frame, wallClock, rfl, -⟩ | waiting⟩ := leads.kept made
    · cases unread
    · rw [leads.refreshing_stays waiting unrefreshed] at offering
      cases offering

end Steps

/-- How far a reader has come who knows what the task has been given. -/
structure Transcribed (decoder : δ) (steps : List (Step δ μ)) (s : Situation δ μ) : Prop where
  follows : (transcript decoder (refreshes steps) (frames steps)).Follows s.run (failures steps)
  changes : (transcript decoder (refreshes steps) (frames steps)).changes = kept steps
  /-- The refresh that is waited for is the last frame's. -/
  awaits : ∀ l m ignored, s.run.phase = .refreshing l m ignored → ∀ outcome,
    transcript decoder (refreshes steps ++ [outcome]) (frames steps) =
      (transcript decoder (refreshes steps) (frames steps)).supply outcome

namespace Transcribed

variable {decoder : δ} {steps : List (Step δ μ)} {s s' : Situation δ μ} {act : Act}
  {events : List (Event μ)}

theorem start {interval capacity now : Nat} {tracker : Tracker} :
    Transcribed decoder [] (.start decoder interval capacity now tracker : Situation δ μ) := by
  refine ⟨?_, rfl, ?_⟩
  · unfold Situation.start
    rcases Run.start_eq decoder interval ⟨capacity, [], true, true⟩ now with ⟨_, _, begun⟩ | ⟨_, begun⟩ <;>
      rw [begun] <;> exact ⟨⟨rfl, rfl, rfl⟩, nofun, nofun⟩
  · intro l m ignored phase
    rcases Situation.start_phase (μ := μ) decoder interval capacity now tracker with equal | equal <;>
      rw [equal] at phase <;> cases phase

theorem take (told : Transcribed decoder steps s) {frame : Frame} {wallClock : Int}
    (leads : Leads s (.move (.take (.ok frame)) wallClock) s' events) :
    Transcribed decoder (steps ++ [⟨s, .move (.take (.ok frame)) wallClock, events, s'⟩]) s' := by
  cases leads with
  | move h =>
    cases Run.makes_of_apply h with
    | take phase _ takes =>
      have reading := told.follows.reading phase
      obtain ⟨follows, changes⟩ := told.follows.abreast.take (failures steps) reading takes
      refine ⟨?_, ?_, ?_⟩
      · simpa [Step.refreshed?, Step.frame?, Step.failure?] using follows
      · rw [told.changes] at changes
        simpa [Step.refreshed?, Step.frame?, Step.kept?, phase, Phase.offered?] using changes
      · intro l m ignored _ outcome
        simpa [Step.refreshed?, Step.frame?] using transcript_more_of_last frame outcome reading

/-- The reader learns how the refresh has ended that the task was waiting for. -/
theorem answer (told : Transcribed decoder steps s) {l : Lsn} {m : μ} {ignored : Bool}
    {outcome : Except Error Unit} {wallClock : Int} (phase : s.run.phase = .refreshing l m ignored)
    (answered : ((transcript decoder (refreshes steps) (frames steps)).answer l m ignored outcome).Follows
        s'.run (failures steps) ∧
      ((transcript decoder (refreshes steps) (frames steps)).answer l m ignored outcome).changes =
        (transcript decoder (refreshes steps) (frames steps)).changes ++ s'.run.phase.offered?.toList)
    (settled : ∀ l m ignored, s'.run.phase ≠ .refreshing l m ignored) :
    Transcribed decoder (steps ++ [⟨s, .move (.refresh outcome) wallClock, events, s'⟩]) s' := by
  have now := told.awaits l m ignored phase outcome
  rw [Transcript.supply, told.follows.waiting_iff.mpr phase] at now
  dsimp only at now
  rw [← now] at answered
  obtain ⟨follows, changes⟩ := answered
  refine ⟨?_, ?_, fun l m ignored phase => absurd phase (settled l m ignored)⟩
  · simpa [Step.refreshed?, Step.frame?, Step.failure?] using follows
  · rw [told.changes] at changes
    simpa [Step.refreshed?, Step.frame?, Step.kept?, phase, Phase.offered?] using changes

theorem refresh (told : Transcribed decoder steps s) {outcome : Except Error Unit} {wallClock : Int}
    (leads : Leads s (.move (.refresh outcome) wallClock) s' events) :
    Transcribed decoder (steps ++ [⟨s, .move (.refresh outcome) wallClock, events, s'⟩]) s' := by
  have abreast := told.follows.abreast
  cases leads with
  | move h =>
    cases Run.makes_of_apply h with
    | unrefreshed phase => exact told.answer phase (abreast.fail (by simp)) (by simp [Run.conclude])
    | refreshSkip phase => exact told.answer phase (abreast.refreshed.settle _ _ true) (by simp [Run.skip])
    | refreshForward phase => exact told.answer phase (abreast.refreshed.settle _ _ false) (by simp [Run.forward])

theorem rest (told : Transcribed decoder steps s) (leads : Leads s act s' events)
    (unread : Step.frame? ⟨s, act, events, s'⟩ = none)
    (unrefreshed : Step.refreshed? ⟨s, act, events, s'⟩ = none) :
    Transcribed decoder (steps ++ [⟨s, act, events, s'⟩]) s' := by
  refine ⟨?_, ?_, ?_⟩
  · simpa [unread, unrefreshed] using told.follows.rest leads unread unrefreshed
  · simpa [unread, unrefreshed, leads.kept?_of_rest unread unrefreshed] using told.changes
  · intro l m ignored now outcome
    simpa [unread, unrefreshed] using told.awaits l m ignored (leads.refreshing_origin unread now) outcome

end Transcribed

theorem Reach.transcribed {decoder : δ} {interval capacity now : Nat} {tracker : Tracker}
    {s : Situation δ μ} {steps : List (Step δ μ)}
    (reach : Reach (.start decoder interval capacity now tracker) steps s) :
    Transcribed decoder steps s := by
  induction reach with
  | start => exact .start
  | @next steps s act s' events previous leads ih =>
    cases read : Step.frame? ⟨s, act, events, s'⟩ with
    | some frame =>
      obtain ⟨wallClock, rfl⟩ := Step.frame?_eq_some.mp read
      exact ih.take leads
    | none =>
      cases refreshed : Step.refreshed? ⟨s, act, events, s'⟩ with
      | some outcome =>
        obtain ⟨wallClock, rfl⟩ := Step.refreshed?_eq_some.mp refreshed
        exact ih.refresh leads
      | none => exact ih.rest leads read refreshed

/-- The changes of the frames taken are those that a plain reading of the frames gives, in order. All of
them have been put on the channel but at most the last one, which waits for room or was given up, for a
stop or a receiver that is gone. The reader waits for a refresh exactly when the task does, and fails
exactly when the task does, unless the transport has failed. -/
theorem Reach.output_eq_transcript {decoder : δ} {interval capacity now : Nat} {tracker : Tracker}
    {s : Situation δ μ} {steps : List (Step δ μ)}
    (reach : Reach (.start decoder interval capacity now tracker) steps s) :
    let t := transcript decoder (refreshes steps) (frames steps)
    let missing := dropped steps ++ s.run.phase.offered?.toList
    t.changes = sent steps ++ missing ∧ missing.length ≤ 1 ∧
      (dropped steps ≠ [] → s.run.life.stopRequested = true ∨ s.run.channel.hasReceiver = false) ∧
      (∀ l m ignored, t.stance = .waiting l m ignored ↔ s.run.phase = .refreshing l m ignored) ∧
      (∀ e, t.stance = .failed e → s.run.outcome? = some (.error e)) ∧
      ∀ e, s.run.outcome? = some (.error e) → t.stance = .failed e ∨ e ∈ failures steps := by
  intro t missing
  have told := reach.transcribed
  have made := reach.kept_eq (Situation.start_offered ..)
  have few := reach.account.2
  refine ⟨?_, ?_, ?_, fun l m ignored => told.follows.waiting_iff, ?_, ?_⟩
  · rw [told.changes, made, List.append_assoc]
  · rcases few with none | ⟨one, spent⟩
    · simp only [missing, none, List.nil_append]
      cases s.run.phase.offered? <;> simp
    · simp [missing, spent.idle, one]
  · intro lost
    rcases few with none | ⟨-, spent⟩
    · exact absurd none lost
    · exact spent.finished.imp_right And.left
  · exact fun e failed => told.follows.outcome failed
  · exact fun e failed => told.follows.error failed

/-- Two records are read, and the second one is given up for a stop. -/
theorem output_of_stopped_feed :
    let first : Situation Pglogical.Relations Pglogical.Message := .start .empty 5 1 0 ⟨.zero⟩
    let steps := history first
      [.move .check 0, .move (.take (.ok (commitFrame ⟨10, by decide⟩))) 0, .move .deliver 0,
        .move .check 0, .move (.take (.ok (commitFrame ⟨20, by decide⟩))) 0, .requestStop,
        .move .abandon 0]
    let t := transcript first.run.decoder (refreshes steps) (frames steps)
    t.changes.map (·.checkpoint.lsn.offset) = [11, 21] ∧ (sent steps).length = 1 ∧
      ∃ s, Reach first steps s ∧
        t.changes = sent steps ++ (dropped steps ++ s.run.phase.offered?.toList) := by
  intro first steps t
  obtain ⟨s, reach⟩ : ∃ s, Reach first steps s := reach_history _ _
  exact ⟨by decide +kernel, by decide +kernel, s, reach, reach.output_eq_transcript.1⟩

end Simulation

end Feed

end ChangeFeed
