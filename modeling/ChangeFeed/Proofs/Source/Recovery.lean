import ChangeFeed.Proofs.Lifecycle.Calls
import ChangeFeed.Proofs.Source.Ownership
import ChangeFeed.Proofs.Surroundings.Talks

/-!
What a source can do when the feed of its latest capture has ended. Main statement: a feed that has
returned has reported that it has stopped, and the source can be set up again; one that has broken off
never reports it, and from then on every setup is refused.
-/
namespace ChangeFeed

namespace Feed.Run

variable {δ μ : Type} {r r' : Run δ μ}

/-- The life of a feed tells how the feed stands. -/
structure Faithful (r : Run δ μ) : Prop where
  ended : r.life.ending.isSome ↔ r.phase = .ended
  honest : r.life.Honest

theorem Faithful.unended (faithful : r.Faithful) (going : r.phase ≠ .ended) : r.life.ending = none := by
  simpa using mt faithful.ended.mp going

/-- As long as a feed goes on nothing becomes of its life. -/
theorem Faithful.goes_on (faithful : r.Faithful) (going : r.phase ≠ .ended) (life : r'.life = r.life)
    (going' : r'.phase ≠ .ended) : r'.Faithful := by
  have unended := faithful.unended going
  exact ⟨by simp [life, unended, going'], life ▸ faithful.honest⟩

theorem Faithful.finish (faithful : r.Faithful) (going : r.phase ≠ .ended) (e : Ending)
    (life : r'.life = r.life.finish e) (ended : r'.phase = .ended) : r'.Faithful := by
  refine ⟨?_, life ▸ faithful.honest.finish (faithful.unended going) e⟩
  cases e <;> simp [life, Lifecycle.finish, ended]

theorem Faithful.panic (faithful : r.Faithful) (going : r.phase ≠ .ended) (task : Nat) (message : String) :
    (r.panic task message).Faithful :=
  faithful.finish going (.panicked task message) rfl rfl

theorem Faithful.keep (faithful : r.Faithful) (phase : r'.phase = r.phase)
    (life : r'.life = r.life ∨ r'.life = r.life.requestStop) : r'.Faithful := by
  obtain ⟨ended, honest⟩ := faithful
  rcases life with life | life
  · exact ⟨by rw [life, phase]; exact ended, life ▸ honest⟩
  · exact ⟨by rw [life, phase, Lifecycle.requestStop_ending]; exact ended, life ▸ honest.requestStop⟩

theorem Faithful.start (decoder : δ) (interval : Nat) (channel : Channel μ) (now : Nat) :
    (start decoder interval channel now).Faithful := by
  have spawned : (spawn decoder interval channel .checking).Faithful :=
    ⟨by simp [spawn, Lifecycle.started], Lifecycle.honest_started⟩
  rcases start_eq decoder interval channel now with ⟨_, _, begun⟩ | ⟨_, begun⟩ <;> rw [begun]
  · exact spawned.goes_on (by simp [spawn]) rfl (by simp [spawn])
  · exact spawned.panic (by simp [spawn]) _ _

theorem Faithful.apply [Decoder δ μ] (faithful : r.Faithful) {v : View} {move : Move}
    {events : List (Event μ)} (moved : r.apply v move = some (r', events)) : r'.Faithful := by
  have going : r.phase ≠ .ended := fun ended => Trial.no_move_of_ended ended moved
  cases makes_of_apply moved with
  | breakOff => exact faithful.panic going _ _
  | @publish result => exact faithful.finish going (.returned result) rfl rfl
  | take _ _ takes => cases takes <;> exact faithful.goes_on going rfl nofun
  | _ => exact faithful.goes_on going rfl nofun

/-- What may have become of a feed that stood at `r`. -/
structure Continues (r r' : Run δ μ) : Prop where
  faithful : r.Faithful → r'.Faithful
  stays : r.phase = .ended → r'.phase = .ended ∧ r'.life.ending = r.life.ending

theorem Continues.refl (r : Run δ μ) : r.Continues r := ⟨id, fun ended => ⟨ended, rfl⟩⟩

theorem Continues.trans {r'' : Run δ μ} (first : r.Continues r') (second : r'.Continues r'') : r.Continues r'' := by
  refine ⟨second.faithful ∘ first.faithful, fun ended => ?_⟩
  obtain ⟨ended', same⟩ := first.stays ended
  obtain ⟨ended'', same'⟩ := second.stays ended'
  exact ⟨ended'', same'.trans same⟩

theorem Continues.keep (phase : r'.phase = r.phase) (life : r'.life = r.life ∨ r'.life = r.life.requestStop) :
    r.Continues r' := by
  refine ⟨fun faithful => faithful.keep phase life, fun ended => ⟨phase.trans ended, ?_⟩⟩
  rcases life with life | life
  · rw [life]
  · rw [life, Lifecycle.requestStop_ending]

end Feed.Run

namespace Trial

open Feed

variable {δ μ : Type} [Decoder δ μ]

section Calls

variable {σ : Type} {s s' : Source Nat Nat σ δ μ} {w w' : Outside μ}

theorem Becomes.continues {r r' : Run δ μ} (becomes : Becomes r r') : r.Continues r' := by
  refine ⟨becomes.preserves fun faithful moved => faithful.apply moved, fun ended => ?_⟩
  cases becomes with
  | same => exact ⟨ended, rfl⟩
  | move moved => exact absurd moved (no_move_of_ended ended)

theorem attend_continues {c c' : Capture Nat Nat Unit δ μ} {acked : Lsn} {task : Task} {w w' : Outside μ}
    (holds : Holds unrestricted c.run c.desk) (run : attend c acked task w = some (c', w')) :
    c.run.Continues c'.run := by
  cases attends_of_attend holds run with
  | @turn _ next _ _ turns =>
    cases next with
    | none => exact .refl _
    | some r' =>
      obtain ⟨v, move, events, -, -, -, moved⟩ := turns.moved r' rfl
      exact (Becomes.move moved (.same r')).continues
  | channel => exact .keep rfl (.inl rfl)

/-- A stop asks the feed of the latest capture to end, and the feed then makes its moves. -/
theorem stop_continues [Control.SchemaLoader (Trial μ) σ] [QuietLoader μ σ] {commands : String → Prop}
    (left : ∀ c ∈ s.connections, c.replication = none) (latest : ∀ c ∈ s.capture, Holds commands c.run c.desk)
    {result : Except Error Unit} (run : (s.stop : Trial μ _) w = some ((result, s'), w')) :
    Option.Rel (fun c c' => c.run.Continues c'.run) s.capture s'.capture := by
  obtain ⟨u, -, -, run⟩ := stop_closes commands left run
  obtain ⟨config, connections, collaborators, tracker, capture, stream⟩ := s
  cases capture with
  | none =>
    cases run
    exact .none
  | some c =>
    obtain ⟨s₁, u', settled, rest⟩ := bind_eq_some.mp run
    have asked : c.run.Continues { c.run with life := c.run.life.requestStop } := .keep rfl (.inr rfl)
    have holds : Holds commands { c.run with life := c.run.life.requestStop } c.desk :=
      (latest c rfl).keep rfl (.inr rfl) rfl rfl
    obtain ⟨c', rfl, -, -, -, becomes, -⟩ := settled_inv rfl holds settled
    cases rest
    exact .some (asked.trans becomes.continues)

omit [Decoder δ μ] in
/-- The steps of a setup, which it does unless it is refused. -/
def provision [Control.SchemaLoader (Trial μ) σ] (config : SourceConfig) (build : Nat → Except Error (σ × δ)) :
    Trial μ (Except Error (σ × δ) × Connections Nat (Session.Connection Nat)) :=
  Source.provision config build .empty

omit [Decoder δ μ] in
/-- The answer to a setup of a source that does not capture tells what came of its steps. -/
theorem setup_answer [Control.SchemaLoader (Trial μ) σ] [QuietLoader μ σ] (idle : s.isCapturing = false)
    (left : ∀ c ∈ s.connections, c.replication = none) (build : Nat → Except Error (σ × δ)) (w : Outside μ) :
    ((s.setup build : Trial μ _) w).map (·.1.1) =
      (provision s.config build w).map fun p => p.1.1.map fun _ => () := by
  unfold Source.setup
  rw [if_neg (by simp [idle])]
  change ((provision s.config build w).bind _).map _ = _
  cases provisioned : provision s.config build w with
  | none => rfl
  | some p =>
    obtain ⟨⟨provided, k, r⟩, u⟩ := p
    obtain ⟨⟨unopened, -⟩, -⟩ := provision_does unrestricted _ _ w _ u provisioned
    cases (show r = none from unopened)
    -- Without a replication connection there is nobody who could keep a close waiting.
    cases provided with
    | error e => cases k <;> rfl
    | ok x =>
      rw [Option.bind_some]
      cases present : s.connections with
      | none => rfl
      | some old =>
        obtain ⟨k, r⟩ := old
        cases (show r = none from left _ present)
        cases k <;> rfl

end Calls

/-- What an estate may meet with. -/
inductive Incident (δ : Type)
  | deed (deed : Deed δ)
  /-- The decoder, the loader or the feed itself breaks off, in the latest capture. -/
  | breakOff (task : Nat) (message : String)

namespace Estate

def meet (e : Estate δ μ) : Incident δ → Option (Answer × Estate δ μ)
  | .deed deed => e.perform deed
  | .breakOff task message =>
    match e.source.capture with
    | some c =>
      if c.run.life.ending.isNone then
        let c := { c with run := c.run.panic task message }
        some (.none, { e with source := { e.source with capture := some c } })
      else none
    | none => none

/-- The estate after some incidents, if none of them waits for ever. -/
def through (e : Estate δ μ) : List (Incident δ) → Option (Estate δ μ)
  | [] => some e
  | i :: rest => (e.meet i).bind fun p => p.2.through rest

variable {e e' : Estate δ μ}

omit [Decoder δ μ] in
/-- What is kept of an estate whatever it meets with. -/
structure Steadfast (e : Estate δ μ) : Prop where
  sound : e.Sound
  faithful : ∀ c ∈ e.captures, c.run.Faithful

omit [Decoder δ μ] in
theorem mem_captures {c : Capture Nat Nat Unit δ μ} :
    c ∈ e.captures ↔ c ∈ e.former ∨ e.source.capture = some c := by
  simp [captures]

omit [Decoder δ μ] in
/-- What a deed does to the captures: they go on, or another is started. -/
inductive Alters (e e' : Estate δ μ) : Prop
  | goesOn : (∀ c' ∈ e'.former, ∃ c ∈ e.former, c.run.Continues c'.run) →
      Option.Rel (fun c c' => c.run.Continues c'.run) e.source.capture e'.source.capture → Alters e e'
  | starts {c} : e.source.isCapturing = false → e'.captures = e.captures ++ [c] → Fresh c.run → Alters e e'

omit [Decoder δ μ] in
theorem continues_rel (capture : Option (Capture Nat Nat Unit δ μ)) :
    Option.Rel (fun c c' => c.run.Continues c'.run) capture capture := by
  cases capture with
  | none => exact .none
  | some c => exact .some (.refl _)

omit [Decoder δ μ] in
theorem Alters.same (former : e'.former = e.former) (latest : e'.source.capture = e.source.capture) :
    Alters e e' :=
  .goesOn (fun c member => ⟨c, former ▸ member, .refl _⟩) (latest ▸ continues_rel _)

omit [Decoder δ μ] in
theorem Alters.of_starts {result : Source.Start} {s' : Source Nat Nat Unit δ μ} {w' : Outside μ}
    (starts : Starts unrestricted e.source e.outside result s' w') : Alters e ⟨s', e.formerAfter result, w'⟩ := by
  cases starts with
  | refused | unready => exact .same rfl rfl
  | failed _ _ unstarted =>
    cases result with
    | started => exact absurd rfl unstarted
    | failed | panicked => exact .same rfl rfl
  | started idle _ _ _ fresh => exact .starts idle rfl fresh

theorem Sound.alters (sound : e.Sound) {deed : Deed δ} {answer : Answer}
    (leads : e.perform deed = some (answer, e')) : Alters e e' := by
  have others : ∀ c' ∈ e.former, ∃ c ∈ e.former, c.run.Continues c'.run := fun c member => ⟨c, member, .refl _⟩
  cases performs_of_perform leads with
  | setup run =>
    have sets : SetsUp unrestricted e.source e.outside _ _ _ :=
      setup_inv (fun c member => (sound.left c member).2) run
    cases sets <;> exact .same rfl rfl
  | start run => exact .of_starts (start_inv sound.paired sound.left ⟨trivial, fun _ => trivial⟩ run)
  | stop run =>
    exact .goesOn others (stop_continues (fun c member => (sound.left c member).2) sound.latest run)
  | commit | unstarted | beyond => exact .same rfl rfl
  | tend present run =>
    refine .goesOn others ?_
    rw [present]
    exact .some (attend_continues (sound.latest _ present) run)
  | @tendFormer n task c c' _ here run =>
    have member : c ∈ e.former := List.mem_of_getElem? here
    refine .goesOn (fun d there => ?_) (continues_rel _)
    rcases List.mem_or_eq_of_mem_set there with earlier | rfl
    · exact others d earlier
    · exact ⟨c, member, attend_continues (sound.former c member).1 run⟩

omit [Decoder δ μ] in
theorem Alters.faithful (alters : Alters e e') (faithful : ∀ c ∈ e.captures, c.run.Faithful) :
    ∀ c ∈ e'.captures, c.run.Faithful := by
  intro c' member
  cases alters with
  | goesOn former latest =>
    rcases mem_captures.mp member with earlier | present'
    · obtain ⟨c, earlier, continues⟩ := former c' earlier
      exact continues.faithful (faithful c (mem_captures.mpr (.inl earlier)))
    · rw [present'] at latest
      generalize present : e.source.capture = capture at latest
      cases latest with
      | some continues => exact continues.faithful (faithful _ (mem_captures.mpr (.inr present)))
  | starts _ more fresh =>
    rw [more, List.mem_append, List.mem_singleton] at member
    rcases member with earlier | rfl
    · exact faithful c' earlier
    · obtain ⟨decoder, interval, channel, now, start, -⟩ := fresh
      rw [start]
      exact .start decoder interval channel now

theorem Steadfast.perform (steadfast : e.Steadfast) {deed : Deed δ} {answer : Answer}
    (leads : e.perform deed = some (answer, e')) : e'.Steadfast :=
  ⟨(steadfast.sound.step leads).1, (steadfast.sound.alters leads).faithful steadfast.faithful⟩

omit [Decoder δ μ] in
theorem Steadfast.breakOff (steadfast : e.Steadfast) {c : Capture Nat Nat Unit δ μ} {task : Nat}
    {message : String} (present : e.source.capture = some c) (going : c.run.life.ending = none) :
    let c' := { c with run := c.run.panic task message }
    Steadfast { e with source := { e.source with capture := some c' } } := by
  intro c'
  obtain ⟨sound, faithful⟩ := steadfast
  have own := faithful c (mem_captures.mpr (.inr present))
  have going' : c.run.phase ≠ .ended := fun ended => by simpa [going] using own.ended.mpr ended
  have unstopped : c.run.life.state ≠ .stopped := fun stopped => by simpa [going] using own.honest.mp stopped
  have holds : Holds unrestricted c'.run c'.desk := .broken rfl rfl unstopped (sound.latest c present).usable
  have capturing : e.source.isCapturing = true := by simp [Source.isCapturing, present, unstopped]
  refine ⟨⟨sound.paired, sound.left, fun _ => sound.exclusive capturing, sound.former, ?_, ?_⟩, ?_⟩
  · rintro _ ⟨⟩
    exact holds
  · have books := sound.books
    rw [Latest, present] at books
    exact books
  · intro d member
    rcases mem_captures.mp member with earlier | ⟨⟨⟩⟩
    · exact faithful d (mem_captures.mpr (.inl earlier))
    · exact own.panic going' task message

theorem Steadfast.meet (steadfast : e.Steadfast) {i : Incident δ} {answer : Answer}
    (leads : e.meet i = some (answer, e')) : e'.Steadfast := by
  cases i with
  | deed deed => exact steadfast.perform leads
  | breakOff task message =>
    simp only [Estate.meet] at leads
    split at leads
    · rename_i c present
      split at leads
      · rename_i going
        cases leads
        exact steadfast.breakOff present (by simpa using going)
      · cases leads
    · cases leads

theorem Steadfast.through (steadfast : e.Steadfast) {incidents : List (Incident δ)}
    (course : e.through incidents = some e') : e'.Steadfast := by
  induction incidents generalizing e with
  | nil => exact Option.some.inj course ▸ steadfast
  | cons i rest ih =>
    obtain ⟨⟨answer, middle⟩, leads, rest⟩ := Option.bind_eq_some_iff.mp course
    exact ih (steadfast.meet leads) rest

omit [Decoder δ μ] in
/-- The feed of the latest capture has broken off. -/
def Broken (e : Estate δ μ) : Prop :=
  ∃ c task message, e.source.capture = some c ∧ c.run.life.ending = some (.panicked task message)

omit [Decoder δ μ] in
theorem Steadfast.capturing (steadfast : e.Steadfast) (broken : e.Broken) : e.source.isCapturing = true := by
  obtain ⟨c, task, message, present, panicked⟩ := broken
  have honest := (steadfast.faithful c (mem_captures.mpr (.inr present))).honest
  have unstopped : c.run.life.state ≠ .stopped := fun stopped => by simpa [panicked] using honest.mp stopped
  simp [Source.isCapturing, present, unstopped]

theorem Steadfast.broken_perform (steadfast : e.Steadfast) (broken : e.Broken) {deed : Deed δ}
    {answer : Answer} (leads : e.perform deed = some (answer, e')) : e'.Broken := by
  have capturing := steadfast.capturing broken
  obtain ⟨c, task, message, present, panicked⟩ := broken
  have ended : c.run.phase = .ended := by
    rw [← (steadfast.faithful c (mem_captures.mpr (.inr present))).ended, panicked]
    rfl
  cases steadfast.sound.alters leads with
  | goesOn _ latest =>
    rw [present] at latest
    generalize present' : e'.source.capture = capture at latest
    cases latest with
    | some continues => exact ⟨_, task, message, present', (continues.stays ended).2.trans panicked⟩
  | starts idle => rw [capturing] at idle; cases idle

theorem Steadfast.broken_through (steadfast : e.Steadfast) (broken : e.Broken) {incidents : List (Incident δ)}
    (course : e.through incidents = some e') : e'.Broken := by
  induction incidents generalizing e with
  | nil => exact Option.some.inj course ▸ broken
  | cons i rest ih =>
    obtain ⟨⟨answer, middle⟩, leads, rest⟩ := Option.bind_eq_some_iff.mp course
    refine ih (steadfast.meet leads) ?_ rest
    cases i with
    | deed deed => exact steadfast.broken_perform broken leads
    | breakOff task message =>
      obtain ⟨c, task, message, present, panicked⟩ := broken
      simp [Estate.meet, present, panicked] at leads

/-- Every setup and every start is refused, and changes nothing. -/
def Refuses (e : Estate δ μ) : Prop :=
  (∀ build, e.perform (.setup build) = some (.setup (.error (.replication .setupWhileCapturing)), e)) ∧
    ∀ checkpoint, e.perform (.start checkpoint) =
      some (.start (.failed (.replication .alreadyCapturing)), e)

theorem refuses_of_capturing (capturing : e.source.isCapturing = true) : e.Refuses := by
  constructor
  · intro build
    have refused : (e.source.setup build : Trial μ _) e.outside =
        some ((.error (.replication .setupWhileCapturing), e.source), e.outside) := by
      unfold Source.setup
      rw [if_pos capturing]
      rfl
    simp [Estate.perform, refused]
  · intro checkpoint
    have refused : (e.source.start checkpoint : Trial μ _) e.outside =
        some ((.failed (.replication .alreadyCapturing), e.source), e.outside) := by
      unfold Source.start
      rw [if_pos capturing]
      rfl
    simp [Estate.perform, refused, formerAfter]

/-- A setup is not refused: its answer tells what came of its steps. -/
def Admits (e : Estate δ μ) : Prop :=
  ∀ build, (e.perform (.setup build)).map Prod.fst =
    (provision e.source.config build e.outside).map fun p => .setup (p.1.1.map fun _ => ())

theorem Sound.admits (sound : e.Sound) (idle : e.source.isCapturing = false) : e.Admits := by
  intro build
  have answer := setup_answer idle (fun c member => (sound.left c member).2) build e.outside
  simp only [Estate.perform, Option.map_map]
  have told := congrArg (Option.map Answer.setup) answer
  rw [Option.map_map, Option.map_map] at told
  exact told

theorem Steadfast.stopped (steadfast : e.Steadfast) {result : Except Error Unit}
    (leads : e.perform .stop = some (.stop result, e')) : ∀ c ∈ e'.captures, c.run.life.ending.isSome := by
  have after := steadfast.perform leads
  obtain ⟨-, -, ended⟩ := (steadfast.sound.step leads).2.1
  exact fun c member => (after.faithful c member).ended.mpr (ended c member).1

/-- However the tasks of a source end, and whatever it is asked meanwhile: a task that has ended has
reported that it has stopped unless it has broken off, a stop returns when all have ended, and a source
whose latest task has returned can be set up. If that task has broken off, the source refuses every
setup and every start from then on. -/
theorem recovers {config : SourceConfig} {source : Source Nat Nat Unit δ μ}
    (created : Source.create config = .ok source) {replies : List Reply} {now : Nat} {volume : Volume}
    {incidents : List (Incident δ)}
    (course : (Estate.mk source [] ⟨replies, now, volume, []⟩).through incidents = some e) :
    (∀ c ∈ e.captures, ∀ ending, c.run.life.ending = some ending →
        (c.run.life.state = .stopped ↔ ∃ result, ending = .returned result)) ∧
      (∀ result e', e.perform .stop = some (.stop result, e') →
        ∀ c ∈ e'.captures, c.run.life.ending.isSome) ∧
      ((∀ c ∈ e.source.capture, ∃ result, c.run.life.ending = some (.returned result)) → e.Admits) ∧
      (e.Broken → ∀ later e', e.through later = some e' → e'.Refuses) := by
  have start : Steadfast (Estate.mk source [] ⟨replies, now, volume, []⟩) := by
    refine ⟨sound_start created replies now volume, ?_⟩
    obtain ⟨-, rfl⟩ := Source.create_eq_ok.mp created
    simp [captures]
  have steadfast := start.through course
  refine ⟨fun c member ending ended => ?_, fun result e' leads => steadfast.stopped leads, fun returned => ?_,
    fun broken later e' course' => ?_⟩
  · have honest := (steadfast.faithful c member).honest
    rw [Lifecycle.Honest, ended] at honest
    simpa using honest
  · refine steadfast.sound.admits ?_
    cases present : e.source.capture with
    | none => simp [Source.isCapturing, present]
    | some c =>
      have honest := (steadfast.faithful c (mem_captures.mpr (.inr present))).honest
      have stopped := honest.mpr (returned c present)
      simp [Source.isCapturing, present, stopped]
  · exact refuses_of_capturing
      ((steadfast.through course').capturing (steadfast.broken_through broken course'))

section Runs

/-- The settings of a source that reports at such intervals, in seconds. -/
def reportingEvery (interval : Nat) : SourceConfig :=
  ⟨"host=a", "host=a user=b", "s", false, interval, 100, 30⟩

omit [Decoder δ μ] in
theorem create_reportingEvery (interval : Nat) (valid : (reportingEvery interval).validate = .ok ()) :
    Source.create (reportingEvery interval) =
      .ok (⟨reportingEvery interval, none, none, default, none, none⟩ : Source Nat Nat Unit δ μ) :=
  Source.create_eq_ok.mpr ⟨valid, rfl⟩

/-- What becomes of a new source that is set up, started and stopped while all goes well around it. -/
def stopped (interval : Nat) : Option (Estate Pglogical.Relations Pglogical.Message) :=
  (Estate.mk ⟨reportingEvery interval, none, none, default, none, none⟩ [] (obliging .empty)).through
    [.deed (.setup fun _ => .ok ((), .empty)), .deed (.start default), .deed .stop]

/-- What the latest task has reported, and whether it has returned. -/
def latest? (e : Estate Pglogical.Relations Pglogical.Message) : Option (LoopState × Bool) :=
  e.source.capture.map fun c => (c.run.life.state, c.run.life.ending matches some (.returned _))

/-- More seconds than the clock has left. -/
def tooLong : Nat := 1 <<< 63

/-- What the clock shows, what the latest task has reported, and how it has ended. -/
structure Fate where
  now : Nat
  state : LoopState
  returned : Bool
  brokenOff : Bool
deriving DecidableEq

def fate? (e : Estate Pglogical.Relations Pglogical.Message) : Option Fate :=
  e.source.capture.map fun c => ⟨e.outside.now, c.run.life.state,
    c.run.life.ending matches some (.returned _), c.run.life.ending matches some (.panicked _ _)⟩

theorem stopped_fate :
    ((stopped 5).map fate?, (stopped tooLong).map fate?) =
      (some (some ⟨0, .stopped, true, false⟩), some (some ⟨0, .stopRequested, false, true⟩)) := by
  have transport := transport_eq_talking (μ := Pglogical.Message)
  simp only [stopped, through, meet, perform, Source.start, Source.openStream, Connections.openReplication,
    Session.Connection.connect, Session.Connection.login, Session.Connection.call, Session.Connection.start,
    Session.Connection.identify, Session.Connection.query, Session.Connection.command,
    Session.Connection.stream, run_eq_talkOut, Source.settle, Source.stop]
  rw [transport]
  exact Prod.ext (by decide +kernel) (by decide +kernel)

theorem stopped_eq :
    ((stopped 5).map latest?, (stopped tooLong).map latest?) =
      (some (some (.stopped, true)), some (some (.stopRequested, false))) := by
  have latest : latest? = fun e => (fate? e).map fun f => (f.state, f.returned) := by
    funext e
    rw [latest?, fate?, Option.map_map]
    rfl
  obtain ⟨short, long⟩ := Prod.mk.inj stopped_fate
  simp only [latest, ← Function.comp_def (Option.map _), ← Option.map_map, short, long]
  rfl

/-- The feed of a source that is stopped returns, and the source can be set up again. -/
theorem recovers_after_stop : ∃ e, Source.create (reportingEvery 5) =
      .ok (⟨reportingEvery 5, none, none, default, none, none⟩ :
        Source Nat Nat Unit Pglogical.Relations Pglogical.Message) ∧
    stopped 5 = some e ∧ e.source.capture.isSome ∧ e.source.state? = some .stopped ∧ e.Admits := by
  have valid : (reportingEvery 5).validate = .ok () := by decide +kernel
  have created := create_reportingEvery (δ := Pglogical.Relations) (μ := Pglogical.Message) 5 valid
  obtain ⟨e, course, told⟩ := Option.map_eq_some_iff.mp (Prod.mk.inj stopped_eq).1
  obtain ⟨c, present, told⟩ := Option.map_eq_some_iff.mp told
  obtain ⟨state, returned⟩ := Prod.mk.inj told
  have admits := (recovers created course).2.2.1
  refine ⟨e, created, course, by simp [present], by simp [Source.state?, present, state], admits ?_⟩
  intro d here
  cases present.symm.trans here
  split at returned
  · exact ⟨_, ‹_›⟩
  · cases returned

/-- A task that cannot tell the time of its first report breaks off, and cannot be got rid of. -/
theorem refuses_after_stop : ∃ e, Source.create (reportingEvery tooLong) =
      .ok (⟨reportingEvery tooLong, none, none, default, none, none⟩ :
        Source Nat Nat Unit Pglogical.Relations Pglogical.Message) ∧
    stopped tooLong = some e ∧ e.source.state? = some .stopRequested ∧ e.Refuses := by
  obtain ⟨e, course, told⟩ := Option.map_eq_some_iff.mp (Prod.mk.inj stopped_eq).2
  obtain ⟨c, present, told⟩ := Option.map_eq_some_iff.mp told
  obtain ⟨state, -⟩ := Prod.mk.inj told
  refine ⟨e, create_reportingEvery _ (by decide +kernel), course, by simp [Source.state?, present, state],
    refuses_of_capturing ?_⟩
  simp [Source.isCapturing, present, state]

end Runs

end Estate

end Trial

end ChangeFeed
