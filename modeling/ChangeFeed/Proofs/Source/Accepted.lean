import ChangeFeed.Proofs.Source.Recovery

/-!
What a source can break off for when its settings are accepted. Main statement: a start breaks off only
for a channel that is too large, and a feed only when the clock has come so far that it cannot tell the
time of the next report; with more seconds between reports than the clock can tell, every feed does.
-/
namespace ChangeFeed

namespace Feed.Run

variable {δ μ : Type} {interval t : Nat} {r r' : Run δ μ}

/-- A feed that reports at such intervals has not broken off by a time at which the clock can still tell
when the next report is due; it has if the clock can never tell that. -/
structure Clocked (interval t : Nat) (r : Run δ μ) : Prop where
  spaced : r.interval = interval
  broken : ∀ task message, r.life.ending = some (.panicked task message) → clockLimit ≤ t + interval
  never : clockLimit ≤ interval →
    r.phase = .ended ∧ ∃ task message, r.life.ending = some (.panicked task message)

theorem due?_eq_none {now interval : Nat} : due? now interval = none ↔ clockLimit ≤ now + interval := by
  unfold due?
  split <;> simp <;> omega

theorem Clocked.start (decoder : δ) (channel : Channel μ) {now : Nat} (early : now ≤ t) :
    (start decoder interval channel now).Clocked interval t := by
  rcases start_eq decoder interval channel now with ⟨_, due, begun⟩ | ⟨due, begun⟩ <;> rw [begun]
  · have short : ¬clockLimit ≤ now + interval := mt due?_eq_none.mpr (by rw [due]; simp)
    exact ⟨rfl, nofun, fun long => absurd (Nat.le_add_left_of_le long) short⟩
  · have long : clockLimit ≤ now + interval := due?_eq_none.mp due
    exact ⟨rfl, fun _ _ _ => Nat.le_trans long (Nat.add_le_add_right early _), fun _ => ⟨rfl, _, _, rfl⟩⟩

theorem Clocked.later (clocked : r.Clocked interval t) {t' : Nat} (later : t ≤ t') : r.Clocked interval t' :=
  ⟨clocked.spaced, fun task message broken => Nat.le_trans (clocked.broken task message broken) (by omega),
    clocked.never⟩

theorem Clocked.keep (clocked : r.Clocked interval t) (same : r'.interval = r.interval)
    (phase : r'.phase = r.phase) (ending : r'.life.ending = r.life.ending) : r'.Clocked interval t :=
  ⟨same.trans clocked.spaced, ending ▸ clocked.broken, ending ▸ phase ▸ clocked.never⟩

theorem Clocked.apply [Decoder δ μ] (clocked : r.Clocked interval t) {v : View} {move : Move}
    {events : List (Event μ)} (early : v.now ≤ t) (moved : r.apply v move = some (r', events)) :
    r'.Clocked interval t := by
  obtain ⟨same, broken, never⟩ := clocked
  have short : ¬clockLimit ≤ interval := fun long => Trial.no_move_of_ended (never long).1 moved
  have goesOn (interval' : r'.interval = r.interval) (life : r'.life = r.life) : r'.Clocked interval t :=
    ⟨interval'.trans same, life ▸ broken, fun long => absurd long short⟩
  cases makes_of_apply moved with
  | breakOff _ due =>
    refine ⟨same, fun _ _ _ => ?_, fun long => absurd long short⟩
    have late := due?_eq_none.mp due
    omega
  | publish => exact ⟨same, nofun, fun long => absurd long short⟩
  | take _ _ takes => cases takes <;> exact goesOn rfl rfl
  | _ => exact goesOn rfl rfl

end Feed.Run

namespace Trial

open Session Feed

variable {δ μ : Type}

section Calls

variable {σ : Type} {s s' : Source Nat Nat σ δ μ} {w w' : Outside μ} {interval : Nat}

theorem settle_clocked [Decoder δ μ] [Control.SchemaLoader (Trial μ) σ] [QuietLoader μ σ] {fuel : Nat}
    {commands : String → Prop} {r r' : Run δ μ} {d d' : Bench σ} (holds : Holds commands r d)
    (settled : (r.settle fuel : StateT (Bench σ) (Trial μ) (Run δ μ)).run d w = some ((r', d'), w'))
    (clocked : r.Clocked interval w.now) : r'.Clocked interval w'.now := by
  -- A move has seen the clock no later than its turn leaves it.
  induction fuel generalizing r d w with
  | zero => cases settled; exact clocked
  | succ fuel ih =>
    obtain ⟨next, d₁, u, turned, rest⟩ := run_bind_eq_some.mp settled
    have turns := turn_inv holds.usable turned
    cases next with
    | none => cases rest; exact clocked.later turns.passes.later
    | some r₁ =>
      obtain ⟨v, move, events, -, -, early, moved⟩ := turns.moved r₁ rfl
      exact ih (holds.turn turns) rest ((clocked.later turns.passes.later).apply early moved)

theorem attend_clocked [Decoder δ μ] {commands : String → Prop} {c c' : Capture Nat Nat Unit δ μ}
    {acked : Lsn} {task : Task} (holds : Holds commands c.run c.desk) (clocked : c.run.Clocked interval w.now)
    (run : attend c acked task w = some (c', w')) : c'.run.Clocked interval w'.now := by
  cases attends_of_attend holds run with
  | @turn _ next _ _ turns =>
    have waited := clocked.later turns.passes.later
    cases next with
    | none => exact waited
    | some r' =>
      obtain ⟨v, move, events, -, -, early, moved⟩ := turns.moved r' rfl
      exact waited.apply early moved
  | channel => exact clocked.keep rfl rfl rfl

theorem settled_clocked [Decoder δ μ] [Control.SchemaLoader (Trial μ) σ] [QuietLoader μ σ]
    {commands : String → Prop} {c : Capture Nat Nat σ δ μ} (latest : s.capture = some c)
    (holds : Holds commands c.run c.desk) (clocked : c.run.Clocked interval w.now)
    (run : (s.settle : Trial μ _) w = some (s', w')) :
    ∃ c', s'.capture = some c' ∧ c'.run.Clocked interval w'.now := by
  obtain ⟨r, d, rfl, here, settled⟩ := run_of_settle latest holds run
  exact ⟨_, rfl, settle_clocked here settled clocked⟩

theorem stop_clocked [Decoder δ μ] [Control.SchemaLoader (Trial μ) σ] [QuietLoader μ σ]
    {commands : String → Prop} (left : ∀ c ∈ s.connections, c.replication = none)
    (latest : ∀ c ∈ s.capture, Holds commands c.run c.desk)
    (clocked : ∀ c ∈ s.capture, c.run.Clocked interval w.now) {result : Except Error Unit}
    (run : (s.stop : Trial μ _) w = some ((result, s'), w')) :
    ∀ c ∈ s'.capture, c.run.Clocked interval w'.now := by
  obtain ⟨u, passes, -, run⟩ := stop_closes commands left run
  obtain ⟨config, connections, collaborators, tracker, capture, stream⟩ := s
  cases capture with
  | none =>
    cases run
    rintro _ ⟨⟩
  | some c =>
    obtain ⟨s₁, u', settled, rest⟩ := bind_eq_some.mp run
    have holds : Holds commands { c.run with life := c.run.life.requestStop } c.desk :=
      (latest c rfl).keep rfl (.inr rfl) rfl rfl
    have asked : { c.run with life := c.run.life.requestStop }.Clocked interval u.now :=
      ((clocked c rfl).later passes.later).keep rfl rfl c.run.life.requestStop_ending
    obtain ⟨c', present, clocked'⟩ := settled_clocked rfl holds asked settled
    cases rest
    intro d member
    rw [show s₁.capture = some d from member] at present
    exact Option.some.inj present ▸ clocked'

/-- What the answer to a start tells of its channel and its feed. -/
theorem start_told {checkpoint : Checkpoint} {result : Source.Start}
    (run : (s.start checkpoint : Trial μ _) w = some ((result, s'), w')) :
    s'.config = s.config ∧
      (∀ message, result = .panicked message → Channel.open? μ s.config.channelCapacity = none) ∧
      (result = .started → (Channel.open? μ s.config.channelCapacity).isSome ∧
        ∃ c decoder channel, s'.capture = some c ∧
          c.run = Run.start decoder (s.config.reportInterval * 1000) channel w'.now) := by
  cases launches_of_start run with
  | refused | unready | unequipped | unopened => exact ⟨rfl, nofun, nofun⟩
  | oversized _ _ _ _ closed => exact ⟨rfl, fun _ _ => closed, nofun⟩
  | @started _ _ decoder _ _ _ channel now _ _ _ _ _ opened asked =>
    obtain ⟨_, _, _, answer⟩ := ask_eq_some.mp asked
    cases answer
    exact ⟨rfl, nofun, fun _ => ⟨by rw [opened]; rfl, _, decoder, channel, rfl, rfl⟩⟩

end Calls

namespace Estate

variable {e e' : Estate δ μ} {config : SourceConfig}

/-- The feeds of a source keep the time that its settings give them. -/
structure Timed (config : SourceConfig) (e : Estate δ μ) : Prop where
  settings : e.source.config = config
  clocked : ∀ c ∈ e.captures, c.run.Clocked (config.reportInterval * 1000) e.outside.now

theorem Timed.goesOn (timed : e.Timed config) (settings : e'.source.config = e.source.config)
    (former : ∀ c ∈ e'.former, c ∈ e.former ∨ c.run.Clocked (config.reportInterval * 1000) e'.outside.now)
    (latest : ∀ c ∈ e'.source.capture,
      c ∈ e.source.capture ∨ c.run.Clocked (config.reportInterval * 1000) e'.outside.now)
    (later : e.outside.now ≤ e'.outside.now) : e'.Timed config := by
  refine ⟨settings.trans timed.settings, fun c member => ?_⟩
  have stays (member : c ∈ e.captures) := (timed.clocked c member).later later
  rcases mem_captures.mp member with earlier | present
  · exact (former c earlier).elim (fun same => stays (mem_captures.mpr (.inl same))) id
  · exact (latest c present).elim (fun same => stays (mem_captures.mpr (.inr same))) id

theorem Timed.start (timed : e.Timed config) (sound : e.Sound) {checkpoint : Checkpoint}
    {result : Source.Start} {s' : Source Nat Nat Unit δ μ} {w' : Outside μ}
    (run : (e.source.start checkpoint : Trial μ _) e.outside = some ((result, s'), w')) :
    Timed config ⟨s', e.formerAfter result, w'⟩ := by
  obtain ⟨settings, -, started⟩ := start_told run
  have starts : Starts unrestricted e.source e.outside result s' w' :=
    start_inv sound.paired sound.left ⟨trivial, fun _ => trivial⟩ run
  cases starts with
  | refused | unready => exact timed
  | failed _ _ unstarted passes =>
    have same : e.formerAfter result = e.former := by
      cases result with
      | started => exact absurd rfl unstarted
      | failed | panicked => rfl
    exact timed.goesOn settings (fun c member => .inl (same ▸ member)) (fun c => .inl) passes.later
  | started _ _ passes =>
    -- The feeds that were there are all former ones now.
    obtain ⟨-, c, decoder, channel, present, run⟩ := started rfl
    have fresh : c.run.Clocked (config.reportInterval * 1000) w'.now := by
      rw [run, timed.settings]
      exact .start decoder channel (Nat.le_refl _)
    refine ⟨settings.trans timed.settings, fun d member => ?_⟩
    rcases mem_captures.mp member with earlier | latest
    · exact (timed.clocked d earlier).later passes.later
    · rw [latest] at present
      exact Option.some.inj present ▸ fresh

theorem Timed.perform [Decoder δ μ] (timed : e.Timed config) (sound : e.Sound) {deed : Deed δ}
    {answer : Answer} (leads : e.perform deed = some (answer, e')) : e'.Timed config := by
  have left : ∀ c ∈ e.source.connections, c.replication = none := fun c member => (sound.left c member).2
  have latest (c : Capture Nat Nat Unit δ μ) (present : e.source.capture = some c) :=
    timed.clocked c (mem_captures.mpr (.inr present))
  cases performs_of_perform leads with
  | setup run =>
    have sets : SetsUp unrestricted e.source e.outside _ _ _ := setup_inv left run
    cases sets with
    | refused => exact timed
    | failed _ passes | ready _ passes =>
      exact timed.goesOn rfl (fun c => .inl) (fun c => .inl) passes.later
  | start run => exact timed.start sound run
  | stop run =>
    obtain ⟨passes, ⟨capture, same⟩, -⟩ := stop_inv left sound.latest run
    have clocked := stop_clocked left sound.latest latest run
    exact timed.goesOn (by rw [same]; rfl) (fun c => .inl) (fun c present => .inr (clocked c present))
      passes.later
  | commit => exact timed.goesOn rfl (fun c => .inl) (fun c => .inl) (Nat.le_refl _)
  | unstarted | beyond => exact timed
  | @tend task c c' _ present run =>
    have holds := sound.latest c present
    have clocked := attend_clocked holds (latest c present) run
    refine timed.goesOn rfl (fun c => .inl) ?_ (attend_inv holds run).1.later
    rintro _ ⟨⟩
    exact .inr clocked
  | @tendFormer n task c c' _ here run =>
    have member : c ∈ e.former := List.mem_of_getElem? here
    have holds := (sound.former c member).1
    have clocked := attend_clocked holds (timed.clocked c (mem_captures.mpr (.inl member))) run
    refine timed.goesOn rfl (fun d there => ?_) (fun c => .inl) (attend_inv holds run).1.later
    rcases List.mem_or_eq_of_mem_set there with earlier | rfl
    · exact .inl earlier
    · exact .inr clocked

theorem Timed.after [Decoder δ μ] (timed : e.Timed config) (sound : e.Sound) {deeds : List (Deed δ)}
    (course : e.after deeds = some e') : e'.Timed config := by
  induction deeds generalizing e with
  | nil => cases course; exact timed
  | cons deed deeds ih =>
    obtain ⟨⟨answer, middle⟩, leads, rest⟩ := Option.bind_eq_some_iff.mp course
    exact ih (timed.perform sound leads) (sound.step leads).1 rest

theorem Timed.created {source : Source Nat Nat Unit δ μ} (created : Source.create config = .ok source)
    (outside : Outside μ) : Timed config ⟨source, [], outside⟩ ∧ config.validate = .ok () := by
  obtain ⟨valid, rfl⟩ := Source.create_eq_ok.mp created
  exact ⟨⟨rfl, by simp [captures]⟩, valid⟩

/-- However a source with accepted settings is used: a start breaks off only for a channel that is larger
than there can be, and then none is ever started; and a feed breaks off only when the clock, with the time
from one report to the next added, has come to its end, and always if that time alone is too long. -/
theorem breaks_off_late [Decoder δ μ] {source : Source Nat Nat Unit δ μ}
    (created : Source.create config = .ok source) {replies : List Reply} {now : Nat} {volume : Volume}
    {deeds : List (Deed δ)}
    (course : (Estate.mk source [] ⟨replies, now, volume, []⟩).after deeds = some e) :
    (∀ checkpoint result e', e.perform (.start checkpoint) = some (.start result, e') →
        (∀ message, result = .panicked message → Channel.maxCapacity < config.channelCapacity) ∧
        (result = .started → config.channelCapacity ≤ Channel.maxCapacity)) ∧
      ∀ c ∈ e.captures,
        (∀ task message, c.run.life.ending = some (.panicked task message) →
          Run.clockLimit ≤ e.outside.now + config.reportInterval * 1000) ∧
        (Run.clockLimit ≤ config.reportInterval * 1000 →
          ∃ task message, c.run.life.ending = some (.panicked task message)) := by
  obtain ⟨start, valid⟩ := Timed.created created ⟨replies, now, volume, []⟩
  have timed := start.after (sound_start created replies now volume) course
  refine ⟨fun checkpoint result e' leads => ?_, fun c member =>
    ⟨(timed.clocked c member).broken, fun long => ((timed.clocked c member).never long).2⟩⟩
  obtain ⟨⟨⟨result', s'⟩, w'⟩, run, told⟩ := Option.map_eq_some_iff.mp leads
  cases told
  obtain ⟨-, panicked, started⟩ := start_told run
  rw [timed.settings] at panicked started
  have positive := Nat.pos_of_ne_zero (SourceConfig.accepted_of_validate valid).channelCapacity
  unfold Channel.open? at panicked started
  constructor
  · rintro message ⟨⟩
    have refused := panicked message rfl
    simp only [positive, true_and, ite_eq_right_iff, reduceCtorEq, imp_false, Nat.not_le] at refused
    exact refused
  · rintro ⟨⟩
    obtain ⟨opened, -⟩ := started rfl
    simp only [positive, true_and, Option.isSome_ite] at opened
    exact opened

section Runs

/-- Without a break from outside, a course of incidents is one of deeds. -/
theorem through_deeds [Decoder δ μ] (deeds : List (Deed δ)) : e.through (deeds.map .deed) = e.after deeds := by
  induction deeds generalizing e with
  | nil => rfl
  | cons deed deeds ih =>
    rw [List.map_cons, through, after]
    exact congrArg (Option.bind _) (funext fun p => ih)

theorem stopped_eq_after (interval : Nat) : stopped interval =
    (Estate.mk ⟨reportingEvery interval, none, none, default, none, none⟩ [] (obliging .empty)).after
      [.setup fun _ => .ok ((), .empty), .start default, .stop] := by
  rw [stopped, ← through_deeds]
  simp only [List.map_cons, List.map_nil]

/-- A feed whose clock reaches the next report has not broken off. -/
theorem unbroken_in_time : ∃ e, Source.create (reportingEvery 5) =
      .ok (⟨reportingEvery 5, none, none, default, none, none⟩ :
        Source Nat Nat Unit Pglogical.Relations Pglogical.Message) ∧
    stopped 5 = some e ∧ e.source.capture.isSome ∧
      ∀ c ∈ e.captures, ∀ task message, c.run.life.ending ≠ some (.panicked task message) := by
  have valid : (reportingEvery 5).validate = .ok () := by decide +kernel
  have created := create_reportingEvery (δ := Pglogical.Relations) (μ := Pglogical.Message) 5 valid
  obtain ⟨e, course, told⟩ := Option.map_eq_some_iff.mp (Prod.mk.inj stopped_fate).1
  obtain ⟨c, present, told⟩ := Option.map_eq_some_iff.mp told
  have now : e.outside.now = 0 := congrArg Fate.now told
  refine ⟨e, created, course, by simp [present], fun c member task message broken => ?_⟩
  have deeds := (stopped_eq_after 5).symm.trans course
  have late := ((breaks_off_late created deeds).2 c member).1 task message broken
  rw [now] at late
  revert late
  decide

/-- With accepted settings that the clock cannot follow, the feed breaks off. -/
theorem broken_off_at_once : ∃ e, Source.create (reportingEvery tooLong) =
      .ok (⟨reportingEvery tooLong, none, none, default, none, none⟩ :
        Source Nat Nat Unit Pglogical.Relations Pglogical.Message) ∧
    stopped tooLong = some e ∧ ∃ c ∈ e.captures, ∃ task message,
      c.run.life.ending = some (.panicked task message) := by
  obtain ⟨e, course, told⟩ := Option.map_eq_some_iff.mp (Prod.mk.inj stopped_fate).2
  obtain ⟨c, present, told⟩ := Option.map_eq_some_iff.mp told
  have broken := congrArg Fate.brokenOff told
  refine ⟨e, create_reportingEvery _ (by decide +kernel), course, c, mem_captures.mpr (.inr present), ?_⟩
  dsimp only at broken
  split at broken
  · exact ⟨_, _, ‹_›⟩
  · cases broken

end Runs

end Estate

end Trial

end ChangeFeed
