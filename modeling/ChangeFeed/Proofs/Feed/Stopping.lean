import ChangeFeed.Config.Settings
import ChangeFeed.Feed.Schedule
import ChangeFeed.Pglogical.Frame
import ChangeFeed.Proofs.Feed.Keeping

/-!
What becomes of a feed that is asked to stop. Main statements: it takes no more frames and finishes at
most the record that it has in hands; unless something fails it makes one more report, and returns if the
clock can tell the time of another one; and all this takes a few moves, each of which it can make.
-/
namespace ChangeFeed.Feed

variable {δ μ : Type}

/-- Whether the task is at work; then it has to clean up. -/
def Phase.working : Phase μ → Bool
  | .closing _ | .releasing _ | .publishing _ | .ended => false
  | _ => true

/-- How many moves a task that cleans up has before it. -/
def Phase.remaining : Phase μ → Nat
  | .closing _ => 3
  | .releasing _ => 2
  | .publishing _ => 1
  | _ => 0

theorem Phase.remaining_le_three (p : Phase μ) : p.remaining ≤ 3 := by
  cases p <;> simp [remaining]

def Phase.isReporting : Phase μ → Bool
  | .reporting _ => true
  | _ => false

def Step.isReport (x : Step δ μ) : Bool :=
  match x.act with
  | .move (.report _) _ => true
  | _ => false

/-- The transport takes reports at once, so that nothing else happens meanwhile. -/
def Prompt (steps : List (Step δ μ)) : Prop :=
  ∀ x ∈ steps, x.before.run.phase.isReporting = true → x.isReport = true

instance (steps : List (Step δ μ)) : Decidable (Prompt steps) :=
  inferInstanceAs (Decidable (∀ x ∈ steps, x.before.run.phase.isReporting = true → x.isReport = true))

theorem Step.isReport_iff {x : Step δ μ} :
    x.isReport = true ↔ ∃ outcome wallClock, x.act = .move (.report outcome) wallClock := by
  unfold isReport
  split
  · rename_i act; simp [act]
  · rename_i other
    simp only [Bool.false_eq_true, false_iff, not_exists]
    exact other

/-- No refresh fails, the receiver is not found gone, and the transport takes all reports. -/
structure Undisturbed (steps : List (Step δ μ)) : Prop where
  refreshes : ∀ e, .error e ∉ refreshes steps
  receiver : ∀ x ∈ steps, ∀ wallClock, x.act ≠ .move .lose wallClock
  transport : failures steps = []

/-- At every report the clock can tell the time of the one after it. -/
def InTime (steps : List (Step δ μ)) : Prop :=
  ∀ x ∈ steps, x.isReport = true → (Run.due? x.before.now x.before.run.interval).isSome = true

theorem Undisturbed.front {earlier later : List (Step δ μ)}
    (undisturbed : Undisturbed (earlier ++ later)) : Undisturbed earlier := by
  obtain ⟨refreshes, receiver, transport⟩ := undisturbed
  rw [failures_append, List.append_eq_nil_iff] at transport
  exact ⟨fun e member => refreshes e (by simp [member]), fun x member => receiver x (by simp [member]),
    transport.1⟩

theorem inTime_concat {steps : List (Step δ μ)} {x : Step δ μ} :
    InTime (steps ++ [x]) ↔ InTime steps ∧
      (x.isReport = true → (Run.due? x.before.now x.before.run.interval).isSome = true) := by
  simp only [InTime, List.forall_mem_append, List.forall_mem_singleton]

/-- How far the task has come since it was asked to stop. -/
inductive Winding (steps : List (Step δ μ)) (r : Run δ μ) : Prop
  | before : r.phase.working = true → (∀ u, r.phase ≠ .reporting u) → reports steps = [] →
      InTime steps → Winding steps r
  | telling {u} : r.phase = .reporting u → (reports steps).length = 1 → InTime steps → Winding steps r
  | finished : r.phase.working = false → (reports steps).length ≤ 1 →
      (Undisturbed steps → (reports steps).length = 1 ∧
        (r.outcome? = some (.ok ()) ↔ InTime steps)) → Winding steps r

theorem Winding.reports_le {steps : List (Step δ μ)} {r : Run δ μ} (winding : Winding steps r) :
    (reports steps).length ≤ 1 := by
  cases winding with
  | before _ _ nothing => simp [nothing]
  | telling _ one => exact Nat.le_of_eq one
  | finished _ few => exact few

theorem Winding.done {steps : List (Step δ μ)} {r : Run δ μ} (winding : Winding steps r)
    (finished : r.phase.working = false) (undisturbed : Undisturbed steps) :
    (reports steps).length = 1 ∧ (r.outcome? = some (.ok ()) ↔ InTime steps) := by
  cases winding with
  | before working => rw [finished] at working; cases working
  | telling phase => rw [phase] at finished; cases finished
  | finished _ _ done => exact done undisturbed

theorem Run.stopRequested_requestStop (r : Run δ μ) : r.requestStop.life.stopRequested = true := by
  unfold requestStop Lifecycle.requestStop Lifecycle.stopRequested
  split <;> simp_all

section Stop

variable [Decoder δ μ] {s s' : Situation δ μ} {act : Act} {events : List (Event μ)}
  {steps : List (Step δ μ)}

theorem Leads.untaken (leads : Leads s act s' events) (stop : s.run.life.stopRequested = true)
    (frame : Except Error Frame) (wallClock : Int) : act ≠ .move (.take frame) wallClock := by
  rintro rfl
  cases leads with
  | move h =>
    cases Run.makes_of_apply h with
    | take _ running => rw [stop] at running; cases running

/-- A task that cleans up makes no report, and nothing changes its result. -/
theorem Leads.finished_stays (leads : Leads s act s' events) (finished : s.run.phase.working = false) :
    s'.run.phase.working = false ∧ s'.run.outcome? = s.run.outcome? ∧
      reports [⟨s, act, events, s'⟩] = [] ∧ Step.isReport ⟨s, act, events, s'⟩ = false := by
  rw [reports_singleton]
  cases leads with
  | move h =>
    cases Run.makes_of_apply h with
    | close phase | release phase | publish phase =>
      exact ⟨rfl, by simp [Run.outcome?, phase, Lifecycle.finish], rfl, rfl⟩
    | _ => simp_all [Phase.working]
  | receive => rw [Run.receive_snd]; exact ⟨finished, rfl, rfl, rfl⟩
  | requestStop =>
    refine ⟨finished, ?_, rfl, rfl⟩
    simp only [Run.requestStop, Lifecycle.requestStop]
    split <;> rfl
  | _ => exact ⟨finished, rfl, rfl, rfl⟩

theorem Winding.finished_step (leads : Leads s act s' events) (finished : s.run.phase.working = false)
    (few : (reports steps).length ≤ 1)
    (done : Undisturbed steps → (reports steps).length = 1 ∧
      (s.run.outcome? = some (.ok ()) ↔ InTime steps)) :
    Winding (steps ++ [⟨s, act, events, s'⟩]) s'.run := by
  obtain ⟨finished', same, silent, other⟩ := leads.finished_stays finished
  refine .finished finished' (by rw [reports_append, silent]; simpa using few) fun undisturbed => ?_
  obtain ⟨one, outcome⟩ := done undisturbed.front
  rw [reports_append, silent, same, inTime_concat, other]
  exact ⟨by simpa using one, by simpa using outcome⟩

theorem Winding.before_step (leads : Leads s act s' events) (stop : s.run.life.stopRequested = true)
    (working : s.run.phase.working = true) (silent : ∀ u, s.run.phase ≠ .reporting u)
    (none : reports steps = []) (inTime : InTime steps) :
    Winding (steps ++ [⟨s, act, events, s'⟩]) s'.run := by
  have still (quiet : events = []) : reports (steps ++ [⟨s, act, events, s'⟩]) = [] := by
    simp [none, quiet]
  have later (other : Step.isReport ⟨s, act, events, s'⟩ = false) :
      InTime (steps ++ [⟨s, act, events, s'⟩]) :=
    inTime_concat.mpr ⟨inTime, fun report => Bool.noConfusion (other.symm.trans report)⟩
  cases leads with
  | move h =>
    cases Run.makes_of_apply h with
    | due => exact .telling rfl (by simp [none, Event.reported?]) (later rfl)
    | early | heed | abandon | refreshSkip | refreshForward =>
      exact .before rfl (by simp [Run.hurry, Run.skip, Run.forward]) (still rfl) (later rfl)
    | unreported phase | goOn phase | leave phase | breakOff phase => exact absurd phase (silent _)
    | take _ running => rw [stop] at running; cases running
    | expire _ running => rw [stop] at running; cases running
    | deliver => exact .before rfl (by simp) (by simp [none, Event.reported?]) (later rfl)
    | @unrefreshed _ _ _ e =>
      refine .finished rfl (by simp [still rfl]) fun undisturbed => ?_
      exact absurd (by simp [Step.refreshed?]) (undisturbed.refreshes e)
    | lose =>
      refine .finished rfl (by simp [still rfl]) fun undisturbed => ?_
      exact absurd rfl (undisturbed.receiver _ (List.mem_append_right _ (List.mem_singleton_self _)) _)
    | close phase | release phase | publish phase => rw [phase] at working; cases working
  | receive =>
    rw [Run.receive_snd] at *
    exact .before working silent (still rfl) (later rfl)
  | _ => exact .before working silent (still rfl) (later rfl)

theorem Winding.telling_step {outcome : Except Error Unit} {wallClock : Int}
    (leads : Leads s (.move (.report outcome) wallClock) s' events)
    (stop : s.run.life.stopRequested = true) (one : (reports steps).length = 1) (inTime : InTime steps) :
    Winding (steps ++ [⟨s, .move (.report outcome) wallClock, events, s'⟩]) s'.run := by
  cases leads with
  | move h =>
    cases Run.makes_of_apply h with
    | @unreported _ e =>
      refine .finished rfl (by simp [one]) fun undisturbed => ?_
      have transport := undisturbed.transport
      simp [Step.failure?] at transport
    | goOn _ running => rw [stop] at running; cases running
    | leave _ _ due =>
      refine .finished rfl (by simp [one]) fun _ => ⟨by simp [one], fun _ => ?_, fun _ => rfl⟩
      exact inTime_concat.mpr ⟨inTime, fun _ => Option.isSome_of_eq_some due⟩
    | breakOff _ late =>
      refine .finished rfl (by simp [one]) fun _ => ⟨by simp [one], nofun, fun timed => ?_⟩
      have told := (inTime_concat.mp timed).2 rfl
      rw [show Run.due? s.now s.run.interval = none from late] at told
      cases told

theorem Winding.step (winding : Winding steps s.run) (stop : s.run.life.stopRequested = true)
    (leads : Leads s act s' events)
    (prompt : s.run.phase.isReporting = true → Step.isReport ⟨s, act, events, s'⟩ = true) :
    Winding (steps ++ [⟨s, act, events, s'⟩]) s'.run := by
  cases winding with
  | before working silent none inTime => exact .before_step leads stop working silent none inTime
  | telling phase one inTime =>
    obtain ⟨outcome, wallClock, rfl⟩ := Step.isReport_iff.mp (prompt (by rw [phase]; rfl))
    exact .telling_step leads stop one inTime
  | finished finished few done => exact .finished_step leads finished few done

/-- What a task has in hands after it was asked to stop, it had in hands before. -/
theorem Reach.kept_of_stopped {first : Situation δ μ} (reach : Reach first steps s)
    (stop : first.run.life.stopRequested = true) :
    s.run.life.stopRequested = true ∧
      (Feed.kept steps = [] ∧ (∀ l m ignored, s.run.phase = .refreshing l m ignored →
          first.run.phase = .refreshing l m ignored) ∨
        ∃ c, Feed.kept steps = [c] ∧ first.run.phase = .refreshing c.checkpoint.lsn c.message false ∧
          ∀ l m ignored, s.run.phase ≠ .refreshing l m ignored) := by
  induction reach with
  | start => exact ⟨stop, Or.inl ⟨rfl, fun _ _ _ phase => phase⟩⟩
  | @next steps s act s' events previous leads ih =>
    obtain ⟨stopped, hands⟩ := ih
    have unread : Step.frame? ⟨s, act, events, s'⟩ = none := by
      cases read : Step.frame? ⟨s, act, events, s'⟩ with
      | none => rfl
      | some frame =>
        obtain ⟨wallClock, act⟩ := Step.frame?_eq_some.mp read
        exact absurd act (leads.untaken stopped _ _)
    refine ⟨leads.stop_stays stopped, ?_⟩
    rw [kept_append, kept_singleton]
    cases made : Step.kept? ⟨s, act, events, s'⟩ with
    | none =>
      rw [Option.toList_none, List.append_nil]
      rcases hands with ⟨nothing, same⟩ | ⟨c, one, phase, settled⟩
      · exact Or.inl ⟨nothing, fun l m ignored now =>
          same l m ignored (leads.refreshing_origin unread now)⟩
      · exact Or.inr ⟨c, one, phase, fun l m ignored now =>
          settled l m ignored (leads.refreshing_origin unread now)⟩
    | some c =>
      right
      obtain ⟨offering, -, -, ⟨frame, wallClock, rfl, -⟩ | phase⟩ := leads.kept made
      · cases unread
      · rcases hands with ⟨nothing, same⟩ | ⟨d, -, -, settled⟩
        · exact ⟨c, by rw [nothing]; rfl, same _ _ _ phase, by simp [offering]⟩
        · exact absurd phase (settled _ _ _)

/-- The record of `c` is being processed, or its change waits for room. -/
def Run.InHand (r : Run δ μ) (c : Change μ) : Prop :=
  r.phase = .offering c ∨ r.phase = .refreshing c.checkpoint.lsn c.message false

theorem Reach.finishes {first : Situation δ μ} (reach : Reach first steps s)
    (stop : first.run.life.stopRequested = true) :
    (sent steps ++ dropped steps).length ≤ 1 ∧
      ∀ c ∈ sent steps ++ dropped steps, first.run.InHand c := by
  obtain ⟨account, -⟩ := reach.account
  have hands : (first.run.phase.offered?.toList ++ Feed.kept steps).length ≤ 1 ∧
      ∀ c ∈ first.run.phase.offered?.toList ++ Feed.kept steps, first.run.InHand c := by
    obtain ⟨-, ⟨nothing, -⟩ | ⟨c, one, phase, -⟩⟩ := reach.kept_of_stopped stop
    · rw [nothing, List.append_nil]
      cases waiting : first.run.phase.offered? with
      | none => simp
      | some c =>
        have own : first.run.InHand c := Or.inl (Phase.offered?_eq_some.mp waiting)
        simpa using own
    · have own : first.run.InHand c := Or.inr phase
      rw [one, phase]
      simpa [Phase.offered?] using own
  obtain ⟨few, own⟩ := hands
  rw [account, List.length_append] at few
  rw [account] at own
  exact ⟨by omega, fun c member => own c (List.mem_append_left _ member)⟩

theorem Leads.undecoded (leads : Leads s act s' events) (stop : s.run.life.stopRequested = true)
    (data : Bytes) : .decoded data ∉ events := by
  cases leads with
  | move h =>
    cases Run.makes_of_apply h with
    | take _ running => rw [stop] at running; cases running
    | _ => simp
  | _ => simp

theorem Reach.untaken {first : Situation δ μ} (reach : Reach first steps s)
    (stop : first.run.life.stopRequested = true) : ∀ x ∈ steps,
      (∀ frame wallClock, x.act ≠ .move (.take frame) wallClock) ∧ ∀ data, .decoded data ∉ x.events := by
  intro x member
  obtain ⟨earlier, later, rfl⟩ := List.append_of_mem member
  obtain ⟨before, leads, -⟩ := reach.at_step
  have stopped := (before.kept_of_stopped stop).1
  exact ⟨leads.untaken stopped, leads.undecoded stopped⟩

theorem Reach.winding {first : Situation δ μ} (reach : Reach first steps s)
    (stop : first.run.life.stopRequested = true) (working : first.run.phase.working = true)
    (silent : ∀ u, first.run.phase ≠ .reporting u) (prompt : Prompt steps) : Winding steps s.run := by
  induction reach with
  | start => exact .before working silent rfl (by simp [InTime])
  | next previous leads ih =>
    refine (ih fun x member => prompt x (List.mem_append_left _ member)).step
      (previous.kept_of_stopped stop).1 leads ?_
    exact prompt _ (List.mem_append_right _ (List.mem_singleton_self _))

theorem Reach.tracker_eq {first : Situation δ μ} (reach : Reach first steps s) :
    s.tracker = (commits steps).foldl Tracker.commit first.tracker := by
  induction reach with
  | start => rfl
  | next _ leads ih =>
    rw [commits_append, List.foldl_append, ← ih]
    cases leads <;> rfl

end Stop

section Progress

variable [Decoder δ μ] {s s' : Situation δ μ} {act : Act} {events : List (Event μ)}
  {steps : List (Step δ μ)}

def Step.isMove (x : Step δ μ) : Bool :=
  match x.act with
  | .move _ _ => true
  | _ => false

omit [Decoder δ μ] in
/-- How many moves a task that was asked to stop has before it, at most. -/
def Situation.rank (s : Situation δ μ) : Nat :=
  match s.run.phase with
  | .refreshing _ _ _ => 9
  | .offering _ => 8
  | .checking => if s.run.nextReport ≤ s.now then 5 else 7
  | .listening => 6
  | .reporting _ => 4
  | .closing _ => 3
  | .releasing _ => 2
  | .publishing _ => 1
  | .ended => 0

omit [Decoder δ μ] in
theorem Situation.rank_le_nine (s : Situation δ μ) : s.rank ≤ 9 := by
  unfold rank
  split <;> try split
  all_goals omega

omit [Decoder δ μ] in
theorem Situation.rank_checking (checking : s.run.phase = .checking) : s.rank ≤ 7 := by
  simp only [rank, checking]
  split <;> omega

omit [Decoder δ μ] in
theorem Situation.rank_wait (s : Situation δ μ) (duration : Nat) :
    { s with now := s.now + duration }.rank ≤ s.rank := by
  cases phase : s.run.phase with
  | checking =>
    simp only [rank, phase]
    split <;> split <;> omega
  | _ => simp only [rank, phase]; exact Nat.le_refl _

theorem Leads.rank_lt {m : Move} {wallClock : Int} (leads : Leads s (.move m wallClock) s' events)
    (stop : s.run.life.stopRequested = true) : s'.rank < s.rank := by
  cases leads with
  | move h =>
    cases Run.makes_of_apply h with
    | due phase late => simp [Situation.rank, phase, show s.run.nextReport ≤ s.now from late]
    | early phase early =>
      simp [Situation.rank, phase, Nat.not_le.mpr (show s.now < s.run.nextReport from early)]
    | goOn _ running | take _ running | expire _ running => rw [stop] at running; cases running
    | heed phase => simp [Situation.rank, phase, Run.hurry, Situation.view]
    | abandon phase => simp [Situation.rank, phase, Run.hurry, Situation.view]
    | deliver phase | refreshSkip phase =>
      refine Nat.lt_of_le_of_lt (Situation.rank_checking rfl) ?_
      simp [Situation.rank, phase]
    | _ => simp [*, Situation.rank, Run.conclude, Run.panic, Run.forward]

theorem Leads.rank_le (leads : Leads s act s' events) (stop : s.run.life.stopRequested = true) :
    s'.rank + [(⟨s, act, events, s'⟩ : Step δ μ)].countP Step.isMove ≤ s.rank := by
  cases leads with
  | move h => exact Leads.rank_lt (.move h) stop
  | wait => exact s.rank_wait _
  | receive => rw [Run.receive_snd]; exact Nat.le_refl _
  | _ => exact Nat.le_refl _

theorem Reach.rank_le {first : Situation δ μ} (reach : Reach first steps s)
    (stop : first.run.life.stopRequested = true) : s.rank + steps.countP Step.isMove ≤ first.rank := by
  induction reach with
  | start => simp
  | next previous leads ih =>
    rw [List.countP_append]
    have bound := leads.rank_le (previous.kept_of_stopped stop).1
    omega

/-- A task that was asked to stop is never stuck: whatever the transport and the refresh answer, it can
make a move. -/
theorem Run.moves_on {r : Run δ μ} (stop : r.life.stopRequested = true) (going : r.phase ≠ .ended)
    (v : View) (report refresh : Except Error Unit) :
    ∃ m ∈ [Move.check, .report report, .heed, .refresh refresh, .deliver, .lose, .abandon, .close,
      .release, .publish], (r.apply v m).isSome := by
  cases phase : r.phase with
  | checking =>
    refine ⟨.check, by simp, ?_⟩
    by_cases late : r.nextReport ≤ v.now <;> simp [apply, phase, late]
  | reporting u =>
    refine ⟨.report report, by simp, ?_⟩
    cases report <;> simp [apply, phase]
  | listening => exact ⟨.heed, by simp, by simp [apply, phase, stop]⟩
  | refreshing l m ignored =>
    refine ⟨.refresh refresh, by simp, ?_⟩
    cases refresh <;> simp [apply, phase]
  | offering c =>
    cases held : r.channel.hasReceiver with
    | false => exact ⟨.lose, by simp, by simp [apply, phase, held]⟩
    | true =>
      by_cases room : r.channel.buffer.length < r.channel.capacity
      · exact ⟨.deliver, by simp, by simp [apply, phase, held, room]⟩
      · exact ⟨.abandon, by simp, by simp [apply, phase, held, Nat.not_lt.mp room, stop]⟩
  | closing result => exact ⟨.close, by simp, by simp [apply, phase]⟩
  | releasing result => exact ⟨.release, by simp, by simp [apply, phase]⟩
  | publishing result => exact ⟨.publish, by simp, by simp [apply, phase]⟩
  | ended => exact absurd phase going

omit [Decoder δ μ] in
/-- The transport is not even asked for a frame: what it would do makes no difference. -/
theorem Run.nextMove_poll {m : Type → Type} [Monad m] (around : Surroundings m μ)
    (poll : m (Option (Except Error Frame))) {r : Run δ μ} (stop : r.life.stopRequested = true)
    (v : View) :
    @nextMove δ μ m _ { around with poll } r v = @nextMove δ μ m _ around r v := by
  cases phase : r.phase <;> simp [nextMove, phase, stop]

/-- From a request to stop on, no frame is taken and nothing is decoded, and at most the record in hands
is finished. Unless its refresh fails, the receiver is found gone or the transport fails, the task makes
exactly one more report, from what was confirmed up to then, and it returns without an error exactly if
the clock can tell the time of a report after this one. All this takes at most nine moves, and the task is
never stuck before it has ended. -/
theorem Reach.stops {first : Situation δ μ} {earlier later : List (Step δ μ)} {x : Step δ μ}
    (reach : Reach first (earlier ++ x :: later) s) (request : x.act = .requestStop)
    (working : x.before.run.phase.working = true) (prompt : Prompt (earlier ++ x :: later)) :
    (∀ y ∈ later, (∀ frame wallClock, y.act ≠ .move (.take frame) wallClock) ∧
        ∀ data, .decoded data ∉ y.events) ∧
      (∀ (m : Type → Type) [Monad m] (around : Surroundings m μ) poll v,
        @Run.nextMove δ μ m _ { around with poll } s.run v = @Run.nextMove δ μ m _ around s.run v) ∧
      ((sent later ++ dropped later).length ≤ 1 ∧
        ∀ c ∈ sent later ++ dropped later, x.before.run.InHand c) ∧
      (∀ between y rest u, later = between ++ y :: rest → .reported u ∈ y.events →
        y.before.tracker = (commits (earlier ++ x :: between)).foldl Tracker.commit first.tracker ∧
          ∃ wallClock, u = .acknowledge
            (y.before.run.ledger.report y.before.tracker.committed).reported wallClock) ∧
      (reports later).length ≤ 1 ∧
      (s.run.phase.working = false → Undisturbed later →
        (reports later).length = 1 ∧ (s.run.outcome? = some (.ok ()) ↔ InTime later)) ∧
      later.countP Step.isMove ≤ 9 ∧
      (s.run.phase ≠ .ended → ∀ v report refresh,
        ∃ m ∈ [Move.check, .report report, .heed, .refresh refresh, .deliver, .lose, .abandon, .close,
          .release, .publish], (s.run.apply v m).isSome) := by
  obtain ⟨start, act, seen, asked⟩ := x
  cases request
  obtain ⟨-, leads, after⟩ := reach.at_step
  dsimp only at leads after
  cases leads
  have stop := start.run.stopRequested_requestStop
  have silent : ∀ u, start.run.phase ≠ .reporting u := by
    intro u phase
    have other := prompt _ (List.mem_append_right _ List.mem_cons_self) (by rw [phase]; rfl)
    cases other
  have winding := after.winding stop working silent fun y member =>
    prompt y (List.mem_append_right _ (List.mem_cons_of_mem _ member))
  have stopped := (after.kept_of_stopped stop).1
  refine ⟨after.untaken stop, fun m _ around poll => Run.nextMove_poll around poll stopped,
    after.finishes stop, ?_, winding.reports_le, winding.done, ?_, ?_⟩
  · rintro between y rest u rfl reported
    rw [← List.cons_append, ← List.append_assoc] at reach
    obtain ⟨upTo, leads, -⟩ := reach.at_step
    obtain ⟨wallClock, -, -, ledger, own⟩ := leads.report_eq reported
    exact ⟨upTo.tracker_eq, wallClock, by rw [own, ledger]⟩
  · have bound := after.rank_le stop
    have top := Situation.rank_le_nine { start with run := start.run.requestStop }
    omega
  · exact fun going v report refresh => Run.moves_on stopped going v report refresh

/-- A stop is requested while the second of two records waits for room on the channel. -/
theorem stops_on_full_channel :
    let first : Situation Pglogical.Relations Pglogical.Message := .start .empty 5 1 0 ⟨.zero⟩
    let steps := history first
      [.move .check 0, .move (.take (.ok (commitFrame ⟨10, by decide⟩))) 0, .move .deliver 0,
        .move .check 0, .move (.take (.ok (commitFrame ⟨20, by decide⟩))) 0, .requestStop,
        .move .abandon 0, .commit ⟨⟨11, by decide⟩, .epoch⟩, .move .check 0, .move (.report (.ok ())) 0,
        .move .close 0, .move .release 0, .move .publish 0]
    let later := steps.drop 6
    Prompt steps ∧ (reports later).map (·.flush.offset) = [11] ∧ (dropped later).length = 1 ∧
      (reports later).length ≤ 1 ∧ ∀ y ∈ later, ∀ data, .decoded data ∉ y.events := by
  intro first steps later
  obtain ⟨s, reach⟩ : ∃ s, Reach first steps s := reach_history _ _
  have long : 5 < steps.length := by decide +kernel
  have prompt : Prompt steps := by decide +kernel
  have told : steps = steps.take 5 ++ steps[5] :: later := by
    rw [List.getElem_cons_drop, List.take_append_drop]
  rw [told] at reach prompt
  obtain ⟨untaken, -, -, -, few, -⟩ := reach.stops rfl rfl prompt
  rw [← told] at prompt
  exact ⟨prompt, by decide +kernel, by decide +kernel, few, fun y member => (untaken y member).2⟩

/-- Settings that are accepted, and a stop that is requested a second after the start: the clock cannot tell
the time of a report after the last one, and the task breaks off in place of returning. -/
theorem breaks_off_after_last_report :
    let settings : SourceConfig := ⟨"host=a", "host=a user=b", "s", false, 9223372036854775807, 1, 30⟩
    let first : Situation Pglogical.Relations Pglogical.Message :=
      .start .empty (settings.reportInterval * 1000) settings.channelCapacity 0 ⟨.zero⟩
    let steps := history first
      [.move .check 0, .wait 1000, .requestStop, .move .heed 0, .move .check 0, .move (.report (.ok ())) 0]
    let later := steps.drop 3
    settings.validate = .ok () ∧ (∃ s, Reach first steps s) ∧
      (∃ x ∈ steps, x.act = .requestStop ∧ x.before.run.phase.working = true) ∧
      Prompt steps ∧ Undisturbed later ∧ (reports later).length = 1 ∧
      steps.getLast?.bind (·.after.run.life.ending) =
        some (.panicked 0 "overflow when adding duration to instant") := by
  intro settings first steps later
  have acts : later.map Step.act = [.move .heed 0, .move .check 0, .move (.report (.ok ())) 0] := by
    decide +kernel
  have loaded : refreshes later = [] := by decide +kernel
  have undisturbed : Undisturbed later := by
    refine ⟨by simp [loaded], fun x member wallClock lost => ?_, by decide +kernel⟩
    have own := List.mem_map_of_mem (f := Step.act) member
    rw [acts, lost] at own
    simp at own
  exact ⟨by decide +kernel, reach_history _ _, by decide +kernel, by decide +kernel, undisturbed,
    by decide +kernel, by decide +kernel⟩

end Progress

end ChangeFeed.Feed
