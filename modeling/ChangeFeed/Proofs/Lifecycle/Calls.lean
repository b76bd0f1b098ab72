import ChangeFeed.Lifecycle

/-!
Calls that stop a task or wait for it, one after the other, each to its end or given up. Main statements:
unless a call that waits is given up, calls return when the task has ended, and its result is told once,
by the first of them; if one is given up, the result is told to nobody.
-/
namespace ChangeFeed

namespace Lifecycle

/-- A task reports that it has stopped when it has returned, and only then. -/
def Honest (l : Lifecycle) : Prop := l.state = .stopped ↔ ∃ result, l.ending = some (.returned result)

variable {l : Lifecycle}

theorem honest_started : started.Honest := by simp [Honest, started]

theorem Honest.requestStop (honest : l.Honest) : l.requestStop.Honest := by
  unfold Lifecycle.requestStop
  split
  · rename_i running
    rw [Honest, running] at honest
    simpa [Honest] using honest
  · exact honest

theorem Honest.finish (honest : l.Honest) (unended : l.ending = none) (e : Ending) : (l.finish e).Honest := by
  cases e with
  | returned => simp [Honest, Lifecycle.finish]
  | panicked =>
    rw [Honest, unended] at honest
    simpa [Honest, Lifecycle.finish] using honest

end Lifecycle

/-- What a call has returned, and how it stood with the task then. -/
structure Return where
  result : Except Error Unit
  life : Lifecycle

/-- A task with its controller, whom one call at a time may use, and what calls have returned. -/
structure Supervision where
  life : Lifecycle
  controller : Controller
  /-- Whether a call waits for the task. -/
  waiting : Bool
  returns : List Return

namespace Supervision

open Controller

inductive Deed
  | stop
  | wait
  /-- The call that waits is given up. -/
  | giveUp
  | finish (e : Ending)
  /-- The call that waits finds that the task has ended. -/
  | wake

def start : Supervision := ⟨.started, .fresh, false, []⟩

/-- A call has been made, which waits or returns at once. -/
def call (s : Supervision) : Controller × Lifecycle × Call → Supervision
  | (controller, life, .waits) => { s with controller, life, waiting := true }
  | (controller, life, .returns) => { s with controller, life, returns := s.returns ++ [⟨.ok (), life⟩] }

/-- What a deed leads to; nothing if it is not its time. -/
def apply (s : Supervision) : Deed → Option Supervision
  | .stop => if s.waiting then none else some (s.call (s.controller.stop s.life))
  | .wait => if s.waiting then none else some (s.call (s.controller.wait.1, s.life, s.controller.wait.2))
  | .giveUp => if s.waiting then some { s with waiting := false } else none
  | .finish e => if s.life.ending.isNone then some { s with life := s.life.finish e } else none
  | .wake =>
    if s.waiting then
      s.life.ending.map fun e => { s with waiting := false, returns := s.returns ++ [⟨e.result, s.life⟩] }
    else none

def run (s : Supervision) : List Deed → Option Supervision
  | [] => some s
  | d :: ds => (s.apply d).bind fun s => s.run ds

variable {s s' : Supervision} {d : Deed} {ds : List Deed}

/-- The life of a task when a call has been made. -/
def Asks (l : Lifecycle) (d : Deed) (l' : Lifecycle) : Prop :=
  d = .stop ∧ l' = l.requestStop ∨ d = .wait ∧ l' = l

/-- What deeds come to. -/
inductive Comes (s : Supervision) : Deed → Supervision → Prop
  | takes {d life} : Asks s.life d life → s.waiting = false → s.controller.hasHandle = true →
      Comes s d { s with life, controller := ⟨false⟩, waiting := true }
  | returns {d life} : Asks s.life d life → s.waiting = false → s.controller.hasHandle = false →
      Comes s d { s with life, controller := ⟨false⟩, returns := s.returns ++ [⟨.ok (), life⟩] }
  | givesUp : s.waiting = true → Comes s .giveUp { s with waiting := false }
  | finishes {e} : s.life.ending = none → Comes s (.finish e) { s with life := s.life.finish e }
  | wakes {e} : s.waiting = true → s.life.ending = some e →
      Comes s .wake { s with waiting := false, returns := s.returns ++ [⟨e.result, s.life⟩] }

theorem comes_of_apply (done : s.apply d = some s') : Comes s d s' := by
  obtain ⟨life, ⟨handle⟩, waiting, returns⟩ := s
  have call {life'} (asks : Asks life d life')
      (made : (if waiting then none else
        some (call ⟨life, ⟨handle⟩, waiting, returns⟩
          (⟨false⟩, life', if handle then .waits else .returns))) = some s') :
      Comes ⟨life, ⟨handle⟩, waiting, returns⟩ d s' := by
    cases waiting with
    | true => cases made
    | false =>
      cases handle with
      | true =>
        cases made
        exact .takes asks rfl rfl
      | false =>
        cases made
        exact .returns asks rfl rfl
  cases d with
  | stop => exact call (.inl ⟨rfl, rfl⟩) done
  | wait => exact call (.inr ⟨rfl, rfl⟩) done
  | giveUp =>
    cases waiting with
    | false => cases done
    | true =>
      cases done
      exact .givesUp rfl
  | finish e =>
    cases ended : life.ending with
    | some => simp [apply, ended] at done
    | none =>
      simp only [apply, ended] at done
      cases done
      exact .finishes ended
  | wake =>
    cases waiting with
    | false => cases done
    | true =>
      cases ended : life.ending with
      | none => simp [apply, ended] at done
      | some e =>
        simp only [apply, ended] at done
        cases done
        exact .wakes rfl ended

theorem Asks.ending {l l' : Lifecycle} (asks : Asks l d l') : l'.ending = l.ending := by
  obtain ⟨-, rfl⟩ | ⟨-, rfl⟩ := asks
  · unfold Lifecycle.requestStop
    split <;> rfl
  · rfl

theorem Asks.honest {l l' : Lifecycle} (asks : Asks l d l') (honest : l.Honest) : l'.Honest := by
  obtain ⟨-, rfl⟩ | ⟨-, rfl⟩ := asks
  · exact honest.requestStop
  · exact honest

theorem Comes.honest (comes : Comes s d s') (honest : s.life.Honest) : s'.life.Honest := by
  cases comes with
  | takes asks | returns asks => exact asks.honest honest
  | givesUp | wakes => exact honest
  | finishes unended => exact honest.finish unended _

/-- How far the calls have come while none that waits has been given up. -/
inductive Stage (s : Supervision) : Prop
  | uncalled : s.controller.hasHandle = true → s.waiting = false → s.returns = [] → Stage s
  | waiting : s.controller.hasHandle = false → s.waiting = true → s.returns = [] → Stage s
  | told {e n} : s.controller.hasHandle = false → s.waiting = false → s.life.ending = some e →
      s.returns.map Return.result = e.result :: List.replicate n (.ok ()) →
      (∀ r ∈ s.returns, r.life.ending = some e ∧ r.life.Honest) → Stage s

theorem Stage.step (stage : Stage s) (honest : s.life.Honest) (comes : Comes s d s') (patient : d ≠ .giveUp) :
    Stage s' := by
  cases comes with
  | takes asks idle handle =>
    cases stage with
    | uncalled _ _ nothing => exact .waiting rfl rfl nothing
    | waiting taken | told taken => exact absurd handle (by simp [taken])
  | returns asks idle taken =>
    cases stage with
    | uncalled handle => exact absurd handle (by simp [taken])
    | waiting _ busy => exact absurd busy (by simp [idle])
    | @told e n _ _ ended results lives =>
      refine .told (n := n + 1) rfl idle (asks.ending.trans ended) ?_ ?_
      · rw [List.map_append, results, List.cons_append, List.replicate_succ']
        rfl
      · rw [List.forall_mem_append, List.forall_mem_singleton]
        exact ⟨lives, asks.ending.trans ended, asks.honest honest⟩
  | givesUp => exact absurd rfl patient
  | finishes unended =>
    cases stage with
    | uncalled handle idle nothing => exact .uncalled handle idle nothing
    | waiting taken busy nothing => exact .waiting taken busy nothing
    | told _ _ ended => exact absurd unended (by simp [ended])
  | @wakes e busy ended =>
    cases stage with
    | uncalled _ idle | told _ idle => exact absurd busy (by simp [idle])
    | waiting taken _ nothing =>
      refine .told (n := 0) taken rfl ended (by simp [nothing]) ?_
      simpa [nothing] using ⟨ended, honest⟩

theorem stage_run (stage : Stage s) (honest : s.life.Honest) (course : s.run ds = some s')
    (patient : .giveUp ∉ ds) : Stage s' := by
  induction ds generalizing s with
  | nil => exact Option.some.inj course ▸ stage
  | cons d ds ih =>
    obtain ⟨u, done, rest⟩ := Option.bind_eq_some_iff.mp course
    have comes := comes_of_apply done
    rw [List.mem_cons, not_or] at patient
    exact ih (stage.step honest comes (Ne.symm patient.1)) (comes.honest honest) rest patient.2

/-- What is left for calls when one that waits has been given up. -/
structure GivenUp (s : Supervision) : Prop where
  taken : s.controller.hasHandle = false
  idle : s.waiting = false
  silent : ∀ r ∈ s.returns, r.result = .ok ()

theorem GivenUp.step (given : GivenUp s) (comes : Comes s d s') : GivenUp s' := by
  obtain ⟨taken, idle, silent⟩ := given
  cases comes with
  | takes _ _ handle => exact absurd handle (by simp [taken])
  | returns =>
    refine ⟨rfl, idle, ?_⟩
    rw [List.forall_mem_append, List.forall_mem_singleton]
    exact ⟨silent, rfl⟩
  | givesUp busy | wakes busy => exact absurd busy (by simp [idle])
  | finishes => exact ⟨taken, idle, silent⟩

theorem Stage.giveUp (stage : Stage s) (comes : Comes s .giveUp s') : GivenUp s' := by
  cases comes with
  | takes asks | returns asks => obtain ⟨⟨⟩, -⟩ | ⟨⟨⟩, -⟩ := asks
  | givesUp busy =>
    cases stage with
    | uncalled _ idle | told _ idle => exact absurd busy (by simp [idle])
    | waiting taken _ nothing => exact ⟨taken, rfl, by simp [nothing]⟩

theorem GivenUp.run (given : GivenUp s) (course : s.run ds = some s') : GivenUp s' := by
  induction ds generalizing s with
  | nil => exact Option.some.inj course ▸ given
  | cons d ds ih =>
    obtain ⟨u, done, rest⟩ := Option.bind_eq_some_iff.mp course
    exact ih (given.step (comes_of_apply done)) rest

theorem Stage.givenUp (stage : Stage s) (honest : s.life.Honest) (course : s.run ds = some s')
    (given : .giveUp ∈ ds) : GivenUp s' := by
  induction ds generalizing s with
  | nil => cases given
  | cons d ds ih =>
    obtain ⟨u, done, rest⟩ := Option.bind_eq_some_iff.mp course
    have comes := comes_of_apply done
    by_cases here : d = .giveUp
    · subst here
      exact (stage.giveUp comes).run rest
    · have later : .giveUp ∈ ds := (List.mem_cons.mp given).resolve_left (Ne.symm here)
      exact ih (stage.step honest comes here) (comes.honest honest) rest later

/-- Calls that are not given up return when the task has ended, and the first of them tells its result. When
one that waits has been given up, no call waits any more, and none tells of a failure. -/
theorem returns_after_end (course : start.run ds = some s) :
    (.giveUp ∉ ds → s.returns = [] ∨ ∃ e n, s.life.ending = some e ∧
      s.returns.map Return.result = e.result :: List.replicate n (.ok ()) ∧
      ∀ r ∈ s.returns, r.life.ending = some e ∧
        (r.life.state = .stopped ↔ ∃ result, e = .returned result)) ∧
    (.giveUp ∈ ds → GivenUp s) := by
  have first : Stage start := .uncalled rfl rfl rfl
  refine ⟨fun patient => ?_, first.givenUp Lifecycle.honest_started course⟩
  cases stage_run first Lifecycle.honest_started course patient with
  | uncalled _ _ nothing | waiting _ _ nothing => exact .inl nothing
  | @told e n _ _ ended results lives =>
    refine .inr ⟨e, n, ended, results, fun r member => ?_⟩
    obtain ⟨ended, honest⟩ := lives r member
    refine ⟨ended, ?_⟩
    rw [Lifecycle.Honest, ended] at honest
    simpa using honest

/-- The server closes the connection of a task that has been asked to stop. -/
def lost : Except Error Unit := .error (.connection .closedByServer)

theorem returns_after_failure : ∃ s, start.run [.stop, .finish (.returned lost), .wake, .wait] = some s ∧
    Deed.giveUp ∉ [Deed.stop, .finish (.returned lost), .wake, .wait] ∧ s.returns ≠ [] ∧
    (s.returns = [] ∨ ∃ e n, s.life.ending = some e ∧
      s.returns.map Return.result = e.result :: List.replicate n (.ok ()) ∧
      ∀ r ∈ s.returns, r.life.ending = some e ∧
        (r.life.state = .stopped ↔ ∃ result, e = .returned result)) := by
  have course : start.run [.stop, .finish (.returned lost), .wake, .wait] = some _ := rfl
  have patient : Deed.giveUp ∉ [Deed.stop, .finish (.returned lost), .wake, .wait] := by simp
  exact ⟨_, course, patient, nofun, (returns_after_end course).1 patient⟩

/-- A call that has been given up takes the result with it, and calls after it return before the task has
ended. -/
theorem returns_before_end : ∃ s,
    start.run [.wait, .giveUp, .stop, .finish (.returned lost), .wait] = some s ∧
    s.returns = [⟨.ok (), ⟨.stopRequested, none⟩⟩, ⟨.ok (), ⟨.stopped, some (.returned lost)⟩⟩] :=
  ⟨_, rfl, rfl⟩

end Supervision

end ChangeFeed
