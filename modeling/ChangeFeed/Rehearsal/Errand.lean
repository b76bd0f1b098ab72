import ChangeFeed.Rehearsal.Scene

/-!
A supervised task that does the steps of a script, in virtual time.
-/
namespace ChangeFeed.Rehearsal

inductive ErrandStep
  | sleep (duration : Nat)
  | awaitStop
  | fail (e : Error)
  | panic (message : String)
  | idle

structure Errand where
  now : Nat
  steps : List ErrandStep
  /-- When the step that it is in ends by itself. -/
  wake : Option Nat
  waitsForStop : Bool
  life : Lifecycle
  controller : Option Controller
  /-- Each step with the time at which it was begun and whether a stop had been requested, the latest
  first. -/
  log : List (ErrandStep × Nat × Bool)

namespace Errand

def create (steps : List ErrandStep) : Errand :=
  ⟨0, steps, none, false, .started, some .fresh, []⟩

def ended (e : Errand) : Bool := e.life.ending.isSome

def begin (e : Errand) : ErrandStep → Errand
  | .sleep duration => { e with wake := some (e.now + duration) }
  | .awaitStop => { e with waitsForStop := true }
  | .fail err => { e with life := e.life.finish (.returned (.error err)) }
  | .panic message => { e with life := e.life.finish (.panicked 0 message) }
  | .idle => e

/-- Whether the step that it is in goes on. -/
def isBusy (e : Errand) : Bool :=
  e.ended || e.wake.any (e.now < ·) || (e.waitsForStop && !e.life.stopRequested)

/-- Begins the steps that are left, as far as it has not to wait. -/
def work : List ErrandStep → Errand → Errand
  | [], e =>
    if e.isBusy then e
    else { e with wake := none, waitsForStop := false, life := e.life.finish (.returned (.ok ())) }
  | step :: steps, e =>
    if e.isBusy then e
    else work steps
      ({ e with
          steps, wake := none, waitsForStop := false
          log := (step, e.now, e.life.stopRequested) :: e.log }.begin step)

def settle (e : Errand) : Errand := work e.steps e

def advance (e : Errand) (time : Nat) : Errand := { e with now := max time e.now }

/-- Lets time pass until `limit`, or as long as something happens if there is none; with `untilEnd` no
longer than until the task has ended. -/
def pass (untilEnd : Bool) (limit : Option Nat) : Nat → Errand → Errand
  | 0, e => e
  | fuel + 1, e =>
    let e := e.settle
    if untilEnd && e.ended then e
    else match if e.ended then none else e.wake, limit with
      | some time, some l => if time ≤ l then pass untilEnd limit fuel (e.advance time) else e.advance l
      | some time, none => pass untilEnd limit fuel (e.advance time)
      | none, some l => e.advance l
      | none, none => e

def sleep (e : Errand) (duration : Nat) : Errand :=
  e.pass false (some (e.now + duration)) Scene.patience

def waited (e : Errand) : Scene.Waited :=
  match e.life.ending with
  | some x => .ended x.result
  | none => .timeout

def stop (e : Errand) (c : Controller) : Scene.Waited × Errand :=
  let (c, life, call) := c.stop e.life
  let e := { e with controller := some c, life }
  match call with
  | .returns => (.nothing, e)
  | .waits =>
    let e := e.pass true none Scene.patience
    (e.waited, e)

/-- Waits for the task to end, for at most `duration`. -/
def wait (e : Errand) (c : Controller) (duration : Nat) : Scene.Waited × Errand :=
  let (c, call) := c.wait
  let e := { e with controller := some c }
  match call with
  | .returns => (.nothing, e)
  | .waits =>
    let e := e.pass true (some (e.now + duration)) Scene.patience
    (e.waited, e)

def dropController (e : Errand) : Errand :=
  match e.controller with
  | some c => { e with controller := none, life := c.drop e.life }
  | none => e

end Errand

end ChangeFeed.Rehearsal
