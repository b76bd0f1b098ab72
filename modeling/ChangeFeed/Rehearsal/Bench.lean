import ChangeFeed.Feed.Schedule

/-!
A feed in virtual time. The frames of a script arrive at their times, sending takes no time, and the
clock moves only when the feed waits.
-/
namespace ChangeFeed.Rehearsal

open Feed

/-- What surrounds a rehearsed feed, and what has happened so far. -/
structure Bench (μ : Type) where
  /-- Milliseconds. -/
  now : Nat
  tracker : Tracker
  /-- What the transport delivers, in order, each not before its time. -/
  script : List (Nat × Except Error Frame)
  statusFailAt : Option Nat
  statuses : Nat
  /-- The refresh from which on all fail, counted from one. -/
  refreshFailAt : Option Nat
  refreshTime : Nat
  refreshes : Nat
  refreshEnd : Nat
  /-- Times and events, the latest first. -/
  log : List (Nat × Event μ)

namespace Bench

variable {μ : Type}

def create (tracker : Tracker) (script : List (Nat × Except Error Frame))
    (statusFailAt refreshFailAt : Option Nat) (refreshTime : Nat) : Bench μ :=
  ⟨0, tracker, script, statusFailAt, 0, refreshFailAt, refreshTime, 0, 0, []⟩

def take? (b : Bench μ) : Option (Except Error Frame × Bench μ) :=
  match b.script with
  | (time, frame) :: script => if time ≤ b.now then some (frame, { b with script }) else none
  | [] => none

def report (b : Bench μ) : Except Error Unit × Bench μ :=
  let b := { b with statuses := b.statuses + 1 }
  (if b.statusFailAt = some b.statuses then .error (.connection (.other "broken pipe")) else .ok (), b)

/-- How a refresh ends, once it has taken its time. -/
def refreshed? (b : Bench μ) : Option (Except Error Unit) :=
  if b.now < b.refreshEnd then none
  else if b.refreshFailAt.any (· ≤ b.refreshes) then
    some (.error (.connection (.other "control connection lost")))
  else some (.ok ())

instance : Surroundings (StateM (Bench μ)) μ where
  view := do
    let b ← get
    return ⟨b.now, b.tracker.committed, 0⟩
  poll := do
    match (← get).take? with
    | some (frame, b) =>
      set b
      return some frame
    | none => return none
  report _ := modifyGet report
  startRefresh := modify fun b =>
    { b with refreshes := b.refreshes + 1, refreshEnd := b.now + b.refreshTime }
  pollRefresh := return (← get).refreshed?
  close := return ()
  record es := modify fun b => { b with log := (es.map (b.now, ·)).reverse ++ b.log }

end Bench

end ChangeFeed.Rehearsal
