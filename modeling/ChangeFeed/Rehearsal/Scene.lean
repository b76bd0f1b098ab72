import ChangeFeed.Rehearsal.Bench

/-!
A feed in virtual time with its controller and its consumer.
-/
namespace ChangeFeed.Rehearsal

open Feed

/-- A feed with what surrounds it and who controls it. -/
structure Scene (δ μ : Type) where
  run : Run δ μ
  bench : Bench μ
  controller : Option Controller

namespace Scene

variable {δ μ : Type} [Decoder δ μ]

/-- How often feed and clock move at most. -/
def patience : Nat := 1 <<< 62

/-- Lets the feed do what it can do at this instant. -/
def settle (s : Scene δ μ) : Scene δ μ :=
  let (run, bench) := (s.run.settle patience : StateM (Bench μ) (Run δ μ)).run s.bench
  { s with run, bench }

def ended (s : Scene δ μ) : Bool := s.run.life.ending.isSome

omit [Decoder δ μ] in
/-- The next time at which something happens by itself. -/
def wake? (s : Scene δ μ) : Option Nat :=
  let times := match s.run.phase with
    | .listening => s.run.deadline?.toList ++ (s.bench.script.map Prod.fst).take 1
    | .refreshing _ _ _ => [s.bench.refreshEnd]
    | _ => []
  (times.filter (s.bench.now < ·)).min?

omit [Decoder δ μ] in
def advance (s : Scene δ μ) (time : Nat) : Scene δ μ :=
  { s with bench := { s.bench with now := max time s.bench.now } }

/-- Lets time pass until `limit`, or as long as something happens if there is none; with `untilEnd` no
longer than until the feed has ended. -/
def pass (untilEnd : Bool) (limit : Option Nat) : Nat → Scene δ μ → Scene δ μ
  | 0, s => s
  | fuel + 1, s =>
    let s := s.settle
    if untilEnd && s.ended then s
    else match s.wake?, limit with
      | some time, some l => if time ≤ l then pass untilEnd limit fuel (s.advance time) else s.advance l |>.settle
      | some time, none => pass untilEnd limit fuel (s.advance time)
      | none, some l => s.advance l |>.settle
      | none, none => s

def sleep (s : Scene δ μ) (duration : Nat) : Scene δ μ :=
  s.pass false (some (s.bench.now + duration)) patience

/-- Receives one change and lets the feed go on. -/
def receive (s : Scene δ μ) : Run.Received μ × Scene δ μ :=
  let (received, run) := s.run.receive
  (received, { s with run }.settle)

/-- What came of waiting for the feed: nothing to wait for, its result, or no result in time. -/
inductive Waited
  | nothing
  | ended (result : Except Error Unit)
  | timeout

omit [Decoder δ μ] in
def waited (s : Scene δ μ) : Waited :=
  match s.run.life.ending with
  | some e => .ended e.result
  | none => .timeout

def stop (s : Scene δ μ) (c : Controller) : Waited × Scene δ μ :=
  let (c, life, call) := c.stop s.run.life
  let s := { s with controller := some c, run := { s.run with life } }
  match call with
  | .returns => (.nothing, s)
  | .waits =>
    let s := s.pass true none patience
    (s.waited, s)

/-- Waits for the feed to end, for at most `duration`. -/
def wait (s : Scene δ μ) (c : Controller) (duration : Nat) : Waited × Scene δ μ :=
  let (c, call) := c.wait
  let s := { s with controller := some c }
  match call with
  | .returns => (.nothing, s)
  | .waits =>
    let s := s.pass true (some (s.bench.now + duration)) patience
    (s.waited, s)

omit [Decoder δ μ] in
def dropController (s : Scene δ μ) : Scene δ μ :=
  match s.controller with
  | some c => { s with controller := none, run := { s.run with life := c.drop s.run.life } }
  | none => s

omit [Decoder δ μ] in
def commit (s : Scene δ μ) (c : Checkpoint) : Scene δ μ :=
  { s with bench := { s.bench with tracker := s.bench.tracker.commit c } }

end Scene

end ChangeFeed.Rehearsal
