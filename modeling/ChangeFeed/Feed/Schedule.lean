import ChangeFeed.Feed.Run

/-!
Running the feed: which move it makes next, given what surrounds it. A request to stop comes before
a frame, a frame before the time of the next report, and room on the channel before a request to
stop.
-/
namespace ChangeFeed.Feed

class Surroundings (m : Type → Type) (μ : outParam Type) where
  view : m View
  /-- A frame that is there, or the failure to receive one. -/
  poll : m (Option (Except Error Frame))
  report : StatusUpdate → m (Except Error Unit)
  startRefresh : m Unit
  /-- How the refresh that was started ended, once it has. -/
  pollRefresh : m (Option (Except Error Unit))
  close : m Unit
  record : List (Event μ) → m Unit

namespace Run

variable {δ μ : Type} {m : Type → Type} [Decoder δ μ] [Monad m] [Surroundings m μ]

/-- The move that the feed makes now, or nothing if it has to wait. -/
def nextMove (r : Run δ μ) (v : View) : m (Option Move) :=
  match r.phase with
  | .checking => return some .check
  | .reporting update => return some (.report (← Surroundings.report update))
  | .listening => do
    if r.life.stopRequested then return some .heed
    match ← Surroundings.poll with
    | some frame => return some (.take frame)
    | none => return if r.nextReport ≤ v.now then some .expire else none
  | .refreshing _ _ _ => return (← Surroundings.pollRefresh).map .refresh
  | .offering _ =>
    return if !r.channel.hasReceiver then some .lose
      else if r.channel.buffer.length < r.channel.capacity then some .deliver
      else if r.life.stopRequested then some .abandon
      else none
  | .closing _ => do
    Surroundings.close
    return some .close
  | .releasing _ => return some .release
  | .publishing _ => return some .publish
  | .ended => return none

/-- One move, or nothing if the feed has to wait. -/
def turn (r : Run δ μ) : m (Option (Run δ μ)) := do
  let v ← Surroundings.view
  match ← r.nextMove v with
  | none => return none
  | some move =>
    match r.apply v move with
    | none => return none
    | some (r', events) =>
      Surroundings.record events
      match r'.phase with
      | .refreshing _ _ _ => Surroundings.startRefresh
      | _ => pure ()
      return some r'

/-- Moves until it has to wait, at most `fuel` times. -/
def settle : Nat → Run δ μ → m (Run δ μ)
  | 0, r => return r
  | fuel + 1, r => do
    match ← r.turn with
    | some r' => settle fuel r'
    | none => return r

omit [Decoder δ μ] in
/-- When the feed moves on by itself. -/
def deadline? (r : Run δ μ) : Option Nat :=
  match r.phase with
  | .listening => some r.nextReport
  | _ => none

end Run

end ChangeFeed.Feed
