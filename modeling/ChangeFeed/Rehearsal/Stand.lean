import ChangeFeed.Rehearsal.World
import ChangeFeed.Source

/-!
A source on a scripted machine with its consumer. Time passes only while the consumer waits.
-/
namespace ChangeFeed.Rehearsal

structure Stand (σ δ μ : Type) where
  source : Source Nat Nat σ δ μ
  /-- Whether the consumer holds the receiving end of a channel. -/
  receives : Bool
  /-- The checkpoint of the change that was received last. -/
  last : Option Checkpoint

namespace Stand

variable {σ δ μ : Type}

def create (source : Source Nat Nat σ δ μ) : Stand σ δ μ := ⟨source, false, none⟩

def setup [Control.SchemaLoader (StateM (World μ)) σ] (s : Stand σ δ μ)
    (build : Nat → Except Error (σ × δ)) : StateM (World μ) (Except Error Unit × Stand σ δ μ) := do
  let (result, source) ← s.source.setup build
  return (result, { s with source })

def capture (s : Stand σ δ μ) (checkpoint : Checkpoint) :
    StateM (World μ) (Source.Start × Stand σ δ μ) := do
  let (result, source) ← s.source.start checkpoint
  let started := match result with
    | .started => true
    | _ => false
  return (result, { s with source, receives := s.receives || started })

def dropReceiver (s : Stand σ δ μ) : Stand σ δ μ :=
  let capture := s.source.capture.map fun c => { c with run := c.run.dropReceiver }
  { s with source := { s.source with capture }, receives := false }

def commit (s : Stand σ δ μ) (c : Checkpoint) : Stand σ δ μ := { s with source := s.source.commit c }

section Waiting

variable [Decoder δ μ] [Control.SchemaLoader (StateM (World μ)) σ]

/-- Lets time pass until `done`, as far as the feed goes on by itself. -/
def await (done : Source Nat Nat σ δ μ → World μ → Bool) :
    Nat → Source Nat Nat σ δ μ → StateM (World μ) (Source Nat Nat σ δ μ)
  | 0, s => return s
  | fuel + 1, s => do
    let s ← s.settle
    if done s (← get) then return s
    match s.deadline? with
    | some time =>
      Time.Clock.wait (some time)
      await done fuel s
    | none => return s

def patience : Nat := 1 <<< 62

omit [Decoder δ μ] [Control.SchemaLoader (StateM (World μ)) σ] in
/-- Whether receiving would find a change or the end of all changes. -/
def hasNews (s : Source Nat Nat σ δ μ) : Bool :=
  match s.tryReceive with
  | some (.empty, _) => false
  | _ => true

/-- Waits for a change or the end of all changes. -/
def receive (s : Stand σ δ μ) : StateM (World μ) (Option (Feed.Run.Received μ) × Stand σ δ μ) := do
  if !s.receives then return (none, s)
  let source ← await (fun s _ => hasNews s) patience s.source
  match source.tryReceive with
  | some (received, source) =>
    let last := match received with
      | .change c => some c.checkpoint
      | _ => s.last
    return (some received, { s with source, last })
  | none => return (none, { s with source })

/-- Waits for the end of a capture, if there is one. -/
def awaitStopped (s : Stand σ δ μ) : StateM (World μ) (Stand σ δ μ) := do
  return { s with source := ← await (fun s _ => !s.isCapturing) patience s.source }

/-- Waits until `count` reports have arrived on a replication connection. -/
def awaitReports (s : Stand σ δ μ) (connection count : Nat) : StateM (World μ) (Stand σ δ μ) := do
  let done := fun (_ : Source Nat Nat σ δ μ) (w : World μ) =>
    w.servers.size ≤ connection || count ≤ (w.reports connection).length
  return { s with source := ← await done patience s.source }

def stop (s : Stand σ δ μ) : StateM (World μ) (Except Error Unit × Stand σ δ μ) := do
  let (result, source) ← s.source.stop
  return (result, { s with source })

end Waiting

end Stand

end ChangeFeed.Rehearsal
