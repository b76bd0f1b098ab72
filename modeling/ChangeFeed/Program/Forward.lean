import ChangeFeed.Checkpoint.Store
import ChangeFeed.Program.Line

/-!
The forwarder writes each change as a line, commits it once it is written, and saves the last
committed checkpoint from time to time. `Forwarder.apply` says what its moves do; whoever runs it
chooses them: what arrives, and how writing, saving and flushing turn out.
-/
namespace ChangeFeed.Program

abbrev PglogicalChange := Change Pglogical.Message

inductive ForwardPhase
  /-- Waiting for a change, the time of the next save, or the end. -/
  | waiting
  | writing (c : PglogicalChange)
  | saving (c : Checkpoint)
  | flushing
  | ended (result : Except IoFault (Option Checkpoint))

inductive ForwardMove
  | receive (c : PglogicalChange)
  | tick
  /-- No change will come any more, or the program is asked to end. -/
  | finish
  | written (outcome : Except IoFault Unit)
  | saved (outcome : Except Error Unit)
  | flushed (outcome : Except IoFault Unit)

structure Forwarder where
  phase : ForwardPhase
  saves : Bool
  tracker : Tracker
  /-- The checkpoint of the last change that was written. -/
  committed : Option Checkpoint
  saved : Option Checkpoint

namespace Forwarder

def start (saves : Bool) (tracker : Tracker) : Forwarder := ⟨.waiting, saves, tracker, none, none⟩

/-- The checkpoint to save now: the last one committed, unless it was saved last. -/
def unsaved? (f : Forwarder) : Option Checkpoint :=
  if f.saves ∧ f.saved ≠ f.committed then f.committed else none

/-- The forwarder after a move; nothing if its phase does not allow the move. -/
def apply (f : Forwarder) (move : ForwardMove) : Option Forwarder :=
  match f.phase, move with
  | .waiting, .receive c => some { f with phase := .writing c }
  | .waiting, .tick =>
    match f.unsaved? with
    | some c => some { f with phase := .saving c }
    | none => some f
  | .waiting, .finish => some { f with phase := .flushing }
  | .writing c, .written (.ok _) =>
    some { f with
      phase := .waiting, tracker := f.tracker.commit c.checkpoint, committed := some c.checkpoint }
  | .writing _, .written (.error fault) => some { f with phase := .ended (.error fault) }
  | .saving c, .saved (.ok _) => some { f with phase := .waiting, saved := some c }
  | .saving _, .saved (.error _) => some { f with phase := .waiting }
  | .flushing, .flushed (.ok _) => some { f with phase := .ended (.ok f.committed) }
  | .flushing, .flushed (.error fault) => some { f with phase := .ended (.error fault) }
  | _, _ => none

end Forwarder

/-- Where lines go, and from where the program is asked to end. -/
class Terminal (m : Type → Type) where
  writeLine : String → m (Except IoFault Unit)
  flush : m (Except IoFault Unit)
  interrupted : m Bool

namespace Forwarder

variable {m : Type → Type} [Monad m] [Terminal m] [FileSystem m]

/-- The move that ends what the forwarder is doing by itself, if it is doing something. -/
def work? (f : Forwarder) (store : Option Store) : m (Option ForwardMove) := do
  match f.phase, store with
  | .writing c, _ => return some (.written (← Terminal.writeLine (line c)))
  | .saving c, some store => return some (.saved (← store.save c))
  | .saving _, none => return some (.saved (.ok ()))
  | .flushing, _ => return some (.flushed (← Terminal.flush))
  | .waiting, _ | .ended _, _ => return none

/-- Makes a move and finishes what it begins. -/
def move (f : Forwarder) (store : Option Store) (x : ForwardMove) : m Forwarder := do
  match f.apply x with
  | none => return f
  | some f =>
    match ← f.work? store with
    | none => return f
    | some y => return (f.apply y).getD f

/-- Makes moves one after the other, each finished before the next. -/
def run (f : Forwarder) (store : Option Store) : List ForwardMove → m Forwarder
  | [] => return f
  | x :: xs => do run (← f.move store x) store xs

end Forwarder

end ChangeFeed.Program
