import ChangeFeed.Error

/-!
The life of a supervised task: it runs, may be asked to stop, and reports that it has stopped when
its own cleanup is done. A controller asks it to stop and waits for its result, which is handed out
once.
-/
namespace ChangeFeed

inductive LoopState
  | running
  | stopRequested
  | stopped
deriving DecidableEq, Repr

inductive Ending
  | returned (result : Except Error Unit)
  /-- It broke off with a message. -/
  | panicked (task : Nat) (message : String)

def Ending.result : Ending → Except Error Unit
  | .returned r => r
  | .panicked task message => .error (.replication (.taskPanicked task message))

/-- The state that a task reports, and its ending once it has ended. -/
structure Lifecycle where
  state : LoopState
  ending : Option Ending

namespace Lifecycle

def started : Lifecycle := ⟨.running, none⟩

def stopRequested (l : Lifecycle) : Bool := l.state != .running

def requestStop (l : Lifecycle) : Lifecycle :=
  if l.state = .running then { l with state := .stopRequested } else l

/-- A task that returns reports that it has stopped; one that breaks off reports nothing. -/
def finish (l : Lifecycle) (e : Ending) : Lifecycle :=
  match e with
  | .returned _ => ⟨.stopped, some e⟩
  | .panicked _ _ => ⟨l.state, some e⟩

end Lifecycle

/-- Who waits for a task. The first call to wait takes the task's handle, and keeps it also when it
gives up; calls after it have nothing to wait for. -/
structure Controller where
  hasHandle : Bool
deriving DecidableEq, Repr

namespace Controller

def fresh : Controller := ⟨true⟩

/-- What a call to wait for the task does. -/
inductive Call
  | returns
  | waits
deriving DecidableEq, Repr

def wait (c : Controller) : Controller × Call :=
  (⟨false⟩, if c.hasHandle then .waits else .returns)

/-- A call to stop asks the task to stop before it waits. -/
def stop (c : Controller) (l : Lifecycle) : Controller × Lifecycle × Call :=
  (c.wait.1, l.requestStop, c.wait.2)

/-- A controller that is given up asks the task to stop. -/
def drop (_ : Controller) (l : Lifecycle) : Lifecycle := l.requestStop

end Controller

end ChangeFeed
