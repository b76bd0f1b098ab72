import ChangeFeed.Control.Database
import ChangeFeed.Session.Connection

/-!
The two connections of a capture. Closing closes each of them once, the replication connection first;
what is closed is gone, so closing again does nothing.
-/
namespace ChangeFeed

class Transport (m : Type → Type) (ρ : Type) where
  /-- The next frame, if it has arrived, or the failure to receive it. -/
  poll : ρ → m (Option (Except Error Frame) × ρ)
  report : ρ → StatusUpdate → m (Except Error Unit × ρ)
  close : ρ → m (Except Error Unit × ρ)

instance {m : Type → Type} {ι : Type} [Monad m] [Session.Network m ι] :
    Transport m (Session.Connection ι) where
  poll := Session.Connection.poll
  report := Session.Connection.report
  close := Session.Connection.close

/-- Control and replication connection, each if it is open. -/
structure Connections (κ ρ : Type) where
  control : Option κ
  replication : Option ρ

namespace Connections

variable {m : Type → Type} {κ ρ ι : Type}

def empty : Connections κ ρ := ⟨none, none⟩

def isOpen (c : Connections κ ρ) : Bool := c.control.isSome || c.replication.isSome

variable [Monad m] [Control.Database m κ]

/-- Failures to close do not matter. -/
def close [Transport m ρ] (c : Connections κ ρ) : m (Connections κ ρ) := do
  match c.replication with
  | some r => let _ ← Transport.close r
  | none => pure ()
  match c.control with
  | some k => Control.Database.release k
  | none => pure ()
  return empty

/-- A connection that is opened takes the place of one before it; failing changes nothing. -/
def openControl [Time.Clock m] (c : Connections κ ρ) (conninfo : String) (limit : Nat) :
    m (Except Error κ × Connections κ ρ) := do
  match ← Control.connect conninfo limit with
  | .error e => return (.error e, c)
  | .ok k =>
    match c.control with
    | some old => Control.Database.release old
    | none => pure ()
    return (.ok k, { c with control := some k })

omit [Control.Database m κ] in
/-- A connection that is opened takes the place of one before it, which is let go without a word;
failing changes nothing. -/
def openReplication [Session.Network m ι] (c : Connections κ (Session.Connection ι)) (conninfo : String)
    (limit : Nat) : m (Except Error Unit × Connections κ (Session.Connection ι)) := do
  match ← Session.Connection.connect conninfo limit with
  | .error e => return (.error e, c)
  | .ok r =>
    match c.replication with
    | some old => Session.Network.drop old.socket
    | none => pure ()
    return (.ok (), { c with replication := some r })

/-- Lets go of both connections without a word. -/
def abandon [Session.Network m ι] (c : Connections κ (Session.Connection ι)) : m Unit := do
  match c.replication with
  | some r => Session.Network.drop r.socket
  | none => pure ()
  match c.control with
  | some k => Control.Database.release k
  | none => pure ()

end Connections

end ChangeFeed
