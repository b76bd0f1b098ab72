import ChangeFeed.Session.Dialogue
import ChangeFeed.Stream.Status

/-!
Replication connections: opening one, asking it questions, streaming from it and closing it. The
sockets below them are a `Network`; what a connection has read too much of and not yet sent is in its
`Connection`.
-/
namespace ChangeFeed.Session

open Wire

inductive DialFault
  | timedOut
  | failed (fault : IoFault)

/-- What reading from a socket gives: bytes, or nothing at the end of what the other side sends. -/
abbrev Arrival := Except IoFault (Option Bytes)

/-- Sockets that are named by `ι`. -/
class Network (m : Type → Type) (ι : outParam Type) where
  /-- Reaches a port of a host, within a number of seconds. -/
  dial : (host : String) → (port limit : Nat) → m (Except DialFault ι)
  send : ι → Bytes → m (Except IoFault Unit)
  receive : ι → m Arrival
  /-- What has arrived, without waiting for it. -/
  poll : ι → m (Option Arrival)
  /-- Tells the other side that nothing more will be sent. -/
  shut : ι → m (Except IoFault Unit)
  /-- Lets go of a socket. -/
  drop : ι → m Unit
  /-- Characters for a login that nobody can guess. -/
  nonce : m String

structure Connection (ι : Type) where
  socket : ι
  /-- Bytes that have arrived and are not used yet. -/
  inbox : Bytes
  /-- Bytes that are still to be sent. -/
  outbox : Bytes
  streaming : Bool
  closed : Bool

namespace Connection

variable {m : Type → Type} {ι : Type} [Monad m] [Network m ι]

/-- Sends what is still to be sent, and keeps it if that fails. -/
def flush (c : Connection ι) : m (Except IoFault Unit × Connection ι) := do
  match ← Network.send c.socket c.outbox with
  | .ok _ => return (.ok (), { c with outbox := [] })
  | .error fault => return (.error fault, c)

def write (c : Connection ι) (bytes : Bytes) : Connection ι := { c with outbox := c.outbox ++ bytes }

/-- One turn of a call: it goes on after something was sent or has arrived, or it ends. -/
def exchange (read : m (Option Arrival)) (a : Await) (c : Connection ι) :
    m ((Await × Connection ι) ⊕ (Option (Except Error Outcome) × Connection ι)) := do
  match advance a c.inbox with
  | .done result inbox => return .inr (some result, { c with inbox })
  | .send bytes next inbox =>
    match ← flush ({ c with inbox }.write bytes) with
    | (.ok _, c) => return .inl (next, c)
    | (.error fault, c) => return .inr (some (next.fail (.io fault)), c)
  | .starved next inbox =>
    let c := { c with inbox }
    match ← read with
    | none => return .inr (none, c)
    | some (.ok (some bytes)) => return .inl (next, { c with inbox := inbox ++ bytes })
    | some (.ok none) => return .inr (some next.ending, c)
    | some (.error fault) => return .inr (some (next.fail (.io fault)), c)

/-- Runs a call to its end, or up to where `read` has nothing to give. -/
def converse (read : m (Option Arrival)) (a : Await) (c : Connection ι) :
    m (Option (Except Error Outcome) × Connection ι) :=
  have : Nonempty (Option (Except Error Outcome) × Connection ι) := ⟨(none, c)⟩
  repeatM (fun p => exchange read p.1 p.2) (a, c)

def run (a : Await) (c : Connection ι) : m (Except Error Outcome × Connection ι) := do
  let (result, c) ← converse (some <$> Network.receive c.socket) a c
  return (result.getD a.ending, c)

/-- Sends what has been written and runs the call that it begins. -/
def call (a : Await) (c : Connection ι) : m (Except Error Outcome × Connection ι) := do
  match ← c.flush with
  | (.ok _, c) => c.run a
  | (.error fault, c) => return (.error (.io fault), c)

/-- Logs in on a socket that has just been opened. -/
def login (l : Login) (socket : ι) : m (Except Error (Connection ι)) := do
  let c : Connection ι := ⟨socket, [], [], false, false⟩
  match Request.startup l.params with
  | .error fault => return .error (.io fault)
  | .ok bytes =>
    let (result, c) ← (c.write bytes).call (.loginRequest l)
    return result.map fun _ => c

/-- Failures that do not name the connection are told with its address. -/
def addressed (host : String) (port : Nat) (e : Error) : Error :=
  match e with
  | .connection _ => e
  | _ => .login host port e

def connect (conninfo : String) (limit : Nat) : m (Except Error (Connection ι)) := do
  match Address.ofString conninfo limit (← Network.nonce) with
  | .error e => return .error e
  | .ok a =>
    match ← Network.dial a.host a.port a.limit with
    | .error .timedOut => return .error (.connection (.timedOut a.host a.port a.limit))
    | .error (.failed fault) => return .error (.connection (.unreachable a.host a.port fault))
    | .ok socket =>
      match ← login a.login socket with
      | .ok c => return .ok c
      | .error e =>
        Network.drop socket
        return .error (addressed a.host a.port e)

/-- Gives a command and runs the call that waits for its effect. A command that cannot be written
leaves its beginning behind. -/
def command (c : Connection ι) (text : String) (a : Await) : m (Except Error Outcome × Connection ι) :=
  match Request.query text with
  | .ok bytes => (c.write bytes).call a
  | .error fault => return (.error (.io fault), c.write Request.brokenQuery)

def query (c : Connection ι) (command : String) : m (Except Error (List Row) × Connection ι) := do
  if c.streaming then return (.error (.replication .streaming), c)
  let (result, c) ← c.command command (.answer [] [] none)
  return (result.map fun
    | .answered rows => rows
    | _ => [], c)

def identify (c : Connection ι) : m (Except Error Identity × Connection ι) := do
  let (rows, c) ← c.query identifyCommand
  return (rows.bind Identity.ofRows, c)

/-- Gives a command that makes the server stream. -/
def stream (c : Connection ι) (command : String) : m (Except Error Unit × Connection ι) := do
  match ← c.command command .copyBoth with
  | (.ok _, c) => return (.ok (), { c with streaming := true })
  | (.error e, c) => return (.error e, c)

/-- Makes the server stream a slot from a checkpoint, or from where it is. -/
def start (c : Connection ι) (slot : String) (checkpoint : Checkpoint) :
    m (Except Error Stream × Connection ι) := do
  match ← c.identify with
  | (.error e, c) => return (.error e, c)
  | (.ok server, c) =>
    let position := startPosition checkpoint server.position
    let (result, c) ← c.stream (startCommand slot position)
    return (result.map fun _ => ⟨slot, position, server⟩, c)

def asFrame (r : Except Error Outcome) : Except Error Frame :=
  r.map fun
    | .received frame => frame
    | _ => .unexpected ""

/-- The next frame, if all of it has arrived. What has arrived of it is kept. -/
def poll (c : Connection ι) : m (Option (Except Error Frame) × Connection ι) := do
  let (result, c) ← converse (Network.poll c.socket) .frame c
  return (result.map asFrame, c)

def report (c : Connection ι) (u : StatusUpdate) : m (Except Error Unit × Connection ι) := do
  let (sent, c) ← (c.write (Request.copyData u.layout)).flush
  return (sent.mapError .io, c)

/-- Ends the stream, says goodbye and shuts the socket. Closing twice changes nothing. -/
def close (c : Connection ι) : m (Except Error Unit × Connection ι) := do
  if c.closed then return (.ok (), c)
  let c := if c.streaming then c.write Request.copyDone else c
  let (sent, c) ← ({ c with streaming := false, closed := true }.write Request.terminate).flush
  let shut ← Network.shut c.socket
  return ((sent.bind fun _ => shut).mapError .io, c)

end Connection

end ChangeFeed.Session
