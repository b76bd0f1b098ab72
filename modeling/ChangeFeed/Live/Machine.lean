import ChangeFeed.Control.Client
import ChangeFeed.Program.Capture
import Std.Async.DNS
import Std.Async.Signal
import Std.Async.TCP
import Std.Async.Timer
import Std.Internal.UV.System

/-!
The machine that the program runs on: its network, clock, files and terminal. Waiting for a time also
ends when something arrives or when somebody asks the program to end.
-/
namespace ChangeFeed.Live

open Std.Async

/-- A socket, and the bytes that are awaited on it. -/
structure Socket where
  number : Nat
  client : TCP.Socket.Client
  pending : IO.Ref (Option (AsyncTask (Option ByteArray)))

structure Machine where
  sockets : IO.Ref (List Socket)
  next : IO.Ref Nat
  /-- The request to end, once somebody listens for it. -/
  interrupt : IO.Ref (Option (AsyncTask Int))
  deadline : IO.Ref (Option Nat)

def Machine.create : IO Machine :=
  return ⟨← IO.mkRef [], ← IO.mkRef 0, ← IO.mkRef none, ← IO.mkRef none⟩

abbrev Act := ReaderT Machine IO

/-- The number that the system has for a failure. -/
def systemCode : IO.Error → Option UInt32
  | .alreadyExists _ code _ | .otherError code _ | .resourceBusy code _ | .resourceVanished code _
  | .unsupportedOperation code _ | .hardwareFault code _ | .unsatisfiedConstraints code _
  | .illegalOperation code _ | .protocolError code _ | .timeExpired code _ | .interrupted _ code _
  | .noFileOrDirectory _ code _ | .invalidArgument _ code _ | .permissionDenied _ code _
  | .resourceExhausted _ code _ | .inappropriateType _ code _ | .noSuchThing _ code _ => some code
  | .unexpectedEof | .userError _ => none

/-- Numbers of the network are negative. -/
def positive (code : UInt32) : UInt32 := if UInt32.size / 2 ≤ code.toNat then 0 - code else code

def faultOf (e : IO.Error) : IoFault :=
  match (systemCode e).map positive with
  | some 2 => .notFound
  | some 20 => .notDirectory
  | some 21 => .isDirectory
  | some 32 => .brokenPipe
  | some 111 => .connectionRefused
  | _ => .other (toString e)

/-- What an action gives, or the failure that it ends with. -/
def attempt {α : Type} (action : IO α) : Act (Except IoFault α) :=
  fun _ => do
    match ← action.toBaseIO with
    | .ok a => return .ok a
    | .error e => return .error (faultOf e)

def bytesOf (bs : ByteArray) : Bytes := bs.toList

def arrayOf (bs : Bytes) : ByteArray := ⟨bs.toArray⟩

/-- Waits until one of the tasks is done, but not past `deadline`. -/
def waitUntil (tasks : List (Task Unit)) (deadline : Option Nat) : IO Unit := do
  match deadline with
  | none =>
    match tasks with
    | [] => return
    | t :: ts => IO.waitAny (t :: ts) (by simp)
  | some time =>
    let now ← IO.monoMsNow
    let timer ← (Sleep.mk (Std.Time.Millisecond.Offset.ofNat (time - now))).block
    let elapsed ← timer.wait.toIO
    IO.waitAny (Task.map (fun _ => ()) elapsed :: tasks) (by simp)
    timer.stop

/-- A task of which only the end counts. -/
def quiet {α : Type} (t : AsyncTask α) : Task Unit := Task.map (fun _ => ()) t

instance : Time.Clock Act where
  now := fun _ => IO.monoMsNow
  wall := fun _ => do
    let t ← Std.Time.Timestamp.now
    return t.toNanosecondsSinceUnixEpoch.val / 1000 - 946684800 * 1000000
  wait time := fun machine => do
    let pending ← (← machine.sockets.get).filterMapM (·.pending.get)
    let interrupt ← machine.interrupt.get
    waitUntil (pending.map quiet ++ interrupt.toList.map quiet) time

namespace Socket

/-- The bytes that are awaited; asks for some if none are. -/
def await (s : Socket) : IO (AsyncTask (Option ByteArray)) := do
  match ← s.pending.get with
  | some t => return t
  | none =>
    let t ← (s.client.recv? 65536).toIO
    s.pending.set (some t)
    return t

def finish (s : Socket) (t : AsyncTask (Option ByteArray)) : IO Session.Arrival := do
  s.pending.set none
  match t.get with
  | .ok bytes => return .ok (bytes.map bytesOf)
  | .error e => return .error (faultOf e)

end Socket

def resolve (host : String) : IO (List Std.Net.IPAddr) := do
  match Std.Net.IPv4Addr.ofString host, Std.Net.IPv6Addr.ofString host with
  | some a, _ => return [.v4 a]
  | none, some a => return [.v6 a]
  | none, none => return (← (DNS.getAddrInfo host "").block).toList

def addressOf (a : Std.Net.IPAddr) (port : Nat) : Std.Net.SocketAddress :=
  match a with
  | .v4 addr => .v4 ⟨addr, port.toUInt16⟩
  | .v6 addr => .v6 ⟨addr, port.toUInt16⟩

/-- Tries addresses in turn until `deadline`; `last` is what went wrong with the one before. -/
def reach (port : Nat) (deadline : Option Nat) (last : Session.DialFault) :
    List Std.Net.IPAddr → IO (Except Session.DialFault TCP.Socket.Client)
  | [] => return .error last
  | a :: rest => do
    let client ← TCP.Socket.Client.mk
    let connected ← (client.connect (addressOf a port)).toIO
    waitUntil [quiet connected] deadline
    if ← IO.hasFinished connected then
      match connected.get with
      | .ok _ => return .ok client
      | .error e => reach port deadline (.failed (faultOf e)) rest
    else return .error .timedOut

def dial (host : String) (port : Nat) (deadline : Option Nat) : Act (Except Session.DialFault Socket) :=
  fun machine => do
    match ← (resolve host).toBaseIO with
    | .error e => return .error (.failed (.other (toString e)))
    | .ok addresses =>
      match ← (reach port deadline (.failed .connectionRefused) addresses).toBaseIO with
      | .ok (.ok client) =>
        let s : Socket := ⟨← machine.next.modifyGet fun n => (n, n + 1), client, ← IO.mkRef none⟩
        machine.sockets.modify (s :: ·)
        return .ok s
      | .ok (.error fault) => return .error fault
      | .error e => return .error (.failed (faultOf e))

instance : Session.Network Act Socket where
  dial host port limit := do dial host port (some ((← Time.Clock.now) + limit * 1000))
  send s bytes := attempt (s.client.send (arrayOf bytes)).block
  receive s := fun machine => do
    let t ← s.await
    waitUntil [quiet t] (← machine.deadline.get)
    if ← IO.hasFinished t then s.finish t else return .error (.other "timed out")
  poll s := fun _ => do
    let t ← s.await
    if ← IO.hasFinished t then return some (← s.finish t) else return none
  shut s := attempt s.client.shutdown.block
  drop s := fun machine => do
    s.pending.set none
    machine.sockets.modify (·.filter (·.number != s.number))
  nonce := fun _ => do return Text.Base64.encodeString (bytesOf (← IO.getRandomBytes 18))

/-- A control connection. -/
structure Line where
  connection : IO.Ref (Session.Connection Socket)

def Line.use {α : Type} (k : Line)
    (f : Session.Connection Socket → Act (α × Session.Connection Socket)) : Act α := do
  let (a, c) ← f (← k.connection.get)
  k.connection.set c
  return a

/-- Runs an action in which waiting for bytes is given up at `deadline`. -/
def before {α : Type} (deadline : Nat) (action : Act α) : Act α := do
  (← read).deadline.set (some deadline)
  let a ← action
  (← read).deadline.set none
  return a

/-- The failure of an attempt, unless its time has run out. -/
def failure {α : Type} (deadline : Nat) (detail : String) : Act (Control.Attempt α) := do
  return if deadline ≤ (← Time.Clock.now) then .late else .failed detail

instance : Control.Database Act Line where
  reach r limit deadline := do
    match r.host with
    | .socket _ => return .failed "unix sockets are not supported"
    | .name host =>
      let now ← Time.Clock.now
      match ← dial host r.port (some (limit.elim deadline fun n => min deadline (now + n * 1000))) with
      | .ok s => return .done ⟨← IO.mkRef ⟨s, [], [], false, false⟩⟩
      | .error .timedOut => failure deadline "timed out"
      | .error (.failed fault) => failure deadline fault.text
  login k t deadline := do
    match ← before deadline (Control.Client.login t (← k.connection.get).socket) with
    | .ok c =>
      k.connection.set c
      return .done ()
    | .error e => failure deadline e.message
  execute k s := k.use (Control.Client.execute · s)
  release k := do Control.Client.close (← k.connection.get)

/-- Runs a step of writing a file. The system is told to write at once what it was given; it offers
no stronger promise here. -/
def performStep : FileStep → IO Unit
  | .create path => do let _ ← IO.FS.Handle.mk path .write
  | .append path bytes => do (← IO.FS.Handle.mk path .append).write (arrayOf bytes)
  | .sync path => do (← IO.FS.Handle.mk path .append).flush
  | .rename path target => IO.FS.rename path target

instance : FileSystem Act where
  hasEntry path := do
    match ← attempt (do let _ ← IO.FS.Handle.mk path .read) with
    | .error .notFound => return .ok false
    | .error fault => return .error fault
    | .ok _ => return .ok true
  read path := do return (← attempt (IO.FS.readBinFile path)).map bytesOf
  perform step := attempt (performStep step)
  remove path := attempt (IO.FS.removeFile path)

instance : Program.Terminal Act where
  writeLine s := attempt (do
    let stdout ← IO.getStdout
    stdout.putStr (s ++ "\n")
    stdout.flush)
  flush := attempt (do (← IO.getStdout).flush)
  interrupted := fun machine => do
    match ← machine.interrupt.get with
    | some t => IO.hasFinished t
    | none =>
      let waiter ← Signal.Waiter.mk .sigint false
      machine.interrupt.set (some (← waiter.wait))
      return false

instance : Feed.Witness Act Pglogical.Message where
  record _ := return ()

def environment : IO (List (String × String)) := return (← Std.Internal.UV.System.osEnviron).toList

end ChangeFeed.Live
