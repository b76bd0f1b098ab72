import ChangeFeed.Checkpoint.Volume
import ChangeFeed.Control.Catalog
import ChangeFeed.Feed.Desk
import ChangeFeed.Program.Forward
import ChangeFeed.Rehearsal.Server

/-!
A machine whose servers are scripted: one port leads to replication servers, one to control servers,
one never answers, and no other is open, whatever the host is called.
-/
namespace ChangeFeed.Rehearsal

open Control

inductive Breakage
  /-- The server answers something that nobody understands. -/
  | garbage
  | close
deriving DecidableEq

structure ControlScript where
  /-- Accepts a connection and never answers. -/
  silent : Bool
  loginError : Option String
  types : Rows
  fails : Statement → Option DatabaseFault
  breaks : Statement → Option Breakage

structure ControlServer where
  script : ControlScript
  /-- What was run on it, the latest first. -/
  statements : List Statement
  dead : Bool

inductive WorldEvent (μ : Type)
  | refreshed
  | feed (e : Feed.Event μ)

structure Console where
  /-- The latest first. -/
  lines : List String
  room : Option Nat
  flushes : Nat
  /-- After how many lines somebody asks the program to end. -/
  interruptAfter : Option Nat
  /-- When that happens, once it is known. -/
  interruptTime : Option Nat

structure World (μ : Type) where
  /-- Milliseconds. -/
  now : Nat
  scripts : List (List ServerItem × Bool)
  controlScripts : List ControlScript
  /-- The connections so far, each kind in its order. -/
  servers : Array Server
  controls : Array ControlServer
  /-- The latest first. -/
  log : List (WorldEvent μ)
  /-- What the catalog that was used last holds. -/
  types : Option (List (Nat × String))
  volume : Volume
  console : Console

namespace World

variable {μ : Type}

def replicationPort : Nat := 40002
def controlPort : Nat := 40001
def silentPort : Nat := 2

def create (scripts : List (List ServerItem × Bool)) (controlScripts : List ControlScript) : World μ :=
  ⟨0, scripts, controlScripts, #[], #[], [], none, .empty, ⟨[], none, 0, none, none⟩⟩

def modifyServer (w : World μ) (i : Nat) (f : Server → Server) : World μ :=
  { w with servers := w.servers.modify i f }

def note (w : World μ) (e : WorldEvent μ) : World μ := { w with log := e :: w.log }

def dial (w : World μ) (port limit : Nat) : Except Session.DialFault Nat × World μ :=
  if port = replicationPort then
    let (script, hold) := w.scripts.headD ([], false)
    (.ok w.servers.size,
      { w with scripts := w.scripts.drop 1, servers := w.servers.push (.accept script hold) })
  else if port = silentPort then (.error .timedOut, { w with now := w.now + limit * 1000 })
  else (.error (.failed .connectionRefused), w)

def send (w : World μ) (i : Nat) (bytes : Bytes) : Except IoFault Unit × World μ :=
  if (w.servers[i]?.map (·.shut)).getD true then (.error .brokenPipe, w)
  else (.ok (), w.modifyServer i (·.hear bytes))

def poll (w : World μ) (i : Nat) : Option (Option Bytes) × World μ :=
  ((w.servers[i]?).bind Server.read?, w.modifyServer i fun s => { s with sent := [] })

instance : Time.Clock (StateM (World μ)) where
  now := return (← get).now
  wall := return 0
  wait
    | some time => modify fun w => { w with now := max w.now (w.console.interruptTime.elim time (min time)) }
    | none => return ()

/-- A server from which nothing more comes counts as gone for a call that cannot be given up. -/
instance : Session.Network (StateM (World μ)) Nat where
  dial _ port limit := modifyGet (·.dial port limit)
  send i bytes := modifyGet (·.send i bytes)
  receive i := do return .ok (← modifyGet (·.poll i)).join
  poll i := do return (← modifyGet (·.poll i)).map .ok
  shut i := do
    modify (·.modifyServer i fun s => { s with shut := true })
    return .ok ()
  drop i := modify (·.modifyServer i fun s => { s with shut := true })
  nonce := return "rOprNGfwEbeRWgbNEkqO2b9X"

def noControl : ControlScript := ⟨false, none, [], fun _ => none, fun _ => none⟩

def isStatus (m : Char × Bytes) : Bool := m.1 = 'd' && m.2.head? = some StatusUpdate.tag

/-- The reports that have arrived on a replication connection. -/
def reports (w : World μ) (i : Nat) : List (Char × Bytes) :=
  ((w.servers[i]?.map (·.messages)).getD []).filter isStatus

/-- Waiting for something that never comes, for a number of seconds but not past `deadline`. -/
def idle {α : Type} (w : World μ) (limit : Option Nat) (deadline : Nat) : Attempt α × World μ :=
  match limit with
  | some seconds =>
    if w.now + seconds * 1000 ≤ deadline then (.failed "timed out", { w with now := w.now + seconds * 1000 })
    else (.late, { w with now := deadline })
  | none => (.late, { w with now := deadline })

def reach (w : World μ) (r : Conninfo.Route) (limit : Option Nat) (deadline : Nat) :
    Attempt Nat × World μ :=
  match r.host with
  | .socket _ => (.failed (IoFault.text .notFound), w)
  | .name _ =>
    if r.port = controlPort then
      (.done w.controls.size,
        { w with
          controlScripts := w.controlScripts.drop 1
          controls := w.controls.push ⟨w.controlScripts.headD noControl, [], false⟩ })
    else if r.port = silentPort then w.idle limit deadline
    else (.failed (IoFault.text .connectionRefused), w)

def login (w : World μ) (k deadline : Nat) : Attempt Unit × World μ :=
  let script := ((w.controls[k]?).map (·.script)).getD noControl
  if script.silent then w.idle none deadline
  else match script.loginError with
    | some text => (.failed text, w)
    | none => (.done (), w)

def lost : DatabaseFault := ⟨"connection closed", none⟩

def outcome (c : ControlScript) (s : Statement) : Except DatabaseFault Rows :=
  match c.breaks s, c.fails s with
  | some _, _ => .error lost
  | none, some fault => .error fault
  | none, none =>
    match s with
    | .listTypes => .ok c.types
    | .readOnly => .error ⟨"unknown statement", none⟩
    | .installExtension | .createSlot _ => .ok []

def execute (w : World μ) (k : Nat) (s : Statement) : Except DatabaseFault Rows × World μ :=
  match w.controls[k]? with
  | none => (.error lost, w)
  | some c =>
    if c.dead then (.error lost, w)
    else
      let dead := c.script.breaks s = some .close
      (outcome c.script s,
        { w with controls := w.controls.setIfInBounds k ⟨c.script, s :: c.statements, dead⟩ })

instance : Database (StateM (World μ)) Nat where
  reach r limit deadline := modifyGet (·.reach r limit deadline)
  login k _ deadline := modifyGet (·.login k deadline)
  execute k s := modifyGet (·.execute k s)
  release _ := return ()

/-- How long after a line somebody asks the program to end. -/
def interruptDelay : Nat := 60

def writeLine (w : World μ) (s : String) : Except IoFault Unit × World μ :=
  let c := w.console
  if c.room.any (· ≤ c.lines.length) then (.error (.other "disk full"), w)
  else
    let interruptTime := if c.interruptAfter = some (c.lines.length + 1) then some (w.now + interruptDelay)
      else c.interruptTime
    (.ok (), { w with console := { c with lines := s :: c.lines, interruptTime } })

instance : Program.Terminal (StateM (World μ)) where
  writeLine s := modifyGet (·.writeLine s)
  flush := do
    modify fun w => { w with console := { w.console with flushes := w.console.flushes + 1 } }
    return .ok ()
  interrupted := do
    let w ← get
    return w.console.interruptTime.any (· ≤ w.now)

def onVolume {α : Type} (f : StateM Volume α) : StateM (World μ) α :=
  modifyGet fun w =>
    let (a, volume) := f.run w.volume
    (a, { w with volume })

instance : FileSystem (StateM (World μ)) where
  hasEntry path := onVolume (FileSystem.hasEntry path)
  read path := onVolume (FileSystem.read path)
  perform step := onVolume (FileSystem.perform step)
  remove path := onVolume (FileSystem.remove path)

instance : Feed.Witness (StateM (World μ)) μ where
  record es := modify fun w => es.foldl (fun w e => w.note (.feed e)) w

end World

/-- A loader whose refreshes fail from a certain one on. -/
structure ScriptedLoader where
  count : Nat
  failAt : Option Nat

instance {μ : Type} : SchemaLoader (StateM (World μ)) ScriptedLoader where
  refresh l := do
    modify (·.note .refreshed)
    let l := { l with count := l.count + 1 }
    return (if l.failAt.any (· ≤ l.count) then .error (.connection (.other "control connection lost"))
      else .ok (), l)

/-- A catalog that shows what it holds. -/
structure WatchedCatalog where
  catalog : Catalog Nat

instance {μ : Type} : SchemaLoader (StateM (World μ)) WatchedCatalog where
  refresh c := do
    let (result, catalog) ← SchemaLoader.refresh (m := StateM (World μ)) c.catalog
    modify fun w => { w with types := some catalog.types }
    return (result, ⟨catalog⟩)

end ChangeFeed.Rehearsal
