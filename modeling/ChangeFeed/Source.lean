import ChangeFeed.Config.Settings
import ChangeFeed.Feed.Desk

/-!
A source of changes: setting up the server, capturing from a checkpoint, confirming what has been
consumed, and stopping. Setup leaves a control connection and its collaborators behind; a capture
takes them over, and from then on they are the feed's until it ends.
-/
namespace ChangeFeed

open Session Feed

/-- A feed with what it has at hand, and who waits for it. -/
structure Capture (κ ι σ δ μ : Type) where
  run : Run δ μ
  desk : Desk κ (Connection ι) σ
  controller : Controller

structure Source (κ ι σ δ μ : Type) where
  config : SourceConfig
  /-- The connections that setup has left, until a capture takes them over. -/
  connections : Option (Connections κ (Connection ι))
  /-- The loader and the decoder that setup has left. -/
  collaborators : Option (σ × δ)
  tracker : Tracker
  /-- The latest capture, also when its feed has ended. -/
  capture : Option (Capture κ ι σ δ μ)
  /-- The stream of the latest capture, until it is stopped. -/
  stream : Option Stream

namespace Source

variable {κ ι σ δ μ : Type} {m : Type → Type} [Monad m]

def create (config : SourceConfig) : Except Error (Source κ ι σ δ μ) := do
  config.validate
  return ⟨config, none, none, default, none, none⟩

/-- Whether a feed has not reported that it has stopped. -/
def isCapturing (s : Source κ ι σ δ μ) : Bool :=
  s.capture.any (·.run.life.state != .stopped)

def state? (s : Source κ ι σ δ μ) : Option LoopState := s.capture.map (·.run.life.state)

def commit (s : Source κ ι σ δ μ) (c : Checkpoint) : Source κ ι σ δ μ :=
  { s with tracker := s.tracker.commit c }

section Setup

variable [Control.Database m κ] [Control.SchemaLoader m σ]

/-- Loads metadata and sees to it that the extension and, if configured, the slot exist. -/
def equip (config : SourceConfig) (build : κ → Except Error (σ × δ)) (k : κ) :
    m (Except Error (σ × δ)) := do
  match build k with
  | .error e => return .error e
  | .ok (loader, decoder) =>
    match ← Control.SchemaLoader.refresh loader with
    | (.error e, _) => return .error e
    | (.ok _, loader) =>
      match ← Control.perform k .installExtension with
      | .error e => return .error e
      | .ok _ =>
        if config.createSlot then
          return (← Control.createSlot k config.slot).map fun _ => (loader, decoder)
        else return .ok (loader, decoder)

def provision [Time.Clock m] (config : SourceConfig) (build : κ → Except Error (σ × δ))
    (c : Connections κ (Connection ι)) :
    m (Except Error (σ × δ) × Connections κ (Connection ι)) := do
  match ← c.openControl config.setupTarget config.connectTimeout with
  | (.error e, c) => return (.error e, c)
  | (.ok k, c) => return (← equip config build k, c)

/-- Prepares a capture. A setup that fails closes what it has opened and changes nothing. -/
def setup [Network m ι] [Time.Clock m] (s : Source κ ι σ δ μ) (build : κ → Except Error (σ × δ)) :
    m (Except Error Unit × Source κ ι σ δ μ) := do
  if s.isCapturing then return (.error (.replication .setupWhileCapturing), s)
  match ← provision s.config build .empty with
  | (.error e, c) =>
    let _ ← c.close
    return (.error e, s)
  | (.ok collaborators, c) =>
    match s.connections with
    | some old => let _ ← old.close
    | none => pure ()
    return (.ok (), { s with connections := some c, collaborators := some collaborators })

end Setup

inductive Start
  | started
  | failed (e : Error)
  /-- The caller broke off with a message. -/
  | panicked (message : String)

section Capturing

variable [Control.Database m κ] [Network m ι]

def openStream (config : SourceConfig) (c : Connections κ (Connection ι)) (checkpoint : Checkpoint) :
    m (Except Error Stream × Connections κ (Connection ι)) := do
  match ← c.openReplication config.replicationTarget config.connectTimeout with
  | (.error e, c) => return (.error e, c)
  | (.ok _, c) =>
    match c.replication with
    | none => return (.error (.replication .notOpen), c)
    | some r =>
      let (result, r) ← r.start config.slot checkpoint
      return (result, { c with replication := some r })

/-- Starts a feed from a checkpoint. A start that fails closes both connections, and another needs
another setup. -/
def start [Time.Clock m] (s : Source κ ι σ δ μ) (checkpoint : Checkpoint) :
    m (Start × Source κ ι σ δ μ) := do
  if s.isCapturing then return (.failed (.replication .alreadyCapturing), s)
  let left := s.connections
  let found := s.collaborators
  let s := { s with connections := none, collaborators := none }
  match left, found with
  | some c, some (loader, decoder) =>
    match ← openStream s.config c checkpoint with
    | (.error e, c) =>
      let _ ← c.close
      return (.failed e, s)
    | (.ok stream, c) =>
      let s := { s with tracker := s.tracker.reset stream.start }
      match Channel.open? μ s.config.channelCapacity with
      | none =>
        c.abandon
        return (.panicked (Channel.refusal s.config.channelCapacity), s)
      | some channel =>
        let run : Run δ μ :=
          .start decoder (s.config.reportInterval * 1000) channel (← Time.Clock.now)
        return (.started, { s with
          stream := some stream
          capture := some ⟨run, ⟨c, loader, stream.start, none⟩, .fresh⟩ })
  | some c, none =>
    c.abandon
    return (.failed (.replication .setupMissing), s)
  | none, _ => return (.failed (.replication .setupMissing), s)

end Capturing

section Running

variable [Decoder δ μ] [Control.Database m κ] [Control.SchemaLoader m σ] [Network m ι] [Time.Clock m]
  [Witness m μ]

/-- How many moves a feed makes before others have their turn. -/
def patience : Nat := 1 <<< 62

/-- Lets the feed do what it can do now. -/
def settle (s : Source κ ι σ δ μ) : m (Source κ ι σ δ μ) := do
  match s.capture with
  | none => return s
  | some c =>
    let desk := { c.desk with acked := s.tracker.committed }
    let (run, desk) ← (c.run.settle patience : StateT (Desk κ (Connection ι) σ) m (Run δ μ)).run desk
    return { s with capture := some { c with run, desk } }

/-- Releases what setup has left, asks the feed to stop and waits until it has ended. The failure that
ended a feed is told once. -/
def stop (s : Source κ ι σ δ μ) : m (Except Error Unit × Source κ ι σ δ μ) := do
  match s.connections with
  | some c => let _ ← c.close
  | none => pure ()
  let s := { s with connections := none, collaborators := none }
  match s.capture with
  | none => return (.ok (), s)
  | some c =>
    let (controller, life, call) := c.controller.stop c.run.life
    let s := { s with capture := some { c with controller, run := { c.run with life } } }
    let s ← s.settle
    let result : Except Error Unit := match call with
      | .returns => .ok ()
      | .waits => ((s.capture.bind (·.run.life.ending)).map Ending.result).getD (.ok ())
    return (result, { s with stream := none })

/-- What trying to receive a change finds. -/
def tryReceive (s : Source κ ι σ δ μ) : Option (Run.Received μ × Source κ ι σ δ μ) :=
  s.capture.map fun c =>
    let (received, run) := c.run.receive
    (received, { s with capture := some { c with run } })

/-- When the feed goes on by itself. -/
def deadline? (s : Source κ ι σ δ μ) : Option Nat := s.capture.bind (·.run.deadline?)

end Running

end Source

end ChangeFeed
