import ChangeFeed.Config.Load
import ChangeFeed.Control.Catalog
import ChangeFeed.Program.Arguments
import ChangeFeed.Program.Forward
import ChangeFeed.Source

/-!
The program: it loads its settings and the saved checkpoint, sets up a capture, and forwards changes
until the stream ends or it is asked to end. Then it stops the capture and saves how far it has come.
-/
namespace ChangeFeed.Program

inductive Failure
  /-- A failure told as it is. -/
  | plain (e : Error)
  /-- A failure told as one of something larger. -/
  | within (context : String) (e : Error)
  | output (fault : IoFault)

namespace Failure

def text : Failure → String
  | .plain e => e.message
  | .within context _ => context
  | .output _ => "failed to write change"

/-- The texts of what lies behind it, the nearest first. -/
def causes : Failure → List String
  | .plain e => e.causes
  | .within _ e => e.message :: e.causes
  | .output fault => [fault.text]

end Failure

inductive Exit
  | success
  | failure (f : Failure)
  | usage (fault : UsageFault)
  /-- It breaks off with a message. -/
  | panicked (message : String)

def Exit.code : Exit → Nat
  | .success => 0
  | .failure _ => 1
  | .usage _ => 2
  | .panicked _ => 101

abbrev PglogicalSource (κ ι : Type) :=
  Source κ ι (Control.Catalog κ) Pglogical.Relations Pglogical.Message

section

variable {κ ι : Type} {m : Type → Type} [Monad m] [Control.Database m κ] [Session.Network m ι]
  [Time.Clock m] [FileSystem m] [Terminal m] [Feed.Witness m Pglogical.Message]

/-- A capture with the forwarder of its changes and the time of the next save. -/
structure Forwarding (κ ι : Type) where
  source : PglogicalSource κ ι
  forwarder : Forwarder
  store : Option Store
  /-- Milliseconds from one save to the next. -/
  saveInterval : Nat
  nextSave : Nat

namespace Forwarding

/-- What the forwarder has to do now, if it has not to wait: a request to end comes before a save, and
a save before a change. -/
def next? (p : Forwarding κ ι) (now : Nat) (interrupted : Bool) :
    Option (ForwardMove × Forwarding κ ι) :=
  if interrupted then some (.finish, p)
  else if p.nextSave ≤ now then some (.tick, { p with nextSave := p.nextSave + p.saveInterval })
  else match p.source.tryReceive with
    | some (.change c, source) => some (.receive c, { p with source })
    | some (.empty, _) => none
    | _ => some (.finish, p)

/-- When something has to be done without any change. -/
def deadline (p : Forwarding κ ι) : Nat := (p.source.deadline?).elim p.nextSave (min p.nextSave)

/-- Lets the feed and the forwarder work until the forwarder has ended, in at most `fuel` turns. -/
def run : Nat → Forwarding κ ι → m (Except IoFault (Option Checkpoint) × PglogicalSource κ ι)
  | 0, p => return (.ok p.forwarder.committed, p.source)
  | fuel + 1, p => do
    let p := { p with source := ← p.source.settle }
    match p.next? (← Time.Clock.now) (← Terminal.interrupted) with
    | none =>
      Time.Clock.wait (some p.deadline)
      run fuel p
    | some (move, p) =>
      let forwarder ← p.forwarder.move p.store move
      let source := { p.source with tracker := forwarder.tracker }
      match forwarder.phase with
      | .ended result => return (result, source)
      | _ => run fuel { p with forwarder, source }

end Forwarding

/-- How many turns feed and forwarder have. -/
def patience : Nat := 1 <<< 62

/-- Saves the last committed checkpoint; a failure to save does not matter. -/
def saveFinal (store : Option Store) (committed : Option Checkpoint) : m Unit := do
  match store, committed with
  | some store, some c => let _ ← store.save c
  | _, _ => pure ()

/-- Forwards the changes of a capture to its end, and ends it. -/
def forward (source : PglogicalSource κ ι) (store : Option Store) (saveInterval : Nat) : m Exit := do
  let (forwarded, source) ← Forwarding.run patience
    { source, store, forwarder := .start store.isSome source.tracker
      saveInterval := max saveInterval 1 * 1000, nextSave := ← Time.Clock.now }
  let (result, _) ← source.stop
  match forwarded with
  | .error fault => return .failure (.output fault)
  | .ok committed =>
    saveFinal store committed
    match result with
    | .ok _ => return .success
    | .error e => return .failure (.plain e)

def capture (settings : Settings) (store : Option Store) (start : Checkpoint) : m Exit := do
  match (Source.create settings.source : Except Error (PglogicalSource κ ι)) with
  | .error e => return .failure (.plain e)
  | .ok source =>
    match ← source.setup fun k => .ok (⟨k, []⟩, Pglogical.Relations.empty) with
    | (.error e, _) => return .failure (.within "setup failed" e)
    | (.ok _, source) =>
      match ← source.start start with
      | (.failed e, source) =>
        let _ ← source.stop
        return .failure (.within "failed to start capture" e)
      | (.panicked message, _) => return .panicked message
      | (.started, source) => forward source store settings.checkpoint.saveInterval

/-- Where to start from: the saved checkpoint, unless there is none or it does not count. -/
def startOf (store : Option Store) (o : Options) : m (Except Error Checkpoint) := do
  match store with
  | some store =>
    if o.fromCurrent then return .ok default
    else return (← store.load).map (·.getD default)
  | none => return .ok default

def runWith (o : Options) (environment : List (String × String)) : m Exit := do
  match ← Config.load o.config environment with
  | .error e =>
    return .failure (.within ("failed to load configuration from " ++ Text.Quoted.path o.config) e)
  | .ok settings =>
    let store := settings.checkpoint.file.map Store.mk
    match ← startOf store o with
    | .error e => return .failure (.plain e)
    | .ok start => capture settings store start

def printHelp : List String → m Unit
  | [] => do let _ ← Terminal.flush
  | text :: rest => do
    let _ ← Terminal.writeLine text
    printHelp rest

def execute (arguments : List String) (environment : List (String × String)) : m Exit := do
  match readArguments arguments with
  | .wrong fault => return .usage fault
  | .help =>
    printHelp helpLines
    return .success
  | .run o => runWith o environment

end

end ChangeFeed.Program
