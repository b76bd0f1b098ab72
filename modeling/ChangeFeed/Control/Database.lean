import ChangeFeed.Conninfo.Route
import ChangeFeed.Control.Statement
import ChangeFeed.Error
import ChangeFeed.Time.Clock

/-!
Control connections: the servers that a connection string names are tried in turn until one lets the
client in, within one limit of time for all of them.
-/
namespace ChangeFeed.Control

open Conninfo

/-- What became of an attempt: the time for all attempts may have run out during it. -/
inductive Attempt (α : Type)
  | done (a : α)
  | failed (detail : String)
  | late

abbrev Rows := List (List (Option String))

/-- Servers that statements are run on; `κ` names connections to them. -/
class Database (m : Type → Type) (κ : outParam Type) where
  /-- Opens a connection, within a number of seconds where one is given and not past `deadline`. -/
  reach : Route → (limit : Option Nat) → (deadline : Nat) → m (Attempt κ)
  login : κ → Target → (deadline : Nat) → m (Attempt Unit)
  execute : κ → Statement → m (Except DatabaseFault Rows)
  release : κ → m Unit

variable {m : Type → Type} {κ : Type} [Monad m] [Database m κ] [Time.Clock m]

/-- The settings of the first packet, in order. -/
def startupParams (t : Target) : List (String × String) :=
  [("client_encoding", "UTF8"), ("user", t.user.getD "")] ++
    (t.database.map ("database", ·)).toList ++ (t.options.map ("options", ·)).toList ++
    (t.applicationName.map ("application_name", ·)).toList

/-- Whether a server of that kind of session is wanted. -/
def accepts (kind : SessionKind) (rows : Rows) : Bool :=
  match kind, rows with
  | .any, _ => true
  | .readWrite, [some mode] :: _ => mode != "on"
  | .readOnly, [some mode] :: _ => mode != "off"
  | _, _ => false

/-- Logs in on a connection that has been reached. -/
def enter (k : κ) (t : Target) (deadline : Nat) : m (Attempt Unit) := do
  if t.tls = .require then return .failed "encrypted connections are not supported"
  if (startupParams t).any fun p => p.2.toList.contains '\x00' then
    return .failed (IoFault.text .embeddedNull)
  match ← Database.login k t deadline with
  | .failed detail => return .failed detail
  | .late => return .late
  | .done _ =>
    if t.bindsChannel then return .failed "server did not use channel binding"
    if t.sessionKind = .any then return .done ()
    match ← Database.execute k .readOnly with
    | .error fault => return .failed fault.text
    | .ok rows =>
      return if accepts t.sessionKind rows then .done () else .failed "session is of another kind"

def attempt (t : Target) (deadline : Nat) (r : Route) : m (Attempt κ) := do
  match ← Database.reach r t.connectTimeout deadline with
  | .failed detail => return .failed detail
  | .late => return .late
  | .done k =>
    match ← enter k t deadline with
    | .done _ => return .done k
    | .failed detail =>
      Database.release k
      return .failed detail
    | .late =>
      Database.release k
      return .late

/-- Tries servers in turn; `last` is what went wrong with the one before. -/
def tryAll (t : Target) (limit deadline : Nat) (last : String) : List Route → m (Except Error κ)
  | [] => return .error (.connection (.controlFailed last))
  | r :: rs => do
    match ← attempt t deadline r with
    | .done k => return .ok k
    | .failed detail => tryAll t limit deadline detail rs
    | .late => return .error (.connection (.controlTimedOut limit))

def connect (conninfo : String) (limit : Nat) : m (Except Error κ) := do
  match Target.ofString conninfo with
  | .error fault => return .error (.connection (.controlFailed fault.text))
  | .ok t =>
    match t.routes with
    | .error fault => return .error (.connection (.controlFailed fault.text))
    | .ok routes => tryAll t limit ((← Time.Clock.now) + limit * 1000) "" routes

omit [Time.Clock m] in
/-- Runs a statement of which only the success counts. -/
def perform (k : κ) (s : Statement) : m (Except Error Unit) := do
  return (← Database.execute k s).mapError .postgres |>.map fun _ => ()

/-- The state of an object that exists already. -/
def duplicateObject : String := "42710"

omit [Time.Clock m] in
/-- Creates a slot bound to the output plugin. One of that name that is there already is kept. -/
def createSlot (k : κ) (slot : String) : m (Except Error Unit) := do
  match ← perform k (.createSlot slot) with
  | .error (.postgres fault) =>
    return if fault.state = some duplicateObject then .ok () else .error (.postgres fault)
  | r => return r

end ChangeFeed.Control
