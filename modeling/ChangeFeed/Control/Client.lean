import ChangeFeed.Control.Database
import ChangeFeed.Session.Connection

/-!
A client of a database on a socket. A statement's answer is everything up to the message with which
the server says that it is ready for another.
-/
namespace ChangeFeed.Control

open Wire Session

/-- What has arrived of an answer: the rows, and the first failure in it. -/
structure Answer where
  rows : Rows
  failure : Option DatabaseFault
deriving DecidableEq, Repr

namespace Answer

def empty : Answer := ⟨[], none⟩

/-- What a message of the server says went wrong. -/
def faultOf (body : Bytes) : DatabaseFault :=
  let fs := fields body.length body
  ⟨(lastField 'M' fs).getD "unknown server error", lastField 'C' fs⟩

def result (a : Answer) : Except DatabaseFault Rows :=
  match a.failure with
  | some fault => .error fault
  | none => .ok a.rows

/-- The answer with one more message, or its result when the message ends it. -/
def take (a : Answer) : Message → Except (Except DatabaseFault Rows) Answer
  | .ready => .error a.result
  | .error body => .ok { a with failure := a.failure <|> some (faultOf body) }
  | .dataRow count body =>
    match values count body with
    | .ok vs => .ok { a with rows := a.rows ++ [vs] }
    | .error fault => .error (.error ⟨fault.text, none⟩)
  | _ => .ok a

end Answer

namespace Client

variable {m : Type → Type} {ι : Type} [Monad m] [Network m ι]

def closed : DatabaseFault := ⟨"connection closed", none⟩

/-- Reads the next message of an answer, or what arrives of it. -/
def exchange (a : Answer) (c : Connection ι) :
    m ((Answer × Connection ι) ⊕ (Except DatabaseFault Rows × Connection ι)) := do
  match next? c.inbox with
  | some (.ok message, inbox) =>
    match a.take message with
    | .ok a => return .inl (a, { c with inbox })
    | .error result => return .inr (result, { c with inbox })
  | some (.error fault, inbox) => return .inr (.error ⟨fault.text, none⟩, { c with inbox })
  | none =>
    match ← Network.receive c.socket with
    | .ok (some bytes) => return .inl (a, { c with inbox := c.inbox ++ bytes })
    | .ok none => return .inr (.error closed, c)
    | .error fault => return .inr (.error ⟨fault.text, none⟩, c)

/-- Reads the rest of an answer. -/
def read (a : Answer) (c : Connection ι) : m (Except DatabaseFault Rows × Connection ι) :=
  have : Nonempty (Except DatabaseFault Rows × Connection ι) := ⟨(.error closed, c)⟩
  repeatM (fun p => exchange p.1 p.2) (a, c)

def ask (c : Connection ι) (request : Except IoFault Bytes) :
    m (Except DatabaseFault Rows × Connection ι) := do
  match request with
  | .error fault => return (.error ⟨fault.text, none⟩, c)
  | .ok bytes =>
    match ← (c.write bytes).flush with
    | (.ok _, c) => read .empty c
    | (.error fault, c) => return (.error ⟨fault.text, none⟩, c)

/-- Runs a statement, which is prepared first if it is one of those. -/
def execute (c : Connection ι) (s : Statement) : m (Except DatabaseFault Rows × Connection ι) := do
  match s.parameters? with
  | none => ask c (Request.query s.text)
  | some parameters =>
    match ← ask c (Request.prepare s.text) with
    | (.ok _, c) => ask c (.ok (Request.execute parameters))
    | (.error fault, c) => return (.error fault, c)

/-- Logs in on a socket that has just been opened. -/
def login (t : Conninfo.Target) (socket : ι) : m (Except Error (Connection ι)) := do
  let user := t.user.getD ""
  let l : Login := ⟨user, t.database.getD user, t.password, t.applicationName, ← Network.nonce, 0⟩
  let c : Connection ι := ⟨socket, [], [], false, false⟩
  match Request.startup (startupParams t) with
  | .error fault => return .error (.io fault)
  | .ok bytes =>
    let (result, c) ← (c.write bytes).call (.loginRequest l)
    return result.map fun _ => c

def close (c : Connection ι) : m Unit := do
  let _ ← (c.write Request.terminate).flush
  Network.drop c.socket

end Client

end ChangeFeed.Control
