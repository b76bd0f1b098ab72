import ChangeFeed.Session.Login
import ChangeFeed.Session.Scram
import ChangeFeed.Stream.Message
import ChangeFeed.Wire.Field
import ChangeFeed.Wire.Request

/-!
Calls on a replication connection, as what they wait for: a message that arrives lets the call wait
for another, send something, or end. The calls are logging in, asking a question, starting a stream
and receiving the next of its frames. `advance` runs a call over the bytes that are there; how they
were cut when they arrived makes no difference to it.
-/
namespace ChangeFeed.Session

open Wire

/-- What a call waits for. -/
inductive Await
  | loginRequest (login : Login)
  | challenge (login : Login) (password : Bytes)
  | verdict (login : Login) (answer : Scram.Answer)
  | readiness
  /-- The rest of an answer: the columns and rows so far, and the last error in it. -/
  | answer (columns : List String) (rows : List Row) (failure : Option String)
  | copyBoth
  /-- The readiness that follows a refusal. -/
  | recovery (refusal : String)
  | frame
deriving DecidableEq, Repr

inductive Outcome
  | loggedIn
  | answered (rows : List Row)
  | streaming
  | received (frame : Frame)
deriving DecidableEq, Repr

inductive Step
  | wait (next : Await)
  | send (bytes : Bytes) (next : Await)
  | done (result : Except Error Outcome)

namespace Step

def fail (e : Error) : Step := .done (.error e)

/-- Goes on with `f` unless the body of a message is malformed. -/
def parsed {α : Type} (a : Except MessageFault α) (f : α → Step) : Step :=
  match a with
  | .ok a => f a
  | .error fault => fail (.protocol (.message fault))

/-- Sends a request that may turn out impossible to write. -/
def request (r : Except IoFault Bytes) (next : Await) : Step :=
  match r with
  | .ok bytes => .send bytes next
  | .error fault => fail (.io fault)

def requirePassword (l : Login) (f : Bytes → Step) : Step :=
  match l.password with
  | some password => f password
  | none => fail (.authentication .passwordRequired)

end Step

open Step

def onLoginRequest (l : Login) : Message → Step
  | .loginAccepted => .wait .readiness
  | .cleartextRequest => requirePassword l fun p => request (Request.password p) (.loginRequest l)
  | .md5Request salt =>
    requirePassword l fun p =>
      request (Request.password (Login.saltedDigest l.user p salt)) (.loginRequest l)
  | .mechanisms list =>
    parsed (mechanisms (list.length + 1) list) fun names =>
      if names.contains Scram.mechanism then
        requirePassword l fun p =>
          .send (Request.saslInitial Scram.mechanism (Scram.opening l.nonce)) (.challenge l p)
      else fail (.authentication .scramNotOffered)
  | .error fields => fail (.server (errorText fields))
  | _ => fail (.protocol .unexpectedDuringAuthentication)

def onChallenge (l : Login) (password : Bytes) : Message → Step
  | .saslContinue data =>
    match Scram.answer password l.nonce data with
    | .ok a => .send (Request.saslResponse a.message) (.verdict l a)
    | .error fault => fail (.authentication (.scram fault))
  | .error fields => fail (.authentication (.refused (errorText fields)))
  | _ => fail (.protocol .expectedSaslContinue)

def onVerdict (l : Login) (a : Scram.Answer) : Message → Step
  | .saslFinal data =>
    match Scram.verify a data with
    | .ok _ => .wait (.loginRequest l.renew)
    | .error fault => fail (.authentication (.scram fault))
  | .error fields => fail (.authentication (.refused (errorText fields)))
  | _ => fail (.protocol .expectedSaslFinal)

def onReadiness : Message → Step
  | .ready => .done (.ok .loggedIn)
  | .error fields => fail (.server (errorText fields))
  | _ => .wait .readiness

/-- The whole answer is read before an error in it ends the call. -/
def onAnswer (columns : List String) (rows : List Row) (failure : Option String) : Message → Step
  | .rowDescription count fields =>
    parsed (Wire.columns count fields) fun names => .wait (.answer names rows failure)
  | .dataRow count bytes =>
    parsed (values count bytes) fun vs => .wait (.answer columns (rows ++ [⟨columns, vs⟩]) failure)
  | .error fields => .wait (.answer columns rows (some (errorText fields)))
  | .ready =>
    match failure with
    | some text => fail (.server text)
    | none => .done (.ok (.answered rows))
  | _ => .wait (.answer columns rows failure)

def onCopyBoth : Message → Step
  | .copyBoth => .done (.ok .streaming)
  | .error fields => .wait (.recovery (errorText fields))
  | _ => .wait .copyBoth

/-- Whatever ends the wait, the refusal is what went wrong. -/
def onRecovery (refusal : String) : Message → Step
  | .ready | .error _ => fail (.server refusal)
  | _ => .wait (.recovery refusal)

def onFrame : Message → Step
  | .copyData data => .done (.ok (.received (.copyData data)))
  | .notice _ | .parameterStatus => .wait .frame
  | .error fields => fail (.server (errorText fields))
  | .copyDone => .done (.ok (.received (.unexpected "CopyDone")))
  | _ => .done (.ok (.received (.unexpected "non-CopyData message")))

namespace Await

/-- How the call ends when a failure `e` keeps it from going on. -/
def fail (a : Await) (e : Error) : Except Error Outcome :=
  match a with
  | .recovery refusal => .error (.server refusal)
  | _ => .error e

/-- How the call ends when the server closes its side. -/
def ending (a : Await) : Except Error Outcome := a.fail (.connection .closedByServer)

def onMessage : Await → Message → Step
  | .loginRequest l, m => onLoginRequest l m
  | .challenge l p, m => onChallenge l p m
  | .verdict l a, m => onVerdict l a m
  | .readiness, m => onReadiness m
  | .answer columns rows failure, m => onAnswer columns rows failure m
  | .copyBoth, m => onCopyBoth m
  | .recovery refusal, m => onRecovery refusal m
  | .frame, m => onFrame m

/-- The start of a stream is expected only by the call that starts it. -/
def step (a : Await) (m : Message) : Step :=
  if m = .copyBoth ∧ a ≠ .copyBoth then .done (a.fail (.protocol .unexpectedCopyBoth))
  else a.onMessage m

end Await

/-- How far a call comes with the bytes that are there, and the bytes that it leaves. -/
inductive Progress
  | starved (a : Await) (inbox : Bytes)
  | send (bytes : Bytes) (next : Await) (inbox : Bytes)
  | done (result : Except Error Outcome) (inbox : Bytes)

def advance (a : Await) (inbox : Bytes) : Progress :=
  match _h : next? inbox with
  | none => .starved a inbox
  | some (.error fault, rest) => .done (a.fail (.protocol fault)) rest
  | some (.ok m, rest) =>
    match a.step m with
    | .wait next => advance next rest
    | .send bytes next => .send bytes next rest
    | .done result => .done result rest
termination_by inbox.length
decreasing_by exact length_of_next? _h

end ChangeFeed.Session
