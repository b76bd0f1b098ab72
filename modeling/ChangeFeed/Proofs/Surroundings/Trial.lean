import ChangeFeed.Proofs.Program.Forwarding
import ChangeFeed.Proofs.Session.Peer
import ChangeFeed.Source

/-!
Calls among surroundings that answer as they like. Servers, sockets, files, clock and terminal take any
time and succeed or fail in any way, and what is done to them is written down.
-/
namespace ChangeFeed

open Session

/-- What the surroundings answer to one request, whatever it is for, and how long they take. -/
structure Reply where
  duration : Nat
  wallClock : Int
  reach : Control.Attempt Unit
  login : Control.Attempt Unit
  rows : Except DatabaseFault Control.Rows
  refresh : Except Error Unit
  dial : Except DialFault Unit
  send : Except IoFault Unit
  /-- What has arrived; a call that waits waits for ever if this is nothing. -/
  arrival : Option Arrival
  shut : Except IoFault Unit
  nonce : String
  line : Option IoFault
  flush : Except IoFault Unit
  interrupted : Bool
  /-- The fault of a step on files; of an addition that fails so many bytes are added. -/
  file : Option (IoFault × Nat)

/-- A connection to a server, by its number. -/
inductive Link
  | control (number : Nat)
  | replication (number : Nat)
deriving DecidableEq

def Link.number : Link → Nat
  | .control n | .replication n => n

namespace Trial

/-- What is written down. -/
inductive Note (μ : Type)
  | opened (l : Link)
  | closed (l : Link)
  | sent (socket : Nat) (bytes : Bytes)
  | printed (text : String)
  | flushed (outcome : Except IoFault Unit)
  | filed (step : FileStep) (outcome : Except IoFault Unit)
  | seen (event : Feed.Event μ)

def Note.opened? {μ : Type} : Note μ → Option Link
  | .opened l => some l
  | _ => none

def Note.closed? {μ : Type} : Note μ → Option Link
  | .closed l => some l
  | _ => none

end Trial

/-- The surroundings: what they will answer, the time, the files, and what was written down. -/
structure Outside (μ : Type) where
  replies : List Reply
  now : Nat
  volume : Volume
  log : List (Trial.Note μ)

instance {μ : Type} : Inhabited (Outside μ) := ⟨⟨[], 0, .empty, []⟩⟩

def Outside.note {μ : Type} (w : Outside μ) (n : Trial.Note μ) : Outside μ := { w with log := w.log ++ [n] }

/-- A call; one that waits for ever has no outcome. -/
abbrev Trial (μ : Type) := StateT (Outside μ) Option

namespace Trial

variable {μ α : Type}

def ask (answer : Reply → Outside μ → α × Outside μ) : Trial μ α := fun w =>
  match w.replies with
  | [] => none
  | r :: rest => some (answer r { w with replies := rest, now := w.now + r.duration })

def write (n : Note μ) : Trial μ Unit := fun w => some ((), w.note n)

/-- A connection is named by the number of notes before it. -/
instance : Control.Database (Trial μ) Nat where
  reach _ _ _ := ask fun r w =>
    match r.reach with
    | .done _ => (.done w.log.length, w.note (.opened (.control w.log.length)))
    | .failed detail => (.failed detail, w)
    | .late => (.late, w)
  login _ _ _ := ask fun r w => (r.login, w)
  execute _ _ := ask fun r w => (r.rows, w)
  release k := write (.closed (.control k))

instance : Network (Trial μ) Nat where
  dial _ _ _ := ask fun r w =>
    match r.dial with
    | .ok _ => (.ok w.log.length, w.note (.opened (.replication w.log.length)))
    | .error fault => (.error fault, w)
  send i bytes := ask fun r w => (r.send, w.note (.sent i bytes))
  receive _ := do
    match ← ask fun r w => (r.arrival, w) with
    | some arrival => return arrival
    | none => failure
  poll _ := ask fun r w => (r.arrival, w)
  shut i := ask fun r w => (r.shut, w.note (.closed (.replication i)))
  drop i := write (.closed (.replication i))
  nonce := ask fun r w => (r.nonce, w)

instance : Time.Clock (Trial μ) where
  now := ask fun _ w => (w.now, w)
  wall := ask fun r w => (r.wallClock, w)
  wait _ := ask fun _ w => ((), w)

instance : Control.SchemaLoader (Trial μ) Unit where
  refresh _ := ask fun r w => ((r.refresh, ()), w)

instance : Feed.Witness (Trial μ) μ where
  record events := fun w => some ((), { w with log := w.log ++ events.map .seen })

instance : Program.Terminal (Trial μ) where
  writeLine text := ask fun r w =>
    match r.line with
    | some e => (.error e, w)
    | none => (.ok (), w.note (.printed text))
  flush := ask fun r w => (r.flush, w.note (.flushed r.flush))
  interrupted := ask fun r w => (r.interrupted, w)

def look (question : Volume → Except IoFault α) : Trial μ (Except IoFault α) := ask fun r w =>
  match r.file with
  | some (e, _) => (.error e, w)
  | none => (question w.volume, w)

def perform (step : FileStep) (r : Reply) (w : Outside μ) : Except IoFault Unit × Outside μ :=
  match r.file with
  | some (e, n) =>
    (.error e, { w with volume := Program.Office.tear w.volume n step }.note (.filed step (.error e)))
  | none =>
    match w.volume.perform step with
    | .ok v => (.ok (), { w with volume := v }.note (.filed step (.ok ())))
    | .error e => (.error e, w.note (.filed step (.error e)))

instance : FileSystem (Trial μ) where
  hasEntry path := look (·.hasEntry path)
  read path := look (·.read path)
  perform step := ask (perform step)
  remove path := ask fun r w =>
    match r.file with
    | some (e, _) => (.error e, w)
    | none =>
      match w.volume.remove path with
      | .ok v => (.ok (), { w with volume := v })
      | .error e => (.error e, w)

theorem bind_eq_some {β : Type} {x : Trial μ α} {f : α → Trial μ β} {w w' : Outside μ} {b : β} :
    (x >>= f) w = some (b, w') ↔ ∃ a v, x w = some (a, v) ∧ f a v = some (b, w') := by
  change (x w).bind (fun p => f p.1 p.2) = some (b, w') ↔ _
  rw [Option.bind_eq_some_iff]
  exact ⟨fun ⟨p, first, second⟩ => ⟨p.1, p.2, first, second⟩,
    fun ⟨a, v, first, second⟩ => ⟨(a, v), first, second⟩⟩

theorem ask_eq_some {answer : Reply → Outside μ → α × Outside μ} {w w' : Outside μ} {a : α} :
    ask answer w = some (a, w') ↔ ∃ r rest, w.replies = r :: rest ∧
      answer r { w with replies := rest, now := w.now + r.duration } = (a, w') := by
  unfold ask
  split
  · rename_i none; simp [none]
  · rename_i r rest some; simp [some]

end Trial

end ChangeFeed
