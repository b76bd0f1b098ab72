import ChangeFeed.Proofs.Session.Peer
import Mathlib.Data.List.Basic

/-!
Commands on a replication connection and the answers of the server. Main statement: each command takes
from what arrives exactly the frames of its own answer, so that the next one begins with the first message
of its own, whatever errors and rows there are in the answers.
-/
namespace ChangeFeed.Session

open Wire

/-- The bytes that are there begin with frames that bring a call to its result, and then come others. -/
inductive Settles (result : Except Error Outcome) (more : Bytes) : Await → Bytes → Prop
  | last {a tag body m} : body.length + 4 < 2 ^ 31 → message (UInt8.ofNat tag.toNat) body = .ok m →
      a.step m = .done result → Settles result more a (Request.frame tag body ++ more)
  | next {a b tag body m bytes} : body.length + 4 < 2 ^ 31 →
      message (UInt8.ofNat tag.toNat) body = .ok m → a.step m = .wait b → Settles result more b bytes →
      Settles result more a (Request.frame tag body ++ bytes)

/-- Whole frames with their messages. -/
def Means : List (Char × Bytes) → List Message → Prop :=
  List.Forall₂ fun f m => f.2.length + 4 < 2 ^ 31 ∧ message (UInt8.ofNat f.1.toNat) f.2 = .ok m

def frameBytes (frames : List (Char × Bytes)) : Bytes :=
  (frames.map fun f => Request.frame f.1 f.2).flatten

section Settles

variable {result : Except Error Outcome} {more : Bytes} {a b : Await} {ms : List Message} {m : Message}

theorem Await.Waits.settles {frames : List (Char × Bytes)} (waits : a.Waits ms b) (more : Bytes)
    (ends : b.step m = .done result) (means : Means frames (ms ++ [m])) :
    Settles result more a (frameBytes frames ++ more) := by
  induction waits generalizing frames with
  | nil =>
    cases means with
    | cons first none =>
      cases none
      simpa [frameBytes] using Settles.last first.1 first.2 ends
  | cons goes _ ih =>
    cases means with
    | cons first later =>
      simpa [frameBytes] using Settles.next first.1 first.2 goes (ih ends later)

/-- A frame of which some has arrived is read as it will be, or not read yet. -/
theorem next?_of_append {inbox rest bytes body : Bytes} {tag : Char} (range : body.length + 4 < 2 ^ 31)
    (means : message (UInt8.ofNat tag.toNat) body = .ok m)
    (arrives : inbox ++ rest = Request.frame tag body ++ bytes) :
    next? inbox = none ∨ ∃ left, next? inbox = some (.ok m, left) ∧ left ++ rest = bytes := by
  cases next : next? inbox with
  | none => exact Or.inl rfl
  | some found =>
    obtain ⟨r, left⟩ := found
    have whole := next?_append next rest
    rw [arrives, next?_frame _ _ _ range, means] at whole
    cases whole
    exact Or.inr ⟨left, rfl, rfl⟩

theorem Settles.advance {inbox rest : Bytes} (settles : Settles result more a (inbox ++ rest)) :
    (∃ left, Session.advance a inbox = .done result left ∧ left ++ rest = more) ∨
      ∃ b left, Session.advance a inbox = .starved b left ∧ next? left = none ∧
        Settles result more b (left ++ rest) := by
  generalize whole : inbox ++ rest = bytes at settles
  induction settles generalizing inbox with
  | last range means ends =>
    rw [advance_eq]
    rcases next?_of_append range means whole with none | ⟨left, next, same⟩
    · rw [none]
      exact Or.inr ⟨_, inbox, rfl, none, whole ▸ .last range means ends⟩
    · simp only [next, ends]
      exact Or.inl ⟨left, rfl, same⟩
  | next range means goes later ih =>
    rw [advance_eq]
    rcases next?_of_append range means whole with none | ⟨left, next, same⟩
    · rw [none]
      exact Or.inr ⟨_, inbox, rfl, none, whole ▸ .next range means goes later⟩
    · simp only [next, goes]
      exact ih same

/-- Where everything has arrived there is a message to be read. -/
theorem Settles.next?_ne_none {bytes : Bytes} (settles : Settles result more a bytes) :
    next? bytes ≠ none := by
  cases settles with
  | last range => rw [next?_frame _ _ _ range]; nofun
  | next range => rw [next?_frame _ _ _ range]; nofun

end Settles

/-- A call that waits comes to its result once the frames have arrived, however they are cut, and leaves
what comes after them. -/
theorem Connection.converse_settles {result : Except Error Outcome} {more : Bytes}
    {read : Meeting (Option Arrival)} (gives : ∀ p, Gives true p (read.run p)) {a : Await}
    {c : Connection Unit} {p : Peer}
    (settles : Settles result more a (c.inbox ++ Peer.bytes p.arrivals)) :
    ∃ left p', (Connection.converse read a c).run p = some ((some result, { c with inbox := left }), p') ∧
      left ++ Peer.bytes p'.arrivals = more ∧ p'.sends = p.sends := by
  -- Each turn that does not end the call takes an arrival.
  induction count : p.arrivals.length using Nat.strongRecOn generalizing a c p with
  | _ n ih =>
    rw [converse_eq, StateT.run_bind, exchange]
    rcases settles.advance with ⟨left, ended, same⟩ | ⟨b, left, starved, short, settles⟩
    · simp only [ended]
      exact ⟨left, p, rfl, same, rfl⟩
    · simp only [starved]
      rw [StateT.run_bind]
      have given := gives p
      generalize read.run p = r at given
      cases given with
      | hangs _ nothing =>
        rw [nothing, List.append_nil] at settles
        exact absurd short settles.next?_ne_none
      | silence impatient | pause impatient => cases impatient
      | ends _ nothing =>
        rw [nothing, List.append_nil] at settles
        exact absurd short settles.next?_ne_none
      | @bytes bs rest _ fewer bytes =>
        rw [bytes, ← List.append_assoc] at settles
        exact ih _ (count ▸ fewer) (c := { c with inbox := left ++ bs }) (p := { p with arrivals := rest })
          settles rfl

/-- The error that a message tells of. -/
def failure? : Message → Option String
  | .error fields => some (errorText fields)
  | _ => none

/-- The names of columns that a message announces. -/
def described? : Message → Option (List String)
  | .rowDescription count fields => (columns count fields).toOption
  | _ => none

/-- The row that a message holds, where the last description before it tells what its columns are. -/
def row? (before : List Message) : Message → Option Row
  | .dataRow count bytes =>
    (values count bytes).toOption.map (⟨(before.filterMap described?).getLast?.getD [], ·⟩)
  | _ => none

/-- The rows of an answer in their order. -/
def answerRows (answer : List Message) : List Row :=
  answer.zipIdx.filterMap fun m => row? (answer.take m.2) m.1

/-- What an answer comes to: its last error, or its rows. -/
def verdict (answer : List Message) : Except Error (List Row) :=
  match (answer.filterMap failure?).getLast? with
  | some text => .error (.server text)
  | none => .ok (answerRows answer)

/-- The bodies of rows and of their descriptions are well formed. -/
def isSound : Message → Bool
  | .rowDescription count fields => (columns count fields).isOk
  | .dataRow count bytes => (values count bytes).isOk
  | _ => true

theorem answerRows_concat (answer : List Message) (m : Message) :
    answerRows (answer ++ [m]) = answerRows answer ++ (row? answer m).toList := by
  have same : answer.zipIdx.filterMap (fun n => row? ((answer ++ [m]).take n.2) n.1) =
      answerRows answer := by
    refine List.filterMap_congr fun n member => ?_
    have early := List.snd_lt_of_mem_zipIdx member
    rw [List.take_append_of_le_length (by omega)]
  rw [answerRows, List.zipIdx_append, List.filterMap_append, same]
  cases found : row? answer m <;> simp [found]

/-- What a question has made of an answer so far. -/
def answerAwait (answer : List Message) : Await :=
  .answer ((answer.filterMap described?).getLast?.getD []) (answerRows answer)
    (answer.filterMap failure?).getLast?

theorem exists_of_isOk {ε α : Type} {r : Except ε α} (ok : r.isOk = true) : ∃ a, r = .ok a := by
  cases r with
  | error => cases ok
  | ok a => exact ⟨a, rfl⟩

theorem answerAwait_step {before : List Message} {m : Message} (sound : isSound m = true)
    (unready : m ≠ .ready) (plain : m ≠ .copyBoth) :
    (answerAwait before).step m = .wait (answerAwait (before ++ [m])) := by
  rw [Await.step, if_neg fun h => plain h.1]
  cases m with
  | rowDescription count fields =>
    obtain ⟨names, read⟩ := exists_of_isOk sound
    simp [answerAwait, Await.onMessage, onAnswer, Step.parsed, answerRows_concat, row?, described?,
      failure?, read, Except.toOption]
  | dataRow count bytes =>
    obtain ⟨vs, read⟩ := exists_of_isOk sound
    simp [answerAwait, Await.onMessage, onAnswer, Step.parsed, answerRows_concat, row?, described?,
      failure?, read, Except.toOption]
  | ready => exact absurd rfl unready
  | _ =>
    simp [answerAwait, Await.onMessage, onAnswer, answerRows_concat, row?, described?, failure?]

theorem answerAwait_waits (before : List Message) {answer : List Message}
    (sound : ∀ m ∈ answer, isSound m = true) (unready : .ready ∉ answer) (plain : .copyBoth ∉ answer) :
    (answerAwait before).Waits answer (answerAwait (before ++ answer)) := by
  induction answer generalizing before with
  | nil => rw [List.append_nil]; exact .nil
  | cons m answer ih =>
    simp only [List.mem_cons, not_or] at unready plain
    obtain ⟨first, others⟩ := List.forall_mem_cons.mp sound
    refine .cons (answerAwait_step first (Ne.symm unready.1) (Ne.symm plain.1)) ?_
    have later := ih (before ++ [m]) others unready.2 plain.2
    rwa [List.append_assoc, List.singleton_append] at later

/-- Once it is refused, a start passes over what is no error until the server is ready. -/
theorem recovery_waits {answer : List Message} {refusal : String} (unready : .ready ∉ answer)
    (plain : .copyBoth ∉ answer) (quiet : answer.filterMap failure? = []) :
    (Await.recovery refusal).Waits answer (.recovery refusal) := by
  induction answer with
  | nil => exact .nil
  | cons m answer ih =>
    simp only [List.mem_cons, not_or] at unready plain
    cases told : failure? m with
    | some text => simp [told] at quiet
    | none =>
      rw [List.filterMap_cons_none told] at quiet
      refine .cons ?_ (ih unready.2 plain.2 quiet)
      cases m <;> simp_all [Await.step, Await.onMessage, onRecovery, failure?]

/-- A start that is refused by one error has passed over what comes before it. -/
theorem copyBoth_waits {answer : List Message} {refusal : String} (unready : .ready ∉ answer)
    (plain : .copyBoth ∉ answer) (one : answer.filterMap failure? = [refusal]) :
    Await.copyBoth.Waits answer (.recovery refusal) := by
  induction answer with
  | nil => cases one
  | cons m answer ih =>
    simp only [List.mem_cons, not_or] at unready plain
    cases told : failure? m with
    | some text =>
      rw [List.filterMap_cons_some told, List.cons.injEq] at one
      refine .cons ?_ (recovery_waits unready.2 plain.2 one.2)
      cases m <;> simp_all [Await.step, Await.onMessage, onCopyBoth, failure?]
    | none =>
      rw [List.filterMap_cons_none told] at one
      refine .cons ?_ (ih unready.2 plain.2 one)
      cases m <;> simp_all [Await.step, Await.onMessage, onCopyBoth, failure?]

/-- What a server is asked while it does not stream: a question, or to start. -/
inductive Command
  | query (text : String)
  | start (text : String)

namespace Command

def text : Command → String
  | query text | start text => text

/-- Gives a command; a start that succeeds has no rows. -/
def make (k : Command) (c : Connection Unit) : Meeting (Except Error (List Row) × Connection Unit) :=
  match k with
  | .query text => c.query text
  | .start text => do
    let (result, c) ← c.stream text
    return (result.map fun _ => [], c)

/-- The answers to a command. An answer ends where the server is ready for the next command, and a start
is refused by one error. A command that cannot be written has none. -/
inductive Answered (k : Command) : List Message → Prop
  | unwritten {fault} : Request.query k.text = .error fault → Answered k []
  | written {body} : (Request.query k.text).isOk = true → .ready ∉ body → .copyBoth ∉ body →
      (∀ m ∈ body, isSound m = true) → (∀ text, k = .start text → (body.filterMap failure?).length = 1) →
      Answered k (body ++ [.ready])

/-- What a command comes to by its own answer. -/
def result (k : Command) (answer : List Message) : Except Error (List Row) :=
  match Request.query k.text with
  | .error fault => .error (.io fault)
  | .ok _ => verdict answer

end Command

/-- Gives commands one after the other, whatever they come to. -/
def makeAll : List Command → Connection Unit → Meeting (List (Except Error (List Row)) × Connection Unit)
  | [], c => return ([], c)
  | k :: ks, c => do
    let (result, c) ← k.make c
    let (results, c) ← makeAll ks c
    return (result :: results, c)

/-- A command with the frames of its answer and what they mean. -/
structure Exchange where
  command : Command
  frames : List (Char × Bytes)
  answer : List Message
  whole : Means frames answer
  answered : command.Answered answer

namespace Exchange

def bytes (x : Exchange) : Bytes := frameBytes x.frames

def result (x : Exchange) : Except Error (List Row) := x.command.result x.answer

end Exchange

theorem Connection.run_settles {a : Await} {result : Except Error Outcome} {more : Bytes}
    {c : Connection Unit} {p : Peer} (settles : Settles result more a (c.inbox ++ Peer.bytes p.arrivals)) :
    ∃ left p', (c.run a : Meeting _).run p = some ((result, { c with inbox := left }), p') ∧
      left ++ Peer.bytes p'.arrivals = more ∧ p'.sends = p.sends := by
  obtain ⟨left, p', ran, rest⟩ := converse_settles gives_receive settles
  refine ⟨left, p', ?_, rest⟩
  rw [Connection.run, StateT.run_bind]
  exact (congrArg (· >>= _) ran).trans rfl

theorem Connection.call_run {a : Await} {c : Connection Unit} {p : Peer}
    (sends : ∀ sent ∈ p.sends, sent = .ok ()) :
    (c.call a : Meeting _).run p =
      ({ c with outbox := [] }.run a : Meeting _).run { p with sends := p.sends.tail } := by
  have sent : p.sends.headD (.ok ()) = .ok () := by
    cases same : p.sends with
    | nil => rfl
    | cons first others => exact sends first (by rw [same]; exact List.mem_cons_self)
  have send : (Network.send c.socket c.outbox : Meeting _).run p =
      some (.ok (), { p with sends := p.sends.tail }) := by
    rw [← sent]; rfl
  rw [Connection.call, StateT.run_bind, Connection.flush, StateT.run_bind, send]
  rfl

/-- A command that is written and sent waits for its frames and takes them. -/
theorem Connection.command_settles {text : String} {bytes : Bytes} {a : Await}
    {result : Except Error Outcome} {more : Bytes} {c : Connection Unit} {p : Peer}
    (written : Request.query text = .ok bytes) (sends : ∀ sent ∈ p.sends, sent = .ok ())
    (settles : Settles result more a (c.inbox ++ Peer.bytes p.arrivals)) :
    ∃ left p', (c.command text a : Meeting _).run p =
        some ((result, { c with inbox := left, outbox := [] }), p') ∧
      (∀ sent ∈ p'.sends, sent = .ok ()) ∧ left ++ Peer.bytes p'.arrivals = more := by
  obtain ⟨left, p', ran, rest, same⟩ := run_settles (c := { c.write bytes with outbox := [] })
    (p := { p with sends := p.sends.tail }) settles
  refine ⟨left, p', ?_, fun answer member => sends answer ?_, rest⟩
  · rw [Connection.command, written]
    exact (call_run sends).trans ran
  · rw [same] at member
    exact List.mem_of_mem_tail member

/-- What is ready for the next command adds nothing to an answer. -/
theorem verdict_ready (body : List Message) : verdict (body ++ [.ready]) = verdict body := by
  have failures : (body ++ [Message.ready]).filterMap failure? = body.filterMap failure? := by
    simp [failure?]
  have rows : answerRows (body ++ [.ready]) = answerRows body := by simp [answerRows_concat, row?]
  rw [verdict, verdict, failures, rows]

/-- The end of an answer gives what a question has made of it. -/
theorem answerAwait_ready (answer : List Message) :
    (answerAwait answer).step .ready = .done ((verdict answer).map .answered) := by
  unfold verdict
  cases last : (answer.filterMap failure?).getLast? <;>
    simp [Await.step, answerAwait, Await.onMessage, onAnswer, Step.fail, last, Except.map]

theorem Means.nil_right {frames : List (Char × Bytes)} (means : Means frames []) : frames = [] := by
  cases means
  rfl

/-- A command that cannot be written leaves what arrives as it is. -/
theorem make_unwritten (k : Command) {c : Connection Unit} (idle : c.streaming = false) (p : Peer)
    {fault : IoFault} (unwritten : Request.query k.text = .error fault) :
    (k.make c).run p = some ((.error (.io fault), c.write Request.brokenQuery), p) := by
  cases k with
  | query text =>
    have unwritten : Request.query text = .error fault := unwritten
    simp only [Command.make, Connection.query, idle, Bool.false_eq_true, ↓reduceIte, Connection.command,
      unwritten]
    rfl
  | start text =>
    have unwritten : Request.query text = .error fault := unwritten
    simp only [Command.make, Connection.stream, Connection.command, unwritten]
    rfl

theorem make_exchange (x : Exchange) {c : Connection Unit} {p : Peer} {more : Bytes}
    (idle : c.streaming = false) (sends : ∀ sent ∈ p.sends, sent = .ok ())
    (arrives : c.inbox ++ Peer.bytes p.arrivals = x.bytes ++ more) :
    ∃ c' p', (x.command.make c).run p = some ((x.result, c'), p') ∧ c'.streaming = false ∧
      (∀ sent ∈ p'.sends, sent = .ok ()) ∧ c'.inbox ++ Peer.bytes p'.arrivals = more := by
  obtain ⟨k, frames, answer, whole, answered⟩ := x
  simp only [Exchange.bytes, Exchange.result] at *
  cases answered with
  | unwritten unwritten =>
    rw [whole.nil_right] at arrives
    refine ⟨c.write Request.brokenQuery, p, ?_, idle, sends, arrives⟩
    rw [make_unwritten k idle p unwritten, Command.result, unwritten]
  | @written body written unready plain sound refused =>
    obtain ⟨bytes, written⟩ := exists_of_isOk written
    rw [Command.result, written]
    dsimp only
    rw [verdict_ready]
    cases k with
    | query text =>
      have settles := (answerAwait_waits [] sound unready plain).settles more (answerAwait_ready body) whole
      obtain ⟨left, p', ran, rest⟩ := Connection.command_settles written sends (arrives ▸ settles)
      refine ⟨{ c with inbox := left, outbox := [] }, p', ?_, idle, rest⟩
      rw [Command.make, Connection.query, if_neg (by rw [idle]; nofun)]
      refine (congrArg (· >>= _) ran).trans ?_
      cases verdict body <;> rfl
    | start text =>
      obtain ⟨refusal, one⟩ := List.length_eq_one_iff.mp (refused text rfl)
      have ends : (Await.recovery refusal).step .ready = .done (.error (.server refusal)) := rfl
      have settles := (copyBoth_waits unready plain one).settles more ends whole
      obtain ⟨left, p', ran, rest⟩ := Connection.command_settles written sends (arrives ▸ settles)
      refine ⟨{ c with inbox := left, outbox := [] }, p', ?_, idle, rest⟩
      rw [Command.make, verdict, one]
      exact (congrArg (fun r => (r >>= _) >>= _) ran).trans rfl

/-- Questions and refused starts on a connection that does not stream come each to what its own answer
makes of it, and take just that from what arrives, cut anywhere: the next command begins with the first
message of its own answer. A question gives the rows of its answer in order, each with the columns that
were described last before it, or the last error; a start gives its refusal. -/
theorem makeAll_exchanges (earlier later : List Exchange) {c : Connection Unit} {p : Peer} {more : Bytes}
    (idle : c.streaming = false) (sends : ∀ sent ∈ p.sends, sent = .ok ())
    (arrives : c.inbox ++ Peer.bytes p.arrivals = (earlier ++ later).flatMap Exchange.bytes ++ more) :
    ∃ c' p', (makeAll (earlier.map (·.command)) c).run p = some ((earlier.map (·.result), c'), p') ∧
      c'.streaming = false ∧ (∀ sent ∈ p'.sends, sent = .ok ()) ∧
      c'.inbox ++ Peer.bytes p'.arrivals = later.flatMap Exchange.bytes ++ more := by
  induction earlier generalizing c p with
  | nil => exact ⟨c, p, rfl, idle, sends, arrives⟩
  | cons x earlier ih =>
    rw [List.cons_append, List.flatMap_cons, List.append_assoc] at arrives
    obtain ⟨c₁, p₁, made, idle, sends, arrives⟩ := make_exchange x idle sends arrives
    obtain ⟨c₂, p₂, others, rest⟩ := ih idle sends arrives
    refine ⟨c₂, p₂, ?_, rest⟩
    rw [List.map_cons, makeAll]
    refine (congrArg (· >>= _) made).trans ?_
    exact (congrArg (· >>= _) others).trans rfl

/-- A server tells which one it is. -/
def identified : Exchange where
  command := .query "IDENTIFY_SYSTEM"
  frames := [('T', [0, 1] ++ Bytes.ofString "systemid" ++ List.replicate 19 0),
    ('D', [0, 1, 0, 0, 0, 2] ++ Bytes.ofString "42"), ('Z', [73])]
  answer := [.rowDescription 1 (Bytes.ofString "systemid" ++ List.replicate 19 0),
    .dataRow 1 ([0, 0, 0, 2] ++ Bytes.ofString "42")] ++ [.ready]
  whole := by unfold Means; decide +kernel
  answered := .written (by decide +kernel) (by decide +kernel) (by decide +kernel)
    (by decide +kernel) (by rintro _ ⟨⟩)

/-- A server refuses to stream. -/
def refused : Exchange where
  command := .start "START_REPLICATION"
  frames := [('N', []), ('E', Bytes.ofString "Mslot is active" ++ [0, 0]), ('Z', [73])]
  answer := [.notice [], .error (Bytes.ofString "Mslot is active" ++ [0, 0])] ++ [.ready]
  whole := by unfold Means; decide +kernel
  answered := .written (by decide +kernel) (by decide +kernel) (by decide +kernel)
    (by decide +kernel) fun _ _ => rfl

/-- The server refuses to stream between two questions, and what it sends arrives cut in two. -/
theorem makeAll_identified_refused :
    let sent := [identified, refused, identified].flatMap Exchange.bytes
    let c : Connection Unit := ⟨(), [], [], false, false⟩
    let p : Peer := ⟨[some (.ok (some (sent.take 40))), none, some (.ok (some (sent.drop 40)))], []⟩
    ∃ c' p', (makeAll [identified.command, refused.command] c).run p =
      some (([.ok [⟨["systemid"], [some "42"]⟩], .error (.server "slot is active")], c'), p') ∧
        c'.inbox ++ Peer.bytes p'.arrivals = identified.bytes := by
  intro sent c p
  have arrives : c.inbox ++ Peer.bytes p.arrivals =
      ([identified, refused] ++ [identified]).flatMap Exchange.bytes ++ [] := by
    simp [c, p, Peer.bytes, sent]
  obtain ⟨c', p', made, -, -, left⟩ := makeAll_exchanges _ _ rfl (by simp [p]) arrives
  refine ⟨c', p', made.trans ?_, left.trans (by simp)⟩
  have results : [identified, refused].map Exchange.result =
      [.ok [⟨["systemid"], [some "42"]⟩], .error (.server "slot is active")] := by
    decide +kernel
  rw [results]

end ChangeFeed.Session
