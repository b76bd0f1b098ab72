import ChangeFeed.Proofs.Surroundings.Books

/-!
What the calls on connections do to the books and what they say, from single requests to the two
connections of a capture.
-/
namespace ChangeFeed

open Session

/-- The links that the two connections of a capture stand for. -/
def Connections.links (c : Connections Nat (Connection Nat)) : List Link :=
  (c.replication.toList.map fun r => .replication r.socket) ++ c.control.toList.map .control

/-- A replication connection that is there has not been closed, and what it has still to say fits. -/
def Connections.Usable (commands : String → Prop) (c : Connections Nat (Connection Nat)) : Prop :=
  ∀ r ∈ c.replication, r.closed = false ∧ Wire.Speech commands r.outbox

theorem Connections.usable_empty {commands : String → Prop} :
    (Connections.empty : Connections Nat (Connection Nat)).Usable commands :=
  nofun

namespace Trial

variable {μ : Type} {commands : String → Prop}

/-- What a call that leaves one note, or none, says. -/
theorem told_single {log : List (Note μ)} {n : Note μ} (fits : n.Fits commands) :
    ∃ notes, log ++ [n] = log ++ notes ∧ ∀ n ∈ notes, n.Fits commands :=
  ⟨[n], rfl, by simpa using fits⟩

theorem told_nothing {log : List (Note μ)} :
    ∃ notes, log = log ++ notes ∧ ∀ n ∈ notes, n.Fits commands :=
  ⟨[], (List.append_nil log).symm, by simp⟩

section Requests

theorem reach_does (route : Conninfo.Route) (limit : Option Nat) (deadline : Nat) :
    Does commands (Control.Database.reach route limit deadline : Trial μ (Control.Attempt Nat)) []
      (fun _ => True) fun | .done k => [.control k] | _ => [] := by
  refine does_ask fun r w => ?_
  cases r.reach with
  | done =>
    exact ⟨trivial, rfl, rfl, told_single trivial, fun held books => books.enter rfl⟩
  | failed | late => exact ⟨trivial, rfl, rfl, told_nothing, fun held => id⟩

theorem dial_does (host : String) (port limit : Nat) :
    Does commands (Network.dial host port limit : Trial μ (Except DialFault Nat)) []
      (fun _ => True) fun | .ok i => [.replication i] | .error _ => [] := by
  refine does_ask fun r w => ?_
  cases r.dial with
  | ok => exact ⟨trivial, rfl, rfl, told_single trivial, fun held books => books.enter rfl⟩
  | error => exact ⟨trivial, rfl, rfl, told_nothing, fun held => id⟩

theorem write_does {n : Note μ} {l : Link} (closes : n = .closed l) :
    Does commands (write n) [l] (fun _ => True) fun _ => [] := by
  subst closes
  rintro w a w' ⟨⟩
  exact ⟨trivial, ⟨Nat.le_refl _, Nat.le_refl _, told_single trivial⟩, fun held books => books.close⟩

theorem release_does (k : Nat) :
    Does commands (Control.Database.release k : Trial μ Unit) [.control k] (fun _ => True) fun _ => [] :=
  write_does rfl

theorem drop_does (i : Nat) :
    Does commands (Network.drop i : Trial μ Unit) [.replication i] (fun _ => True) fun _ => [] :=
  write_does rfl

theorem shut_does (i : Nat) :
    Does commands (Network.shut i : Trial μ (Except IoFault Unit)) [.replication i] (fun _ => True)
      fun _ => [] :=
  does_ask fun _ _ => ⟨trivial, rfl, rfl, told_single trivial, fun _ books => books.close⟩

/-- A question that is answered without a note. -/
theorem quiet_question {α : Type} (answer : Reply → Outside μ → α) :
    Quiet commands (ask fun r w => (answer r w, w) : Trial μ α) fun _ => True := by
  refine quiet_ask fun r w => ⟨[], (List.append_nil w.log).symm, rfl, rfl, ?_⟩
  simp

theorem send_quiet (i : Nat) {bytes : Bytes} (said : Wire.Speech commands bytes) :
    Quiet commands (Network.send i bytes : Trial μ (Except IoFault Unit)) fun _ => True :=
  quiet_ask fun _ _ => ⟨[.sent i bytes], rfl, rfl, rfl, fun n member => by
    cases List.mem_singleton.mp member
    exact ⟨⟨rfl, rfl⟩, said⟩⟩

theorem receive_quiet (i : Nat) : Quiet commands (Network.receive i : Trial μ Arrival) fun _ => True := by
  refine Does.bind (quiet_question fun r _ => r.arrival) fun arrival _ => ?_
  cases arrival with
  | some arrival => exact .pure trivial rfl
  | none => intro w a w' never; cases never

theorem record_quiet (events : List (Feed.Event μ)) :
    Quiet commands (Feed.Witness.record events : Trial μ Unit) fun _ => True := by
  rintro w a w' ⟨⟩
  refine ⟨trivial, ⟨Nat.le_refl _, Nat.le_refl _, events.map .seen, rfl, ?_⟩, fun held books => ?_⟩
  · rintro _ member
    obtain ⟨event, -, rfl⟩ := List.mem_map.mp member
    exact trivial
  exact books.write (by simp [Note.opened?]) (by simp [Note.closed?])

end Requests

section Control

open ChangeFeed.Control

theorem enter_quiet (k : Nat) (t : Conninfo.Target) (deadline : Nat) :
    Quiet commands (enter k t deadline : Trial μ (Attempt Unit)) fun _ => True := by
  unfold enter
  split
  · exact .pure trivial rfl
  split
  · exact .pure trivial rfl
  refine Does.bind (quiet_question fun r _ => r.login) fun login _ => ?_
  cases login with
  | failed | late => exact .pure trivial rfl
  | done =>
    dsimp only
    split
    · exact .pure trivial rfl
    split
    · exact .pure trivial rfl
    refine Does.bind (quiet_question fun r _ => r.rows) fun rows _ => ?_
    cases rows <;> exact .pure trivial rfl

/-- A connection that is reached and then refused is let go. -/
theorem attempt_does (t : Conninfo.Target) (deadline : Nat) (route : Conninfo.Route) :
    Does commands (attempt t deadline route : Trial μ (Attempt Nat)) [] (fun _ => True)
      fun | .done k => [.control k] | _ => [] := by
  refine (reach_does route _ deadline).bind fun reached _ => ?_
  cases reached with
  | failed | late => exact .pure trivial rfl
  | done k =>
    refine ((enter_quiet k t deadline).held _).bind fun entered _ => ?_
    cases entered with
    | done => exact .pure trivial rfl
    | failed | late => exact (release_does k).bind fun _ _ => .pure trivial rfl

theorem tryAll_does (t : Conninfo.Target) (limit deadline : Nat) (last : String)
    (routes : List Conninfo.Route) :
    Does commands (tryAll t limit deadline last routes : Trial μ (Except Error Nat)) [] (fun _ => True)
      fun | .ok k => [.control k] | .error _ => [] := by
  induction routes generalizing last with
  | nil => exact .pure trivial rfl
  | cons route routes ih =>
    refine (attempt_does t deadline route).bind fun attempted _ => ?_
    cases attempted with
    | done | late => exact .pure trivial rfl
    | failed detail => exact ih detail

theorem connect_does (conninfo : String) (limit : Nat) :
    Does commands (Control.connect conninfo limit : Trial μ (Except Error Nat)) [] (fun _ => True)
      fun | .ok k => [.control k] | .error _ => [] := by
  unfold Control.connect
  split
  · exact .pure trivial rfl
  split
  · exact .pure trivial rfl
  refine Does.bind (quiet_question fun _ w => w.now) fun now _ => ?_
  exact tryAll_does _ _ _ _ _

theorem perform_quiet (k : Nat) (s : Statement) :
    Quiet commands (Control.perform k s : Trial μ (Except Error Unit)) fun _ => True :=
  Does.bind (quiet_question fun r _ => r.rows) fun _ _ => .pure trivial rfl

theorem createSlot_quiet (k : Nat) (slot : String) :
    Quiet commands (createSlot k slot : Trial μ (Except Error Unit)) fun _ => True := by
  refine Does.bind (perform_quiet k _) fun result _ => ?_
  split <;> exact .pure trivial rfl

end Control

section Session

open Wire

/-- The same socket, closed or not as before, and what is still to be sent fits as before. -/
structure Keeps (commands : String → Prop) (c c' : Connection Nat) : Prop where
  socket : c'.socket = c.socket
  closed : c'.closed = c.closed
  outbox : Speech commands c'.outbox

theorem Keeps.refl {c : Connection Nat} (said : Speech commands c.outbox) : Keeps commands c c :=
  ⟨rfl, rfl, said⟩

theorem Keeps.trans {a b c : Connection Nat} (first : Keeps commands a b) (second : Keeps commands b c) :
    Keeps commands a c :=
  ⟨second.socket.trans first.socket, second.closed.trans first.closed, second.outbox⟩

theorem flush_quiet {c : Connection Nat} (said : Speech commands c.outbox) :
    Quiet commands (c.flush : Trial μ (Except IoFault Unit × Connection Nat)) fun p =>
      Keeps commands c p.2 := by
  refine Does.bind (send_quiet c.socket said) fun sent _ => ?_
  cases sent with
  | ok => exact .pure ⟨rfl, rfl, .nil⟩ rfl
  | error => exact .pure (.refl said) rfl

/-- Whether what a step sends is a whole message. -/
def SendsWhole (commands : String → Prop) : Step → Prop
  | .send bytes _ => Whole commands bytes
  | .wait _ | .done _ => True

section Steps

variable {l : Login}

theorem password_sends {f : Bytes → Step} (whole : ∀ p, SendsWhole commands (f p)) :
    SendsWhole commands (Step.requirePassword l f) := by
  unfold Step.requirePassword
  cases l.password with
  | some p => exact whole p
  | none => exact trivial

theorem parsed_sends {α : Type} {a : Except MessageFault α} {f : α → Step} (whole : ∀ a, SendsWhole commands (f a)) :
    SendsWhole commands (Step.parsed a f) := by
  cases a with
  | ok a => exact whole a
  | error => exact trivial

theorem request_sends (p : Bytes) (next : Await) :
    SendsWhole commands (Step.request (Request.password p) next) := by
  unfold Request.password
  cases Request.terminated p with
  | ok bytes => exact .frame bytes (by decide)
  | error => exact trivial

theorem onLoginRequest_sends (m : Message) : SendsWhole commands (onLoginRequest l m) := by
  cases m with
  | cleartextRequest => exact password_sends fun p => request_sends p _
  | md5Request salt => exact password_sends fun p => request_sends _ _
  | mechanisms list =>
    refine parsed_sends fun names => ?_
    split
    · exact password_sends fun p => .frame _ (by decide)
    · exact trivial
  | _ => exact trivial

theorem onChallenge_sends (password : Bytes) (m : Message) : SendsWhole commands (onChallenge l password m) := by
  cases m with
  | saslContinue data =>
    dsimp only [onChallenge]
    split
    · exact .frame _ (by decide)
    · exact trivial
  | _ => exact trivial

/-- What a call sends by itself is an answer to a request for a password. -/
theorem step_sends (a : Await) (m : Message) : SendsWhole commands (a.step m) := by
  unfold Await.step
  split
  · exact trivial
  cases a with
  | loginRequest l => exact onLoginRequest_sends m
  | challenge l password => exact onChallenge_sends password m
  | verdict l answer =>
    cases m with
    | saslFinal data =>
      dsimp only [Await.onMessage, onVerdict]
      split <;> exact trivial
    | _ => exact trivial
  | readiness => cases m <;> exact trivial
  | answer columns rows failure =>
    cases m with
    | rowDescription count fields => exact parsed_sends fun _ => trivial
    | dataRow count bytes => exact parsed_sends fun _ => trivial
    | ready => cases failure <;> exact trivial
    | _ => exact trivial
  | copyBoth => cases m <;> exact trivial
  | recovery refusal => cases m <;> exact trivial
  | frame => cases m <;> exact trivial

end Steps

theorem advance_sends {a next : Await} {inbox rest bytes : Bytes}
    (sends : advance a inbox = .send bytes next rest) : Speech commands bytes := by
  fun_induction advance a inbox with
  | case1 | case2 | case5 => cases sends
  | case3 _ _ _ _ _ _ _ ih => exact ih sends
  | case4 _ _ _ _ _ _ _ step =>
    cases sends
    have whole : SendsWhole commands (.send bytes next) := step ▸ step_sends _ _
    exact Whole.speech whole

variable {read : Trial μ (Option Arrival)}

theorem exchange_quiet (reads : Quiet commands read fun _ => True) (a : Await) {c : Connection Nat}
    (said : Speech commands c.outbox) :
    Quiet commands (Connection.exchange read a c) fun
      | .inl p => Keeps commands c p.2
      | .inr p => Keeps commands c p.2 := by
  unfold Connection.exchange
  cases progress : advance a c.inbox with
  | done => exact .pure ⟨rfl, rfl, said⟩ rfl
  | send bytes next inbox =>
    refine Does.bind (flush_quiet (said.append (advance_sends progress))) fun flushed keeps => ?_
    obtain ⟨sent, c'⟩ := flushed
    cases sent <;> exact .pure ⟨keeps.socket, keeps.closed, keeps.outbox⟩ rfl
  | starved next inbox =>
    refine Does.bind reads fun arrival _ => ?_
    obtain _ | (_ | (_ | _)) := arrival <;> exact .pure ⟨rfl, rfl, said⟩ rfl

/-- A call that needs a reply. -/
def Hungry {α : Type} (x : Trial μ α) : Prop :=
  ∀ w a w', x w = some (a, w') → w'.replies.length < w.replies.length

theorem hungry_ask {α : Type} {answer : Reply → Outside μ → α × Outside μ}
    (left : ∀ r w, (answer r w).2.replies = w.replies) : Hungry (ask answer) := by
  intro w a w' run
  obtain ⟨r, rest, replies, same⟩ := ask_eq_some.mp run
  have own := left r { w with replies := rest, now := w.now + r.duration }
  rw [same] at own
  rw [own, replies]
  exact Nat.lt_succ_self _

theorem Hungry.bind {α β : Type} {x : Trial μ α} {f : α → Trial μ β} {Q : β → Prop}
    (first : Hungry x) (second : ∀ a, Quiet (fun _ => True) (f a) Q) : Hungry (x >>= f) := by
  intro w b w' run
  obtain ⟨a, v, run, run'⟩ := bind_eq_some.mp run
  obtain ⟨-, passes, -⟩ := second a v b w' run'
  exact Nat.lt_of_le_of_lt passes.fewer (first w a v run)

theorem send_hungry (i : Nat) (bytes : Bytes) :
    Hungry (Network.send i bytes : Trial μ (Except IoFault Unit)) :=
  hungry_ask fun _ _ => rfl

theorem receive_hungry (i : Nat) : Hungry (Network.receive i : Trial μ Arrival) := by
  refine Hungry.bind (Q := fun _ => True) (hungry_ask fun _ _ => rfl) fun arrival => ?_
  cases arrival with
  | some arrival => exact .pure trivial rfl
  | none => intro w a w' never; cases never

theorem flush_hungry (c : Connection Nat) :
    Hungry (c.flush : Trial μ (Except IoFault Unit × Connection Nat)) := by
  refine (send_hungry c.socket c.outbox).bind (Q := fun _ => True) fun sent => ?_
  cases sent <;> exact .pure trivial rfl

/-- A call goes on only after something was sent or has arrived. -/
theorem exchange_hungry (hungry : Hungry read) {a b : Await} {c c' : Connection Nat}
    {w w' : Outside μ} (goes : Connection.exchange read a c w = some (.inl (b, c'), w')) :
    w'.replies.length < w.replies.length := by
  unfold Connection.exchange at goes
  generalize advance a c.inbox = progress at goes
  cases progress with
  | done => cases goes
  | send bytes next inbox =>
    obtain ⟨⟨sent, d⟩, v, flushed, rest⟩ := bind_eq_some.mp goes
    cases sent <;> cases rest
    exact flush_hungry _ w _ _ flushed
  | starved next inbox =>
    obtain ⟨arrival, v, arrived, rest⟩ := bind_eq_some.mp goes
    obtain _ | (_ | (_ | _)) := arrival <;> cases rest
    exact hungry w _ _ arrived

/-- A conversation that has come to its end: each of its exchanges goes on to the next but the last. -/
inductive Exchanges (read : Trial μ (Option Arrival)) : Await → Connection Nat → Outside μ →
    Option (Except Error Outcome) × Connection Nat → Outside μ → Prop
  | last {a c w r w'} : Connection.exchange read a c w = some (.inr r, w') → Exchanges read a c w r w'
  | next {a b c c' w v r w'} : Connection.exchange read a c w = some (.inl (b, c'), v) →
      Exchanges read b c' v r w' → Exchanges read a c w r w'

theorem exchanges_of_converse (hungry : Hungry read) {a : Await} {c : Connection Nat} {w w' : Outside μ}
    {r : Option (Except Error Outcome) × Connection Nat}
    (run : Connection.converse read a c w = some (r, w')) : Exchanges read a c w r w' := by
  -- As long as the conversation goes on, it uses up replies.
  induction count : w.replies.length using Nat.strongRecOn generalizing a c w with
  | _ n ih =>
    rw [Connection.converse_eq] at run
    obtain ⟨x, v, exchanged, rest⟩ := bind_eq_some.mp run
    cases x with
    | inr p =>
      cases rest
      exact .last exchanged
    | inl p => exact .next exchanged (ih _ (count ▸ exchange_hungry hungry exchanged) rest rfl)

theorem converse_quiet (reads : Quiet commands read fun _ => True) (hungry : Hungry read) (a : Await)
    {c : Connection Nat} (said : Speech commands c.outbox) :
    Quiet commands (Connection.converse read a c) fun p => Keeps commands c p.2 := by
  intro w r w' run
  replace run := exchanges_of_converse hungry run
  induction run with
  | @last a c w r w' exchanged => exact exchange_quiet reads a said w _ w' exchanged
  | @next a b c c' w v r w' exchanged _ ih =>
    obtain ⟨keeps, passes, books⟩ := exchange_quiet reads a said w _ v exchanged
    obtain ⟨keeps', passes', books'⟩ := ih keeps.outbox
    exact ⟨keeps.trans keeps', passes.trans passes', fun held start => books' held (books held start)⟩

theorem run_quiet (a : Await) {c : Connection Nat} (said : Speech commands c.outbox) :
    Quiet commands (c.run a : Trial μ (Except Error Outcome × Connection Nat)) fun p =>
      Keeps commands c p.2 := by
  have reads : Quiet commands (some <$> Network.receive c.socket : Trial μ (Option Arrival)) fun _ => True :=
    Does.map (receive_quiet c.socket) fun _ _ => ⟨trivial, rfl⟩
  have hungry : Hungry (some <$> Network.receive c.socket : Trial μ (Option Arrival)) := by
    rw [map_eq_pure_bind]
    exact (receive_hungry c.socket).bind (Q := fun _ => True) fun _ => .pure trivial rfl
  exact Does.bind (converse_quiet reads hungry a said) fun _ keeps => .pure keeps rfl

theorem call_quiet (a : Await) {c : Connection Nat} (said : Speech commands c.outbox) :
    Quiet commands (c.call a : Trial μ (Except Error Outcome × Connection Nat)) fun p =>
      Keeps commands c p.2 := by
  refine Does.bind (flush_quiet said) fun p keeps => ?_
  obtain ⟨sent, c'⟩ := p
  cases sent with
  | error => exact .pure keeps rfl
  | ok =>
    refine (run_quiet a keeps.outbox).mono .rfl fun p keeps' => ?_
    exact ⟨keeps.trans keeps', .rfl⟩

theorem login_quiet (l : Login) (socket : Nat) :
    Quiet commands (Connection.login l socket : Trial μ (Except Error (Connection Nat))) fun r =>
      ∀ c, r = .ok c → c.socket = socket ∧ c.closed = false ∧ Speech commands c.outbox := by
  unfold Connection.login
  dsimp only
  split
  · exact .pure nofun rfl
  · rename_i packet opening
    have said : Speech commands ([] ++ packet) := (Whole.startup opening).speech
    refine Does.bind (call_quiet _ said) fun p keeps => .pure ?_ rfl
    obtain ⟨result, c⟩ := p
    cases result with
    | error => nofun
    | ok =>
      rintro _ ⟨⟩
      exact ⟨keeps.socket, keeps.closed, keeps.outbox⟩

/-- A socket on which the login fails is let go. -/
theorem openSession_does (conninfo : String) (limit : Nat) :
    Does commands (Connection.connect conninfo limit : Trial μ (Except Error (Connection Nat))) []
      (fun r => ∀ c, r = .ok c → c.closed = false ∧ Speech commands c.outbox)
      fun | .ok c => [.replication c.socket] | .error _ => [] := by
  refine Does.bind (quiet_question fun r _ => r.nonce) fun nonce _ => ?_
  split
  · exact .pure nofun rfl
  · refine (dial_does _ _ _).bind fun dialled _ => ?_
    cases dialled with
    | error fault => cases fault <;> exact .pure nofun rfl
    | ok socket =>
      refine ((login_quiet _ socket).held _).bind fun result own => ?_
      cases result with
      | ok c =>
        obtain ⟨same, open', said⟩ := own c rfl
        refine .pure ?_ (congrArg (fun i => [Link.replication i]) same.symm)
        rintro _ ⟨⟩
        exact ⟨open', said⟩
      | error e => exact (drop_does socket).bind fun _ _ => .pure nofun rfl

theorem command_quiet {c : Connection Nat} (said : Speech commands c.outbox) {text : String}
    (allowed : commands text) (a : Await) :
    Quiet commands (c.command text a : Trial μ (Except Error Outcome × Connection Nat)) fun p =>
      Keeps commands c p.2 := by
  unfold Connection.command
  split
  · rename_i written
    refine (call_quiet a (said.append (Whole.query allowed written).speech)).mono .rfl fun _ keeps => ?_
    exact ⟨⟨keeps.socket, keeps.closed, keeps.outbox⟩, .rfl⟩
  · rename_i refused
    exact .pure ⟨rfl, rfl, said.append (Whole.broken allowed refused).speech⟩ rfl

/-- Whether a connection may be asked what it takes to start a stream of a slot from a checkpoint. -/
structure MayStart (commands : String → Prop) (slot : String) (checkpoint : Checkpoint) : Prop where
  identify : commands identifyCommand
  start : ∀ current, commands (startCommand slot (startPosition checkpoint current))

section Start

variable {slot : String} {checkpoint : Checkpoint} (may : MayStart commands slot checkpoint)
include may

theorem identify_quiet {c : Connection Nat} (said : Speech commands c.outbox) :
    Quiet commands (c.identify : Trial μ (Except Error Identity × Connection Nat)) fun p =>
      Keeps commands c p.2 := by
  refine Does.bind (Q := fun p => Keeps commands c p.2) ?_ fun _ keeps => .pure keeps rfl
  unfold Connection.query
  split
  · exact .pure (.refl said) rfl
  · exact Does.bind (command_quiet said may.identify _) fun _ keeps => .pure keeps rfl

theorem start_quiet {c : Connection Nat} (said : Speech commands c.outbox) :
    Quiet commands (c.start slot checkpoint : Trial μ (Except Error Stream × Connection Nat)) fun p =>
      Keeps commands c p.2 := by
  refine Does.bind (identify_quiet may said) fun p keeps => ?_
  obtain ⟨identity, c'⟩ := p
  cases identity with
  | error => exact .pure keeps rfl
  | ok server =>
    refine Does.bind (Q := fun p => Keeps commands c p.2) ?_ fun _ keeps => .pure keeps rfl
    refine Does.bind (command_quiet keeps.outbox (may.start server.position) _) fun p keeps' => ?_
    obtain ⟨result, c''⟩ := p
    have keeps'' := keeps.trans keeps'
    cases result <;> exact .pure ⟨keeps''.socket, keeps''.closed, keeps''.outbox⟩ rfl

end Start

theorem poll_quiet {c : Connection Nat} (said : Speech commands c.outbox) :
    Quiet commands (c.poll : Trial μ (Option (Except Error Frame) × Connection Nat)) fun p =>
      Keeps commands c p.2 := by
  refine Does.bind (converse_quiet ?_ ?_ .frame said) fun _ keeps => .pure keeps rfl
  · exact quiet_question fun r _ => r.arrival
  · exact hungry_ask fun _ _ => rfl

theorem report_quiet {c : Connection Nat} (said : Speech commands c.outbox) (u : StatusUpdate) :
    Quiet commands (c.report u : Trial μ (Except Error Unit × Connection Nat)) fun p =>
      Keeps commands c p.2 := by
  have update : Whole commands (Request.copyData u.layout) := .frame u.layout (by decide)
  exact Does.bind (flush_quiet (said.append update.speech)) fun _ keeps =>
    .pure ⟨keeps.socket, keeps.closed, keeps.outbox⟩ rfl

theorem close_does {c : Connection Nat} (unclosed : c.closed = false) (said : Speech commands c.outbox) :
    Does commands (c.close : Trial μ (Except Error Unit × Connection Nat)) [.replication c.socket]
      (fun _ => True) fun _ => [] := by
  have done : Whole commands Request.copyDone := .frame [] (by decide)
  have goodbye : Whole commands Request.terminate := .frame [] (by decide)
  unfold Connection.close
  rw [unclosed]
  refine ((flush_quiet ?_).held _).bind fun p keeps => ?_
  · cases c.streaming with
    | true => exact (said.append done.speech).append goodbye.speech
    | false => exact said.append goodbye.speech
  · have same : p.2.socket = c.socket := by
      rw [keeps.socket]
      cases c.streaming <;> rfl
    rw [← same]
    exact (shut_does p.2.socket).bind fun _ _ => .pure trivial rfl

end Session

section Connections

variable {c : Connections Nat (Connection Nat)}

/-- Letting go of the replication connection in some way, and then of the control connection. -/
theorem part_does {α β : Type} {lets : Connection Nat → Trial μ β} (a : α)
    (does : ∀ r ∈ c.replication, Does commands (lets r) [.replication r.socket] (fun _ => True) fun _ => []) :
    Does commands (do
      match c.replication with
      | some r => let _ ← lets r
      | none => pure ()
      match c.control with
      | some k => Control.Database.release k
      | none => pure ()
      return a : Trial μ α) c.links (fun b => b = a) fun _ => [] := by
  obtain ⟨control, replication⟩ := c
  have release : Does commands (do
      match control with
      | some k => Control.Database.release k
      | none => pure ()
      return a : Trial μ α) (control.toList.map Link.control) (fun b => b = a) fun _ => [] := by
    cases control with
    | none => exact .pure rfl rfl
    | some k => exact (release_does k).bind fun _ _ => .pure rfl rfl
  cases replication with
  | none => exact release
  | some r => exact ((does r rfl).frame _).bind fun _ _ => release

theorem close_both_does (usable : c.Usable commands) :
    Does commands (c.close : Trial μ (Connections Nat (Connection Nat))) c.links (fun e => e = .empty)
      fun _ => [] := by
  have parts := part_does (Connections.empty : Connections Nat (Connection Nat)) fun r here =>
    close_does (μ := μ) (usable r here).1 (usable r here).2
  obtain ⟨_ | k, _ | r⟩ := c <;> exact parts

theorem abandon_does : Does commands (c.abandon : Trial μ Unit) c.links (fun _ => True) fun _ => [] := by
  have lets : ∀ r ∈ c.replication, Does commands (Network.drop r.socket : Trial μ Unit)
      [.replication r.socket] (fun _ => True) fun _ => [] := fun r _ => drop_does r.socket
  have parts := part_does () lets
  obtain ⟨_ | k, _ | r⟩ := c <;> exact parts.mono .rfl fun _ _ => ⟨trivial, .rfl⟩

theorem openControl_does (conninfo : String) (limit : Nat) :
    Does commands (Connections.empty.openControl conninfo limit :
        Trial μ (Except Error Nat × Connections Nat (Connection Nat))) []
      (fun p => p.2.replication = none ∧ ∀ k, p.1 = .ok k → p.2.control = some k)
      fun p => p.2.links := by
  refine (connect_does conninfo limit).bind fun result _ => ?_
  cases result with
  | error => exact .pure ⟨rfl, nofun⟩ rfl
  | ok k =>
    refine .pure ⟨rfl, ?_⟩ rfl
    rintro _ ⟨⟩
    rfl

theorem openReplication_does {c : Connections Nat (Connection Nat)} (unopened : c.replication = none)
    (conninfo : String) (limit : Nat) :
    Does commands (c.openReplication conninfo limit :
        Trial μ (Except Error Unit × Connections Nat (Connection Nat))) c.links
      (fun p => p.2.control = c.control ∧ p.2.Usable commands ∧ (p.1 = .ok () → p.2.replication.isSome))
      fun p => p.2.links := by
  obtain ⟨control, replication⟩ := c
  cases unopened
  refine ((openSession_does conninfo limit).frame _).bind fun result open' => ?_
  cases result with
  | error => exact .pure ⟨rfl, nofun, nofun⟩ rfl
  | ok r =>
    have usable : Connections.Usable commands ⟨control, some r⟩ := by
      rintro _ ⟨⟩
      exact open' r rfl
    exact .pure ⟨rfl, usable, fun _ => rfl⟩ rfl

end Connections

end Trial

end ChangeFeed
