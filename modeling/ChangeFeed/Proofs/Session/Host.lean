import ChangeFeed.Proofs.Session.Peer
import ChangeFeed.Proofs.Surroundings.Calls
import ChangeFeed.Proofs.Wire.Speech

/-!
A client that opens one connection, and the server at its other side, with all that the server hears.
Main statement: a call comes to what a plain reading of the server's messages gives, unless something
cannot be sent, and gives no command of its own.
-/
namespace ChangeFeed.Session

open Wire

/-- Whether the server can be reached, what it sends and when, and what it has heard. -/
structure Host where
  reach : Except DialFault Unit
  seed : String
  now : Nat
  peer : Peer
  heard : Bytes

instance : Inhabited Host := ⟨⟨.ok (), "", 0, default, []⟩⟩

namespace Host

/-- All that the server says, in turn. -/
def speech (h : Host) : List (Except Error Message) :=
  script (Peer.bytes h.peer.arrivals) (Peer.ending? h.peer.arrivals)

/-- Something has been sent, or could not be sent. -/
def sent (h : Host) : Host := { h with peer := { h.peer with sends := h.peer.sends.tail } }

def hear (h : Host) (bytes : Bytes) : Host := { h.sent with heard := h.heard ++ bytes }

/-- All that is sent to the server arrives. -/
def Hears (h : Host) : Prop := ∀ fault, .error fault ∉ h.peer.sends

end Host

/-- A call that waits for ever has no outcome. -/
abbrev Visit := StateT Host Option

namespace Visit

/-- What is done with the socket alone. -/
def meet {α : Type} (x : Meeting α) : Visit α := fun h =>
  (x.run h.peer).map fun r => (r.1, { h with peer := r.2 })

instance : Network Visit Unit where
  dial _ _ _ := fun h => some (h.reach, h)
  send _ bytes := fun h => some <|
    match h.peer.sends.headD (.ok ()) with
    | .ok _ => (.ok (), h.hear bytes)
    | .error fault => (.error fault, h.sent)
  receive _ := meet (Network.receive ())
  poll _ := meet (Network.poll ())
  shut _ := return .ok ()
  drop _ := return ()
  nonce := fun h => some (h.seed, h)

/-- The control connection goes to another server, which lets the client in and has no rows. -/
instance : Control.Database Visit Unit where
  reach _ _ _ := return .done ()
  login _ _ _ := return .done ()
  execute _ _ := return .ok []
  release _ := return ()

instance : Time.Clock Visit where
  now := fun h => some (h.now, h)
  wall := return 0
  wait _ := return ()

end Visit

/-- The commands that a client has given, heard or still to be sent. -/
def Told (c : Connection Unit) (h : Host) (asked : List String) : Prop :=
  ∃ said pending, Utters h.heard said ∧ Utters c.outbox pending ∧ said ++ pending = asked

/-- What a client has done that has given these commands. -/
structure Onward (commands : List String) (c : Connection Unit) (h : Host) (c' : Connection Unit)
    (h' : Host) : Prop where
  streaming : c'.streaming = c.streaming
  closed : c'.closed = c.closed
  now : h'.now = h.now
  sends : h'.peer.sends <:+ h.peer.sends
  told : ∀ asked, Told c h asked → Told c' h' (asked ++ commands)

/-- What becomes of a call: it waits for ever, it ends as the messages of the server say, or something
could not be sent. -/
inductive Calls (a : Await) (c : Connection Unit) (h : Host) :
    Option ((Except Error Outcome × Connection Unit) × Host) → Prop
  | hangs : a.read (ahead c h.peer) = none → Calls a c h none
  | ends {result c' h'} : a.read (ahead c h.peer) = some (result.map (·, ahead c' h'.peer)) →
      c'.outbox = [] → Onward [] c h c' h' → Calls a c h (some ((result, c'), h'))
  | unsent {fault e c' h'} : .error fault ∈ h.peer.sends → Onward [] c h c' h' →
      Calls a c h (some ((.error e, c'), h'))

section Calls

variable {a b : Await} {c c₁ c' : Connection Unit} {h h₁ h' : Host} {asked commands more : List String}

theorem Told.heard (told : Told c h asked) (sent : c.outbox = []) : Utters h.heard asked := by
  obtain ⟨said, pending, heard, written, rfl⟩ := told
  rw [sent] at written
  rwa [written.eq_nil, List.append_nil]

/-- Of the commands a first part has been heard. -/
theorem Told.begun (told : Told c h asked) : ∃ said, said <+: asked ∧ Utters h.heard said := by
  obtain ⟨said, pending, heard, -, rfl⟩ := told
  exact ⟨said, List.prefix_append said pending, heard⟩

theorem Onward.silent (streaming : c'.streaming = c.streaming) (closed : c'.closed = c.closed)
    (now : h'.now = h.now) (sends : h'.peer.sends <:+ h.peer.sends)
    (told : ∀ asked, Told c h asked → Told c' h' asked) : Onward [] c h c' h' :=
  ⟨streaming, closed, now, sends, fun asked before => by
    rw [List.append_nil]
    exact told asked before⟩

theorem Onward.hears (onward : Onward commands c h c' h') (hears : h.Hears) : h'.Hears :=
  fun fault member => hears fault (onward.sends.subset member)

theorem Onward.trans (first : Onward commands c h c₁ h₁) (second : Onward more c₁ h₁ c' h') :
    Onward (commands ++ more) c h c' h' := by
  refine ⟨second.streaming.trans first.streaming, second.closed.trans first.closed,
    second.now.trans first.now, second.sends.trans first.sends, fun asked told => ?_⟩
  rw [← List.append_assoc]
  exact second.told _ (first.told asked told)

/-- What arrives makes no difference to what has been said. -/
theorem Onward.of_arrivals (c : Connection Unit) (h : Host) (inbox : Bytes)
    (arrivals : List (Option Arrival)) :
    Onward [] c h { c with inbox } { h with peer := { h.peer with arrivals } } :=
  .silent rfl rfl rfl (List.suffix_refl _) fun _ told => told

theorem Onward.hear (c : Connection Unit) (h : Host) :
    Onward [] c h { c with outbox := [] } (h.hear c.outbox) := by
  refine .silent rfl rfl rfl (List.tail_suffix _) ?_
  rintro _ ⟨said, pending, heard, written, rfl⟩
  exact ⟨said ++ pending, [], heard.append written, .nil, by simp⟩

theorem Onward.unheard (c : Connection Unit) (h : Host) : Onward [] c h c h.sent :=
  .silent rfl rfl rfl (List.tail_suffix _) fun _ told => told

theorem Onward.write {bytes : Bytes} (utters : Utters bytes commands) (c : Connection Unit) (h : Host) :
    Onward commands c h (c.write bytes) h := by
  refine ⟨rfl, rfl, rfl, List.suffix_refl _, ?_⟩
  rintro _ ⟨said, pending, heard, written, rfl⟩
  exact ⟨said, pending ++ commands, heard, written.append utters, (List.append_assoc ..).symm⟩

theorem Calls.after {r : Option ((Except Error Outcome × Connection Unit) × Host)}
    (reads : a.read (ahead c h.peer) = b.read (ahead c₁ h₁.peer)) (onward : Onward [] c h c₁ h₁)
    (calls : Calls b c₁ h₁ r) : Calls a c h r := by
  cases calls with
  | hangs never => exact .hangs (reads.trans never)
  | ends result sent later => exact .ends (reads.trans result) sent (onward.trans later)
  | unsent failed later => exact .unsent (onward.sends.subset failed) (onward.trans later)

theorem flush_run (c : Connection Unit) (h : Host) :
    (c.flush : Visit _).run h =
      match h.peer.sends.headD (.ok ()) with
      | .ok _ => some ((.ok (), { c with outbox := [] }), h.hear c.outbox)
      | .error fault => some ((.error fault, c), h.sent) := by
  have send : (Network.send c.socket c.outbox : Visit _).run h = some
      (match h.peer.sends.headD (.ok ()) with
        | .ok _ => (.ok (), h.hear c.outbox)
        | .error fault => (.error fault, h.sent)) := rfl
  rw [Connection.flush, StateT.run_bind, send]
  cases h.peer.sends.headD (.ok ()) <;> rfl

theorem mem_of_headD {fault : IoFault} (failed : h.peer.sends.headD (.ok ()) = .error fault) :
    .error fault ∈ h.peer.sends := by
  cases sends : h.peer.sends with
  | nil => rw [sends] at failed; cases failed
  | cons first later =>
    rw [sends] at failed
    exact failed ▸ List.mem_cons_self

theorem receive_run (c : Connection Unit) (h : Host) :
    (some <$> Network.receive c.socket : Visit (Option Arrival)).run h =
      ((some <$> Network.receive () : Meeting (Option Arrival)).run h.peer).map fun r =>
        (r.1, { h with peer := r.2 }) := by
  have receive : (Network.receive c.socket : Visit Arrival).run h =
      ((Network.receive () : Meeting Arrival).run h.peer).map fun r => (r.1, { h with peer := r.2 }) := rfl
  rw [StateT.run_map, StateT.run_map, receive]
  cases (Network.receive () : Meeting Arrival).run h.peer <;> rfl

theorem exists_of_fail (a : Await) (e : Error) : ∃ e', a.fail e = .error e' := by
  cases a <;> exact ⟨_, rfl⟩

/-- A conversation from here on has an outcome that the call may have. -/
def Converses (a : Await) (c : Connection Unit) (h : Host) : Prop :=
  ∃ r, Calls a c h r ∧
    (Connection.converse (some <$> Network.receive c.socket) a c : Visit _).run h =
      r.map fun r => ((some r.1.1, r.1.2), r.2)

/-- No whole message is left: the call goes on with the bytes that arrive, if any do. -/
theorem Converses.of_starved {ms : List Message} {rest : Bytes} (quiet : c.outbox = [])
    (starves : advance a c.inbox = .starved b rest) (waits : a.Waits ms b) (short : next? rest = none)
    (same : ahead c h.peer = ms.map .ok ++ ahead { c with inbox := rest } h.peer)
    (later : ∀ {bs arrivals}, Peer.bytes h.peer.arrivals = bs ++ Peer.bytes arrivals →
      arrivals.length < h.peer.arrivals.length →
      Converses b { c with inbox := rest ++ bs } { h with peer := { h.peer with arrivals } }) :
    Converses a c h := by
  have reads : a.read (ahead c h.peer) = b.read (ahead { c with inbox := rest } h.peer) := by
    rw [same, waits.read_eq]
  rw [Converses, Connection.converse_eq, StateT.run_bind, Connection.exchange, starves]
  dsimp only
  rw [StateT.run_bind, receive_run]
  have given := gives_receive h.peer
  generalize (some <$> Network.receive () : Meeting (Option Arrival)).run h.peer = r at given
  cases given with
  | hangs _ nothing unended =>
    refine ⟨none, .hangs ?_, rfl⟩
    rw [reads, ahead_of_spent short nothing, unended]
    rfl
  | silence impatient | pause impatient => cases impatient
  | @bytes bs arrivals _ fewer bytes ending =>
    obtain ⟨r, calls, ran⟩ := later bytes fewer
    rw [ahead_of_bytes { c with inbox := rest } bytes ending] at reads
    exact ⟨r, .after reads (.of_arrivals c h _ arrivals) calls, ran⟩
  | @ends e arrivals _ nothing ending =>
    obtain ⟨e', fails⟩ := exists_of_fail b (endingError e)
    have refused : a.read (ahead c h.peer) = some (.error e') := by
      rw [reads, ahead_of_spent short nothing, ending]
      dsimp only [Option.map_some, Option.toList_some, Await.read]
      rw [fails]
      rfl
    refine ⟨some ((.error e', { c with inbox := rest }), { h with peer := { h.peer with arrivals } }),
      .ends refused quiet (.of_arrivals c h rest arrivals), ?_⟩
    cases e <;> exact congrArg (fun r => some ((some r, { c with inbox := rest }),
      { h with peer := { h.peer with arrivals } })) fails

/-- An answer is sent: the call goes on unless it cannot be. -/
theorem Converses.of_sends {ms : List Message} {m : Message} {bytes rest : Bytes}
    (advances : advance a c.inbox = .send bytes b rest) {a' : Await} (waits : a.Waits ms a')
    (answers : a'.step m = .send bytes b)
    (same : ahead c h.peer = ms.map .ok ++ .ok m :: ahead { c with inbox := rest } h.peer)
    (later : Converses b { c with inbox := rest, outbox := [] } (h.hear (c.outbox ++ bytes))) :
    Converses a c h := by
  have silent : Utters bytes [] := by
    have whole : Trial.SendsWhole (fun _ => False) (a'.step m) := Trial.step_sends a' m
    rw [answers] at whole
    exact Whole.utters whole
  have onward : Onward [] c h ({ c with inbox := rest }.write bytes) h :=
    (Onward.of_arrivals c h rest h.peer.arrivals).trans (.write silent _ _)
  rw [Converses, Connection.converse_eq, StateT.run_bind, Connection.exchange, advances]
  dsimp only
  rw [StateT.run_bind, flush_run]
  cases sent : h.peer.sends.headD (.ok ()) with
  | ok =>
    obtain ⟨r, calls, ran⟩ := later
    have reads : a.read (ahead c h.peer) =
        b.read (ahead { c with inbox := rest, outbox := [] } (h.hear (c.outbox ++ bytes)).peer) := by
      rw [same, waits.read_eq, Await.read, answers]
      rfl
    have heard : Onward [] c h { c with inbox := rest, outbox := [] } (h.hear (c.outbox ++ bytes)) :=
      onward.trans (.hear _ h)
    exact ⟨r, .after reads heard calls, ran⟩
  | error fault =>
    obtain ⟨e, fails⟩ := exists_of_fail b (.io fault)
    refine ⟨some ((.error e, { c with inbox := rest }.write bytes), h.sent),
      .unsent (mem_of_headD sent) (onward.trans (.unheard _ h)), ?_⟩
    exact congrArg (fun r => some ((some r, { c with inbox := rest }.write bytes), h.sent)) fails

theorem Converses.of_done {result : Except Error Outcome} {rest : Bytes} (quiet : c.outbox = [])
    (done : advance a c.inbox = .done result rest)
    (reads : a.read (ahead c h.peer) = some (result.map (·, ahead { c with inbox := rest } h.peer))) :
    Converses a c h := by
  rw [Converses, Connection.converse_eq, StateT.run_bind, Connection.exchange, done]
  exact ⟨some ((result, { c with inbox := rest }), h),
    .ends reads quiet (.of_arrivals c h rest h.peer.arrivals), rfl⟩

/-- A call that has nothing left to send runs as the messages say, up to what cannot be sent. -/
theorem converses (a : Await) {c : Connection Unit} (h : Host) (quiet : c.outbox = []) :
    Converses a c h := by
  -- Each turn uses up bytes that are there or an arrival.
  induction left : c.inbox.length + (Peer.bytes h.peer.arrivals).length + h.peer.arrivals.length
    using Nat.strongRecOn generalizing a c h with
  | _ n ih =>
    have proceeds := proceeds a c.inbox
    generalize progress : advance a c.inbox = p at proceeds
    cases proceeds with
    | done reads => exact .of_done quiet progress (reads _ _)
    | starved waits short fewer split =>
      refine .of_starved quiet progress waits short (split _ _) fun bytes shorter => ?_
      refine ih _ ?_ _ _ quiet rfl
      rw [bytes, List.length_append] at left
      rw [List.length_append]
      dsimp only
      omega
    | sends waits answers fewer split =>
      refine .of_sends progress waits answers (split _ _) (ih _ ?_ _ _ rfl rfl)
      dsimp only [Host.hear, Host.sent]
      omega

/-- A call sends what has been written and runs. -/
theorem call_calls (a : Await) (c : Connection Unit) (h : Host) :
    Calls a c h ((c.call a : Visit _).run h) := by
  rw [Connection.call, StateT.run_bind, flush_run]
  cases sent : h.peer.sends.headD (.ok ()) with
  | error fault => exact .unsent (mem_of_headD sent) (.unheard c h)
  | ok =>
    obtain ⟨r, calls, ran⟩ := converses a (c := { c with outbox := [] }) (h.hear c.outbox) rfl
    have run : ({ c with outbox := [] }.run a : Visit _).run (h.hear c.outbox) = r := by
      rw [Connection.run, StateT.run_bind, ran]
      cases r <;> rfl
    have reads : a.read (ahead c h.peer) =
        a.read (ahead { c with outbox := [] } (h.hear c.outbox).peer) := rfl
    rw [← run] at calls
    exact .after reads (.hear c h) calls

end Calls

end ChangeFeed.Session
