import ChangeFeed.Proofs.Session.Peer

/-!
Starting a stream and receiving its frames from bytes that arrive in pieces. Main statement: the
calls that come to an end come to the same as if all bytes had been there at once, wherever the
bytes are cut and wherever a receive is dropped while it waits for more.
-/
namespace ChangeFeed.Session

open Wire

/-- What is asked of a connection that streams or is to stream. -/
inductive Call
  | stream (command : String)
  | receive

/-- A frame that was received, or nothing but the news that the stream has started. -/
abbrev Reply := Except Error (Option Frame)

namespace Call

/-- Makes a call; a receive is dropped when it waits for bytes at a moment at which nothing has
arrived. -/
def make (k : Call) (c : Connection Unit) : Meeting (Option Reply × Connection Unit) :=
  match k with
  | .stream command => do
    let (result, c) ← c.stream command
    return (some (result.map fun _ => none), c)
  | .receive => do
    let (result, c) ← c.poll
    return (result.map (·.map some), c)

/-- What a call comes to by a plain reading of the messages ahead, and the messages behind it. -/
def plain (k : Call) (sends : List (Except IoFault Unit)) (messages : List (Except Error Message)) :
    Option (Except Error
      (Option Frame × List (Except IoFault Unit) × List (Except Error Message))) :=
  match k with
  | .stream command =>
    match Request.query command, sends.headD (.ok ()) with
    | .error fault, _ | .ok _, .error fault => some (.error (.io fault))
    | .ok _, .ok _ => (Await.copyBoth.read messages).map (·.map fun p => (none, sends.tail, p.2))
  | .receive =>
    (Await.frame.read messages).map (·.bind fun p =>
      (Connection.asFrame (.ok p.1)).map (some ·, sends, p.2))

end Call

/-- The calls that come to an end, each with what it comes to, up to the first failure. -/
def conduct : List Call → Connection Unit → Peer → List (Call × Reply)
  | [], _, _ => []
  | k :: ks, c, p =>
    match (k.make c).run p with
    | none => []
    | some ((none, c), p) => conduct ks c p
    | some ((some (.error e), _), _) => [(k, .error e)]
    | some ((some (.ok a), c), p) => (k, .ok a) :: conduct ks c p

/-- The same by a plain reading of the messages of the server. A receive that never ends has passed
over all of them. -/
def recite :
    List Call → List (Except IoFault Unit) → List (Except Error Message) → List (Call × Reply)
  | [], _, _ => []
  | k :: ks, sends, messages =>
    match k.plain sends messages with
    | some (.error e) => [(k, .error e)]
    | some (.ok (a, sends, messages)) => (k, .ok a) :: recite ks sends messages
    | none =>
      match k with
      | .stream _ => []
      | .receive => recite ks sends []

/-- A receive passes over messages that say nothing to it, and so does a call that starts a stream.
-/
theorem quiet_of_waits {a b : Await} {ms : List Message} (waits : b.Waits ms a) (own : b = .frame) :
    a = .frame ∧ Await.copyBoth.Waits ms .copyBoth := by
  induction waits with
  | nil => exact ⟨own, .nil⟩
  | @cons _ b _ m ms goes _ ih =>
    subst own
    obtain ⟨next, quiet⟩ : b = .frame ∧ Await.copyBoth.step m = .wait .copyBoth := by
      cases m <;> simp_all [Await.step, Await.onMessage, onFrame, onCopyBoth, Step.fail]
    obtain ⟨same, rest⟩ := ih next
    exact ⟨same, .cons quiet rest⟩

theorem Call.plain_of_waits {a : Await} {ms : List Message} (waits : Await.frame.Waits ms a)
    (k : Call) (sends : List (Except IoFault Unit)) (messages : List (Except Error Message)) :
    k.plain sends (ms.map .ok ++ messages) = k.plain sends messages := by
  obtain ⟨rfl, quiet⟩ := quiet_of_waits waits rfl
  cases k with
  | stream => simp only [plain, quiet.read_eq]
  | receive => simp only [plain, waits.read_eq]

theorem recite_of_waits {a : Await} {ms : List Message} (waits : Await.frame.Waits ms a)
    (ks : List Call) (sends : List (Except IoFault Unit)) (messages : List (Except Error Message)) :
    recite ks sends (ms.map .ok ++ messages) = recite ks sends messages := by
  cases ks with
  | nil => rfl
  | cons k ks => simp only [recite, k.plain_of_waits waits]

namespace Call

/-- What becomes of a call. -/
inductive Comes (k : Call) (c : Connection Unit) (p : Peer) :
    Option ((Option Reply × Connection Unit) × Peer) → Prop
  | hangs {command} : k = .stream command → k.plain p.sends (ahead c p) = none → Comes k c p none
  | drops {ms a c' p'} : k = .receive → Await.frame.Waits ms a →
      ahead c p = ms.map .ok ++ ahead c' p' →
      p'.sends = p.sends → p'.arrivals <:+ p.arrivals →
      (none ∈ p.arrivals ∧ p'.arrivals.length < p.arrivals.length ∨ ahead c' p' = []) →
      Comes k c p (some ((none, c'), p'))
  | ends {reply : Reply} {c' p'} :
      k.plain p.sends (ahead c p) = some (reply.map (·, p'.sends, ahead c' p')) →
      p'.arrivals <:+ p.arrivals → Comes k c p (some ((some reply, c'), p'))

theorem comes_receive (c : Connection Unit) (p : Peer) :
    Comes .receive c p ((make .receive c).run p) := by
  have comes := Connection.converse_comes gives_poll (a := .frame) rfl c p
  rw [make, StateT.run_bind, Connection.poll, StateT.run_bind]
  generalize (Connection.converse (Network.poll c.socket) .frame c : Meeting _).run p = r at comes ⊢
  cases comes with
  | hangs impatient => cases impatient
  | drops _ waits same sends tail why => exact .drops rfl waits same sends tail why
  | @ends result c' p' reads sends tail =>
    refine .ends ?_ tail
    rw [plain, reads, sends]
    cases result <;> rfl

theorem run_comes (c : Connection Unit) (p : Peer) :
    (∃ result c' p', (c.run .copyBoth : Meeting _).run p = some ((result, c'), p') ∧
      Await.copyBoth.read (ahead c p) = some (result.map (·, ahead c' p')) ∧
      p'.sends = p.sends ∧ p'.arrivals <:+ p.arrivals) ∨
    (c.run .copyBoth : Meeting _).run p = none ∧ Await.copyBoth.read (ahead c p) = none := by
  have comes := Connection.converse_comes gives_receive (a := .copyBoth) rfl c p
  rw [Connection.run, StateT.run_bind]
  generalize
    (Connection.converse (some <$> Network.receive c.socket) .copyBoth c : Meeting _).run p = r
    at comes ⊢
  cases comes with
  | hangs _ never => exact Or.inr ⟨rfl, never⟩
  | drops impatient => cases impatient
  | @ends result c' p' reads sends tail => exact Or.inl ⟨result, c', p', rfl, reads, sends, tail⟩

theorem call_run (c : Connection Unit) (p : Peer) :
    (c.call .copyBoth : Meeting _).run p =
      match p.sends.headD (.ok ()) with
      | .ok _ =>
        ({ c with outbox := [] }.run .copyBoth : Meeting _).run { p with sends := p.sends.tail }
      | .error fault => some ((.error (.io fault), c), { p with sends := p.sends.tail }) := by
  have send : (Network.send c.socket c.outbox : Meeting _).run p =
      some (p.sends.headD (.ok ()), { p with sends := p.sends.tail }) := rfl
  rw [Connection.call, StateT.run_bind, Connection.flush, StateT.run_bind, send]
  cases p.sends.headD (.ok ()) <;> rfl

theorem comes_stream (command : String) (c : Connection Unit) (p : Peer) :
    Comes (.stream command) c p ((make (.stream command) c).run p) := by
  rw [make, StateT.run_bind, Connection.stream, StateT.run_bind, Connection.command]
  cases query : Request.query command with
  | error fault => exact .ends (by simp only [plain, query]; rfl) (List.suffix_refl _)
  | ok bytes =>
    dsimp only
    rw [call_run]
    cases sent : p.sends.headD (.ok ()) with
    | error fault => exact .ends (by simp only [plain, query, sent]; rfl) (List.suffix_refl _)
    | ok =>
      have reads : plain (.stream command) p.sends (ahead c p) =
          (Await.copyBoth.read (ahead c p)).map (·.map fun q => (none, p.sends.tail, q.2)) := by
        simp only [plain, query, sent]
      rcases run_comes { c.write bytes with outbox := [] } { p with sends := p.sends.tail } with
        ⟨result, c', p', ran, ends, sends, tail⟩ | ⟨ran, never⟩
      · change Await.copyBoth.read (ahead c p) = _ at ends
        dsimp only
        rw [ran]
        rw [ends] at reads
        cases result with
        | error e => exact .ends reads tail
        | ok o => exact .ends (reads.trans (by rw [sends]; rfl)) tail
      · change Await.copyBoth.read (ahead c p) = _ at never
        dsimp only
        rw [ran]
        exact .hangs rfl (by rw [reads, never]; rfl)

theorem comes (k : Call) (c : Connection Unit) (p : Peer) : Comes k c p ((k.make c).run p) := by
  cases k with
  | stream command => exact comes_stream command c p
  | receive => exact comes_receive c p

end Call

section Conduct

/-- The calls that end come to what the plain reading gives for them. -/
theorem recite_conduct (ks : List Call) (c : Connection Unit) (p : Peer) :
    recite ((conduct ks c p).map Prod.fst) p.sends (ahead c p) = conduct ks c p := by
  induction ks generalizing c p with
  | nil => rfl
  | cons k ks ih =>
    rw [conduct]
    have comes := k.comes c p
    generalize (k.make c).run p = r at comes ⊢
    cases comes with
    | hangs => rfl
    | drops _ waits same sends =>
      dsimp only
      rw [same, recite_of_waits waits, ← sends, ih]
    | @ends reply c' p' plain =>
      cases reply with
      | error e => simp only [List.map_cons, List.map_nil, recite, plain, Except.map]
      | ok a => simp only [List.map_cons, recite, plain, Except.map, ih]

/-- As long as nothing is dropped, all calls come to what the plain reading gives. -/
theorem conduct_of_ready {p : Peer} (ready : none ∉ p.arrivals) (ks : List Call)
    (c : Connection Unit) : conduct ks c p = recite ks p.sends (ahead c p) := by
  induction ks generalizing c p with
  | nil => rfl
  | cons k ks ih =>
    rw [conduct]
    have comes := k.comes c p
    generalize (k.make c).run p = r at comes ⊢
    cases comes with
    | hangs own never => subst own; simp only [recite, never]
    | @drops ms a c' p' own waits same sends tail why =>
      subst own
      obtain ⟨pause, -⟩ | nothing := why
      · exact absurd pause ready
      · have never : Call.receive.plain p.sends (ahead c p) = none := by
          rw [same, Call.plain_of_waits waits, nothing]
          rfl
        simp only [recite, never]
        rw [ih (fun pause => ready (tail.subset pause)), sends, nothing]
    | @ends reply c' p' plain tail =>
      cases reply with
      | error e => simp only [recite, plain, Except.map]
      | ok a =>
        simp only [recite, plain, Except.map]
        rw [ih fun pause => ready (tail.subset pause)]

/-- The caller makes calls again that were dropped. -/
inductive Again : List Call → List Call → Prop
  | nil : Again [] []
  | next {k ks tries} : Again ks tries → Again (k :: ks) (k :: tries)
  | again {ks tries} : Again (.receive :: ks) tries → Again (.receive :: ks) (.receive :: tries)

theorem Again.refl : (ks : List Call) → Again ks ks
  | [] => .nil
  | _ :: ks => .next (refl ks)

/-- A caller that makes dropped calls again misses nothing. -/
theorem exists_again (ks : List Call) (c : Connection Unit) (p : Peer) :
    ∃ tries, Again ks tries ∧ conduct tries c p = recite ks p.sends (ahead c p) := by
  induction ks generalizing c p with
  | nil => exact ⟨[], .nil, rfl⟩
  | cons k ks ih =>
    -- A call that was dropped has fewer arrivals before it when it is made again.
    induction count : p.arrivals.length using Nat.strongRecOn generalizing c p with
    | _ n retry =>
      have comes := k.comes c p
      cases ran : (k.make c).run p with
      | none =>
        rw [ran] at comes
        cases comes with
        | hangs own never =>
          subst own
          refine ⟨_, .refl _, ?_⟩
          simp only [conduct, ran, recite, never]
      | some made =>
        rw [ran] at comes
        cases comes with
        | @drops ms a c' p' own waits same sends tail why =>
          subst own
          obtain ⟨-, fewer⟩ | nothing := why
          · obtain ⟨tries, again, found⟩ := retry _ (count ▸ fewer) c' p' rfl
            refine ⟨_, .again again, ?_⟩
            simp only [conduct, ran]
            rw [found, same, recite_of_waits waits, sends]
          · obtain ⟨tries, again, found⟩ := ih c' p'
            refine ⟨_, .next again, ?_⟩
            have never : Call.receive.plain p.sends (ahead c p) = none := by
              rw [same, Call.plain_of_waits waits, nothing]
              rfl
            simp only [conduct, ran, recite, never]
            rw [found, nothing, sends]
        | @ends reply c' p' plain tail =>
          cases reply with
          | error e =>
            refine ⟨_, .refl _, ?_⟩
            simp only [conduct, ran, recite, plain, Except.map]
          | ok a =>
            obtain ⟨tries, again, found⟩ := ih c' p'
            refine ⟨_, .next again, ?_⟩
            simp only [conduct, ran, recite, plain, Except.map, found]

end Conduct

/-- What a receive makes of a message that it comes to, or of the end; nothing of messages that it
passes over. -/
def shown : Except Error Message → Option (Except Error Frame)
  | .error e => some (.error e)
  | .ok (.notice _) | .ok .parameterStatus => none
  | .ok (.copyData bytes) => some (.ok (.copyData bytes))
  | .ok (.error fields) => some (.error (.server (errorText fields)))
  | .ok .copyBoth => some (.error (.protocol .unexpectedCopyBoth))
  | .ok .copyDone => some (.ok (.unexpected "CopyDone"))
  | .ok _ => some (.ok (.unexpected "non-CopyData message"))

/-- The items up to the first failure, which is the last of them. -/
def upToFailure {α : Type} : List (Except Error α) → List (Except Error α)
  | [] => []
  | .error e :: _ => [.error e]
  | .ok a :: rest => .ok a :: upToFailure rest

theorem delivered_eq (messages : List (Except Error Message)) :
    upToFailure (messages.filterMap shown) =
      match Await.frame.read messages with
      | none => []
      | some (.error e) => [.error e]
      | some (.ok (o, rest)) =>
        Connection.asFrame (.ok o) :: upToFailure (rest.filterMap shown) := by
  induction messages with
  | nil => rfl
  | cons m messages ih =>
    rcases m with e | m
    · rfl
    · cases m with
      | notice | parameterStatus => exact ih
      | _ => rfl

/-- Receives alone deliver what there is to be delivered, in order. -/
theorem recite_receives (n : Nat) (sends : List (Except IoFault Unit))
    (messages : List (Except Error Message)) :
    (recite (List.replicate n .receive) sends messages).map Prod.snd =
      ((upToFailure (messages.filterMap shown)).take n).map (·.map some) := by
  induction n generalizing messages with
  | zero => rfl
  | succ n ih =>
    rw [List.replicate_succ, delivered_eq]
    cases read : Await.frame.read messages with
    | none =>
      have plain : Call.receive.plain sends messages = none := by rw [Call.plain, read]; rfl
      simp only [recite, plain, ih, List.filterMap_nil, upToFailure, List.take_nil]
    | some r =>
      rcases r with e | ⟨o, rest⟩
      · have plain : Call.receive.plain sends messages = some (.error e) := by
          rw [Call.plain, read]
          rfl
        simp only [recite, plain, List.take_succ_cons, List.take_nil]
        rfl
      · obtain ⟨frame, shows⟩ : ∃ frame, Connection.asFrame (.ok o) = .ok frame := ⟨_, rfl⟩
        have plain : Call.receive.plain sends messages = some (.ok (some frame, sends, rest)) := by
          rw [Call.plain, read, Option.map_some, Except.bind, shows]
          rfl
        simp only [recite, plain, List.map_cons, ih, shows]
        rfl

theorem answered_sublist (ks : List Call) (c : Connection Unit) (p : Peer) :
    ((conduct ks c p).map Prod.fst).Sublist ks := by
  induction ks generalizing c p with
  | nil => exact List.Sublist.refl _
  | cons k ks ih =>
    rw [conduct]
    split
    · exact List.nil_sublist _
    · exact (ih _ _).cons k
    · exact List.cons_sublist_cons.mpr (List.nil_sublist _)
    · exact List.cons_sublist_cons.mpr (ih _ _)

theorem conduct_receives {ks : List Call} (receives : ∀ k ∈ ks, k = .receive) (c : Connection Unit)
    (p : Peer) :
    (conduct ks c p).map Prod.snd = ((upToFailure ((ahead c p).filterMap shown)).take
      (conduct ks c p).length).map (·.map some) := by
  have same : (conduct ks c p).map Prod.fst = List.replicate (conduct ks c p).length .receive :=
    List.eq_replicate_iff.mpr ⟨List.length_map .., fun k member =>
      receives k ((answered_sublist ks c p).subset member)⟩
  conv_lhs => rw [← recite_conduct, same]
  exact recite_receives ..

theorem recovery_read_ne_ok (refusal : String) (messages : List (Except Error Message))
    (r : Outcome × List (Except Error Message)) :
    (Await.recovery refusal).read messages ≠ some (.ok r) := by
  induction messages with
  | nil => simp [Await.read]
  | cons m messages ih =>
    rcases m with e | m
    · simp [Await.read, Await.fail, Except.map]
    · cases m <;> first
        | exact ih
        | simp [Await.read, Await.step, Await.onMessage, onRecovery, Await.fail, Step.fail, Except.map]

/-- A stream starts at the first message that says so, unless the server refuses or fails before. -/
theorem copyBoth_read_eq_ok {messages after : List (Except Error Message)} {o : Outcome} :
    Await.copyBoth.read messages = some (.ok (o, after)) ↔
      o = .streaming ∧ ∃ before : List Message, messages = before.map .ok ++ .ok .copyBoth :: after ∧
        ∀ m ∈ before, m ≠ .copyBoth ∧ ∀ fields, m ≠ .error fields := by
  constructor
  · intro read
    induction messages with
    | nil => cases read
    | cons m messages ih =>
      rcases m with e | m
      · cases read
      · cases m with
        | copyBoth => cases read; exact ⟨rfl, [], rfl, by simp⟩
        | error fields => exact absurd read (recovery_read_ne_ok _ _ _)
        | _ =>
          obtain ⟨own, before, rfl, others⟩ := ih read
          exact ⟨own, _ :: before, rfl, by simpa using others⟩
  · rintro ⟨rfl, before, rfl, others⟩
    induction before with
    | nil => rfl
    | cons m before ih =>
      have rest := ih fun n member => others n (List.mem_cons_of_mem _ member)
      obtain ⟨other, fine⟩ := others m List.mem_cons_self
      cases m with
      | copyBoth => exact absurd rfl other
      | error fields => exact absurd rfl (fine fields)
      | _ => exact rest

/-- Where all bytes are there at once, the same messages are ahead. -/
theorem ahead_whole (c : Connection Unit) (p : Peer) :
    ahead { c with inbox := c.inbox ++ Peer.bytes p.arrivals }
      { p with arrivals := Peer.lastArrival p.arrivals } = ahead c p := by
  rw [ahead, Peer.bytes_lastArrival, List.append_nil, Peer.ending?_lastArrival]
  rfl

/-- The bytes that arrive from a server, and those that wait for its call, may be cut anywhere, and
receives may be dropped wherever they wait. The calls that come to an end, up to the first failure,
come to the same as with all bytes in the inbox at once; without drops, and for a caller that makes
dropped calls again, they are the same calls. They come to what a plain reading of the server's
messages gives: receives deliver its frames in order, each once, and pass over notices and settings;
as many as are made deliver as many, as long as there are some.
The messages are those of whole frames from one end of a frame to the next, whatever is in their
bodies; only a whole frame with its tag starts a stream; and in the middle of a frame there is
nothing but the end of what the server sends. -/
theorem conduct_whole (calls : List Call) (c : Connection Unit) (p : Peer) :
    let answered := conduct calls c p
    let whole : Connection Unit := { c with inbox := c.inbox ++ Peer.bytes p.arrivals }
    let rest : Peer := { p with arrivals := Peer.lastArrival p.arrivals }
    conduct (answered.map Prod.fst) whole rest = answered ∧
      (none ∉ p.arrivals → conduct calls whole rest = answered) ∧
      (∃ tries, Again calls tries ∧ conduct tries c p = conduct calls whole rest) ∧
      conduct calls whole rest = recite calls p.sends (ahead c p) ∧
      (∀ n, (conduct (List.replicate n .receive) whole rest).map Prod.snd =
        ((upToFailure ((ahead c p).filterMap shown)).take n).map (·.map some)) ∧
      recite (answered.map Prod.fst) p.sends (ahead c p) = answered ∧
      ((∀ k ∈ calls, k = .receive) → answered.map Prod.snd =
        ((upToFailure ((ahead c p).filterMap shown)).take answered.length).map (·.map some)) ∧
      (∀ messages o after, Await.copyBoth.read messages = some (.ok (o, after)) ↔
        o = .streaming ∧ ∃ before : List Message, messages = before.map .ok ++ .ok .copyBoth :: after ∧
          ∀ m ∈ before, m ≠ .copyBoth ∧ ∀ fields, m ≠ .error fields) ∧
      (∀ bytes tag, message (UInt8.ofNat 'd'.toNat) bytes = .ok (.copyData bytes) ∧
        (message tag bytes = .ok .copyBoth ↔ tag = copyBothTag)) ∧
      ∀ (frames : List (Char × Bytes)) (messages : List Message) (tag : Char) (bytes : Bytes) (n : Nat) ending?,
        List.Forall₂ (fun f m => f.2.length + 4 < 2 ^ 31 ∧ message (UInt8.ofNat f.1.toNat) f.2 = .ok m)
          frames messages →
        bytes.length + 4 < 2 ^ 31 → n < (Request.frame tag bytes).length →
        script ((frames.map fun f => Request.frame f.1 f.2).flatten ++ (Request.frame tag bytes).take n)
          ending? = messages.map .ok ++ (ending?.map fun e => .error (endingError e)).toList := by
  intro answered whole rest
  have same : ahead whole rest = ahead c p := ahead_whole c p
  have ready : none ∉ rest.arrivals := Peer.none_notMem_lastArrival p.arrivals
  have atOnce (ks : List Call) : conduct ks whole rest = recite ks p.sends (ahead c p) := by
    rw [conduct_of_ready ready, same]
  refine ⟨?_, fun drops => ?_, ?_, atOnce calls, fun n => ?_, recite_conduct .., fun receives => conduct_receives receives c p,
    fun _ _ _ => copyBoth_read_eq_ok, fun bytes tag => ⟨rfl, message_eq_copyBoth⟩,
    fun _ _ _ _ _ _ whole range cut => script_frames whole range cut⟩
  · rw [atOnce]
    exact recite_conduct ..
  · rw [atOnce, ← conduct_of_ready drops]
  · obtain ⟨tries, again, found⟩ := exists_again calls c p
    exact ⟨tries, again, found.trans (atOnce calls).symm⟩
  · rw [atOnce]
    exact recite_receives n p.sends (ahead c p)

end ChangeFeed.Session
