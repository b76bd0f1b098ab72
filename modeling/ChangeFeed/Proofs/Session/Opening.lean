import ChangeFeed.Connections
import ChangeFeed.Proofs.Session.Answers
import ChangeFeed.Proofs.Session.Handshake

/-!
Opening a replication connection. Main statement: a server that can be reached lets the client in
exactly when what it says begins with a handshake; in all other cases in which opening ends it fails as
a connection does and changes nothing.
-/
namespace ChangeFeed.Session

open Wire

structure Host.Reachable (h : Host) : Prop where
  reach : h.reach = .ok ()
  hears : h.Hears

/-- A connection over which nothing has gone yet. -/
def blank : Connection Unit := ⟨(), [], [], false, false⟩

/-- What becomes of a login. -/
inductive LogsIn (l : Login) (h : Host) : Option (Except Error (Connection Unit) × Host) → Prop
  | hangs : (Await.loginRequest l).read h.speech = none → LogsIn l h none
  | fails {e h'} : (Utters h.heard [] → Utters h'.heard []) →
      ((∃ packet, Request.startup l.params = .ok packet) → h.Hears →
        ∃ e', (Await.loginRequest l).read h.speech = some (.error e')) →
      LogsIn l h (some (.error e, h'))
  | opens {ms c h'} : Handshake l ms → h.speech = ms.map .ok ++ ahead c h'.peer → c.outbox = [] →
      Onward [] blank h c h' → LogsIn l h (some (.ok c, h'))

/-- What becomes of an attempt to connect: it does not get as far as a login, or it is one, and says
where it has failed. -/
inductive Connects (conninfo : String) (limit : Nat) (h : Host) :
    Option (Except Error (Connection Unit) × Host) → Prop
  | refused {e} : e.kind = .connection →
      (∀ a, Address.ofString conninfo limit h.seed = .ok a → h.reach ≠ .ok ()) →
      Connects conninfo limit h (some (.error e, h))
  | reached {a r} : Address.ofString conninfo limit h.seed = .ok a → LogsIn a.login h r →
      Connects conninfo limit h
        (r.map fun r => (r.1.mapError (Connection.addressed a.host a.port), r.2))

section Opening

variable {conninfo : String} {limit : Nat} {seed : String} {a : Address} {l : Login} {h : Host}
  {c : Connection Unit} {e : Error} {asked : List String}

theorem told_blank (heard : Utters h.heard asked) : Told blank h asked :=
  ⟨asked, [], heard, .nil, List.append_nil asked⟩

theorem Onward.quiet {h' : Host} (onward : Onward [] blank h c h') (silent : Utters h.heard []) :
    Utters h'.heard [] := by
  obtain ⟨said, nothing, heard⟩ := (onward.told [] (told_blank silent)).begun
  rwa [List.prefix_nil.mp nothing] at heard

theorem login_run (l : Login) (h : Host) : LogsIn l h ((Connection.login l () : Visit _).run h) := by
  rw [Connection.login]
  cases packet : Request.startup l.params with
  | error fault =>
    refine .fails id ?_
    rintro ⟨bytes, written⟩
    rw [packet] at written
    cases written
  | ok bytes =>
    have silent : Utters bytes [] := by simpa using Utters.startup packet .nil
    have begins : Onward [] blank h (blank.write bytes) h := .write silent blank h
    have calls := call_calls (.loginRequest l) (blank.write bytes) h
    have run : (do
        let (result, c) ← (blank.write bytes).call (.loginRequest l)
        return result.map fun _ => c : Visit (Except Error (Connection Unit))).run h =
          (((blank.write bytes).call (.loginRequest l) : Visit _).run h).map fun r =>
            (r.1.1.map fun _ => r.1.2, r.2) := by
      rw [StateT.run_bind]
      cases ((blank.write bytes).call (.loginRequest l) : Visit _).run h <;> rfl
    refine run ▸ ?_
    generalize ((blank.write bytes).call (.loginRequest l) : Visit _).run h = r at calls
    cases calls with
    | hangs never => exact .hangs never
    | @ends result c h' reads sent onward =>
      cases result with
      | error e => exact .fails (begins.trans onward).quiet fun _ _ => ⟨e, reads⟩
      | ok o =>
        obtain ⟨ms, handshake, speech⟩ := handshake_of_read reads
        exact .opens handshake speech sent (begins.trans onward)
    | @unsent fault e c h' failed onward =>
      exact .fails (begins.trans onward).quiet fun _ hears => absurd failed (hears fault)

theorem kind_of_address (refused : Address.ofString conninfo limit seed = .error e) :
    e.kind = .connection := by
  unfold Address.ofString at refused
  cases target : Conninfo.Target.ofString (Conninfo.stripReplication conninfo) with
  | error fault => rw [target] at refused; cases refused; rfl
  | ok t =>
    rw [target] at refused
    replace refused : Address.ofTarget t limit seed = .error e := refused
    unfold Address.ofTarget at refused
    cases user : t.user with
    | none => rw [user] at refused; cases refused; rfl
    | some user' =>
      rw [user] at refused
      cases hosts : t.hosts.head? with
      | none => rw [hosts] at refused; cases refused
      | some host =>
        rw [hosts] at refused
        cases host <;> cases refused
        rfl

theorem kind_addressed (host : String) (port : Nat) (e : Error) :
    (Connection.addressed host port e).kind = .connection := by
  cases e <;> rfl

theorem connect_run (conninfo : String) (limit : Nat) (h : Host) :
    Connects conninfo limit h ((Connection.connect conninfo limit : Visit _).run h) := by
  have nonce : (Network.nonce : Visit String).run h = some (h.seed, h) := rfl
  have dial (a : Address) : (Network.dial a.host a.port a.limit : Visit (Except DialFault Unit)).run h =
      some (h.reach, h) := rfl
  rw [Connection.connect, StateT.run_bind, nonce]
  dsimp only [Option.bind_eq_bind, Option.bind_some]
  cases address : Address.ofString conninfo limit h.seed with
  | error e =>
    refine .refused (kind_of_address address) fun a known => ?_
    rw [address] at known
    cases known
  | ok a =>
    dsimp only
    rw [StateT.run_bind, dial]
    dsimp only [Option.bind_eq_bind, Option.bind_some]
    cases reach : h.reach with
    | error fault =>
      have unreachable : h.reach ≠ .ok () := by rw [reach]; nofun
      cases fault <;> exact .refused rfl fun _ _ => unreachable
    | ok =>
      have reached := Connects.reached address (login_run a.login h)
      dsimp only
      rw [StateT.run_bind]
      cases run : (Connection.login a.login () : Visit _).run h with
      | none => rw [run] at reached; exact reached
      | some r =>
        obtain ⟨result, h'⟩ := r
        rw [run] at reached
        cases result <;> exact reached

theorem connect_returns (ends : Peer.ending? h.peer.arrivals ≠ none) (conninfo : String) (limit : Nat) :
    ((Connection.connect conninfo limit : Visit _).run h).isSome := by
  have connects := connect_run conninfo limit h
  generalize (Connection.connect conninfo limit : Visit _).run h = r at connects
  cases connects with
  | refused => rfl
  | @reached a _ _ logs =>
    cases logs with
    | hangs never =>
      obtain ⟨ending, known⟩ := Option.ne_none_iff_exists'.mp ends
      obtain ⟨e, stops⟩ := script_stops (Peer.bytes h.peer.arrivals) ending
      have comes := Await.read_isSome stops (.loginRequest a.login)
      rw [← known] at comes
      rw [Host.speech] at never
      rw [never] at comes
      cases comes
    | fails | opens => rfl

/-- A server that lets the client in. -/
theorem connect_of_handshake {ms : List Message} {rest : List (Except Error Message)}
    (address : Address.ofString conninfo limit h.seed = .ok a)
    (writable : ∃ packet, Request.startup a.login.params = .ok packet) (reachable : h.Reachable)
    (handshake : Handshake a.login ms) (speech : h.speech = ms.map .ok ++ rest) :
    ∃ c h', (Connection.connect conninfo limit : Visit _).run h = some (.ok c, h') := by
  have reads := handshake.read_eq rest
  rw [← speech] at reads
  have connects := connect_run conninfo limit h
  generalize (Connection.connect conninfo limit : Visit _).run h = r at connects
  cases connects with
  | refused _ unreachable => exact absurd reachable.reach (unreachable a address)
  | @reached a' r known logs =>
    rw [address] at known
    cases known
    cases logs with
    | hangs never => rw [reads] at never; cases never
    | fails _ why =>
      obtain ⟨e', failed⟩ := why writable reachable.hears
      rw [reads] at failed
      cases failed
    | opens => exact ⟨_, _, rfl⟩

end Opening

/-- What an attempt to open a replication connection comes to: success after a handshake, of which
nothing is left to be read, or a failure that changes nothing. -/
inductive Opened {κ : Type} (c : Connections κ (Connection Unit)) (conninfo : String) (limit : Nat)
    (h : Host) : (Except Error Unit × Connections κ (Connection Unit)) × Host → Prop
  | admits {a ms r h'} : Address.ofString conninfo limit h.seed = .ok a → Handshake a.login ms →
      h.speech = ms.map .ok ++ ahead r h'.peer →
      Opened c conninfo limit h ((.ok (), { c with replication := some r }), h')
  | fails {e h'} : e.kind = .connection → Opened c conninfo limit h ((.error e, c), h')

/-- Which servers let a client in. -/
structure Admission {κ : Type} (c : Connections κ (Connection Unit)) (conninfo : String) (limit : Nat)
    (h : Host) (opened : Option ((Except Error Unit × Connections κ (Connection Unit)) × Host)) : Prop where
  ends : ∀ r ∈ opened, Opened c conninfo limit h r
  /-- A server that can be reached does so exactly when it begins with a handshake. -/
  opens : ∀ a, Address.ofString conninfo limit h.seed = .ok a →
    (∃ packet, Request.startup a.login.params = .ok packet) → h.Reachable →
    ((∃ c' h', opened = some ((.ok (), c'), h')) ↔
      ∃ ms rest, Handshake a.login ms ∧ h.speech = ms.map .ok ++ rest)
  /-- The attempt does not outlast the server. -/
  returns : Peer.ending? h.peer.arrivals ≠ none → opened.isSome

section Admission

variable {κ : Type}

theorem openReplication_run (c : Connections κ (Connection Unit)) (conninfo : String) (limit : Nat)
    (h : Host) :
    (c.openReplication conninfo limit : Visit _).run h =
      ((Connection.connect conninfo limit : Visit _).run h).map fun r =>
        match r.1 with
        | .error e => ((.error e, c), r.2)
        | .ok opened => ((.ok (), { c with replication := some opened }), r.2) := by
  rw [Connections.openReplication, StateT.run_bind]
  cases (Connection.connect conninfo limit : Visit _).run h with
  | none => rfl
  | some r =>
    obtain ⟨result, h'⟩ := r
    cases result with
    | error e => rfl
    | ok opened =>
      obtain ⟨control, replication⟩ := c
      cases replication <;> rfl

theorem openReplication_opened {c : Connections κ (Connection Unit)} {conninfo : String} {limit : Nat}
    {h : Host} {r : (Except Error Unit × Connections κ (Connection Unit)) × Host}
    (run : (c.openReplication conninfo limit : Visit _).run h = some r) : Opened c conninfo limit h r := by
  rw [openReplication_run] at run
  have connects := connect_run conninfo limit h
  generalize (Connection.connect conninfo limit : Visit _).run h = connected at connects run
  cases connects with
  | refused kind => cases run; exact .fails kind
  | reached address logs =>
    cases logs with
    | hangs => cases run
    | fails => cases run; exact .fails (kind_addressed ..)
    | opens handshake speech => cases run; exact .admits address handshake speech

/-- Whatever a server says, it lets the client in exactly when it begins with a handshake; otherwise
opening fails as a connection does, also where the server closes its side, and changes nothing. -/
theorem opens_iff_handshake (c : Connections κ (Connection Unit)) (conninfo : String) (limit : Nat)
    (h : Host) : Admission c conninfo limit h ((c.openReplication conninfo limit : Visit _).run h) where
  ends _ run := openReplication_opened run
  opens a address writable reachable := by
    constructor
    · rintro ⟨c', h', run⟩
      cases openReplication_opened run with
      | admits known handshake speech =>
        rw [address] at known
        cases known
        exact ⟨_, _, handshake, speech⟩
    · rintro ⟨ms, rest, handshake, speech⟩
      obtain ⟨r, h', run⟩ := connect_of_handshake address writable reachable handshake speech
      rw [openReplication_run, run]
      exact ⟨_, _, rfl⟩
  returns stops := by
    rw [openReplication_run, Option.isSome_map]
    exact connect_returns stops conninfo limit

/-- A server that can be reached and sends some frames. -/
def Host.sending (frames : List (Char × Bytes)) : Host :=
  ⟨.ok (), "", 0, ⟨[some (.ok (some (frameBytes frames)))], []⟩, []⟩

theorem reachable_sending (frames : List (Char × Bytes)) : (Host.sending frames).Reachable :=
  ⟨rfl, fun _ => List.not_mem_nil⟩

theorem speech_sending {frames : List (Char × Bytes)} {messages : List Message}
    (whole : Means frames messages) : (Host.sending frames).speech = messages.map .ok := by
  have said : script (frameBytes frames ++ (Request.frame 'Z' []).take 0) none = messages.map .ok ++ [] :=
    script_frames whole (by decide) (by decide)
  simpa [Host.speech, Host.sending, Peer.bytes, Peer.ending?] using said

def cleartextFrames : List (Char × Bytes) :=
  [('R', [0, 0, 0, 3]), ('R', [0, 0, 0, 0]), ('Z', [0x49])]

/-- A server that asks for the password and accepts it. -/
theorem opens_after_cleartext : ∃ c' h',
    ((Connections.empty : Connections Unit (Connection Unit)).openReplication
      "host=db user=feed password=secret" 5 : Visit _).run (.sending cleartextFrames) =
      some ((.ok (), c'), h') := by
  have address : Address.ofString "host=db user=feed password=secret" 5 "" =
      .ok ⟨"db", 5432, 5, ⟨"feed", "feed", some (Bytes.ofString "secret"), none, "", 0⟩⟩ := by
    decide +kernel
  have speech : (Host.sending cleartextFrames).speech =
      [Message.cleartextRequest, .loginAccepted, .ready].map .ok :=
    speech_sending (by unfold Means; decide +kernel)
  have asking : Asking ⟨"feed", "feed", some (Bytes.ofString "secret"), none, "", 0⟩
      [Message.cleartextRequest] :=
    .cons (.cleartext rfl (by decide +kernel)) .nil
  refine ((opens_iff_handshake .empty _ 5 (.sending cleartextFrames)).opens _ address
    (exists_of_isOk (by decide +kernel)) (reachable_sending _)).mpr ⟨_, [], .plain asking, ?_⟩
  exact speech.trans (List.append_nil _).symm

def digestFrames : List (Char × Bytes) :=
  [('R', [0, 0, 0, 5, 1, 2, 3, 4]), ('R', [0, 0, 0, 0]), ('Z', [0x49])]

/-- A password with a zero byte does not keep a client from answering every request: of a digest
nobody sees what it was made from. -/
theorem not_free_of_opens : ¬ ∀ (conninfo : String) (limit : Nat) (h : Host) (a : Address),
    Address.ofString conninfo limit h.seed = .ok a →
    (∃ packet, Request.startup a.login.params = .ok packet) → h.Reachable →
    ((∃ c h', (Connection.connect conninfo limit : Visit _).run h = some (.ok c, h')) ↔
      ∃ requests settings rest, Asking a.login requests ∧ (∀ m ∈ settings, Message.passes m) ∧
        (requests ≠ [] → ∃ password, a.login.password = some password ∧ 0 ∉ password) ∧
        h.speech = (requests ++ Message.loginAccepted :: settings ++ [Message.ready]).map .ok ++ rest) := by
  intro always
  have address : Address.ofString "host=db user=feed password=a\x00b" 5 "" =
      .ok ⟨"db", 5432, 5, ⟨"feed", "feed", some [0x61, 0, 0x62], none, "", 0⟩⟩ := by
    decide +kernel
  have speech : (Host.sending digestFrames).speech =
      [Message.md5Request [1, 2, 3, 4], .loginAccepted, .ready].map .ok :=
    speech_sending (by unfold Means; decide +kernel)
  have asking : Asking ⟨"feed", "feed", some [0x61, 0, 0x62], none, "", 0⟩
      [Message.md5Request [1, 2, 3, 4]] :=
    .cons (.digest rfl) .nil
  have writable : ∃ packet, Request.startup (Login.params
      ⟨"feed", "feed", some [0x61, 0, 0x62], none, "", 0⟩) = .ok packet :=
    exists_of_isOk (by decide +kernel)
  have reachable := reachable_sending digestFrames
  have opens := connect_of_handshake (h := .sending digestFrames) address writable reachable
    (.plain asking) (speech.trans (List.append_nil _).symm)
  obtain ⟨requests, settings, rest, -, -, free, said⟩ :=
    (always _ 5 (.sending digestFrames) _ address writable reachable).mp opens
  have asked : requests ≠ [] := by
    rintro rfl
    rw [speech] at said
    cases said
  obtain ⟨password, known, none⟩ := free asked
  cases known
  exact none (by decide)

end Admission

end ChangeFeed.Session
