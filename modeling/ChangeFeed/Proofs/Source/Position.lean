import ChangeFeed.Proofs.Session.Identifying
import ChangeFeed.Proofs.Session.StartCommand
import ChangeFeed.Source

/-!
Where a capture starts. Main statement: a server is asked to stream at most once, and only after it has
told without an error who it is; the position in that command is the checkpoint's own, or the server's
where the checkpoint has none, and a capture that starts has it as the start of its stream and as the
position that is committed.
-/
namespace ChangeFeed.Session

open Wire

/-- A server lets the client in, answers the first question with these messages, without an error, and
then sends others. -/
structure Replies (config : SourceConfig) (h : Host) (body : List Message)
    (rest : List (Except Error Message)) : Prop where
  reachable : h.Reachable
  answers : Answers body
  admits : ∃ a ms, Address.ofString config.replicationTarget config.connectTimeout h.seed = .ok a ∧
    (∃ packet, Request.startup a.login.params = .ok packet) ∧ Handshake a.login ms ∧
    h.speech = (ms ++ body ++ [Message.ready]).map .ok ++ rest

/-- A server lets the client in and tells who it is. -/
def Knows (config : SourceConfig) (h : Host) (server : Identity) : Prop :=
  ∃ a ms items rest, Address.ofString config.replicationTarget config.connectTimeout h.seed = .ok a ∧
    Handshake a.login ms ∧ h.speech = ms.map .ok ++ items ∧ Identifies items server rest

/-- A connection over which nothing is streamed, with the commands given over it; without one, no
command has been heard. -/
def Idle (c : Connections Unit (Connection Unit)) (h : Host) (asked : List String) : Prop :=
  match c.replication with
  | some r => r.streaming = false ∧ Told r h asked
  | none => Utters h.heard []

/-- What becomes of opening a stream, and what a server that replies has left out then. -/
inductive OpensStream (config : SourceConfig) (checkpoint : Checkpoint) (h : Host) :
    Option ((Except Error Stream × Connections Unit (Connection Unit)) × Host) → Prop
  | hangs : (∀ body rest, Replies config h body rest →
      (∃ server, Identity.ofRows (answerRows body) = .ok server) ∧ ¬ Grants rest) →
      OpensStream config checkpoint h none
  | unknown {e c h'} : Idle c h' [identifyCommand] →
      (∀ body rest, Replies config h body rest → Identity.ofRows (answerRows body) = .error e) →
      OpensStream config checkpoint h (some ((.error e, c), h'))
  | fails {server said e c h'} : Knows config h server →
      said <+: [startCommand config.slot (startPosition checkpoint server.position)] →
      Idle c h' ([identifyCommand] ++ said) →
      (∀ body rest, '\x00' ∉ config.slot.toList → Replies config h body rest → ¬ Grants rest) →
      OpensStream config checkpoint h (some ((.error e, c), h'))
  | streams {server c h'} : Knows config h server →
      Utters h'.heard [identifyCommand, startCommand config.slot (startPosition checkpoint server.position)] →
      OpensStream config checkpoint h
        (some ((.ok ⟨config.slot, startPosition checkpoint server.position, server⟩, c), h'))

section Opening

variable {config : SourceConfig} {h h' : Host} {body : List Message} {server : Identity}
  {c : Connections Unit (Connection Unit)} {asked : List String} {rest : List (Except Error Message)}

theorem Identifies.unique {items more : List (Except Error Message)}
    (identifies : Identifies items server rest) (answers : Answers body)
    (said : items = (body ++ [Message.ready]).map .ok ++ more) :
    Identity.ofRows (answerRows body) = .ok server ∧ more = rest := by
  obtain ⟨body', row, answers', said', first, tells⟩ := identifies
  have same := answers'.read_eq rest
  rw [← said', said, answers.read_eq] at same
  obtain ⟨rows, left⟩ : answerRows body = answerRows body' ∧ more = rest := by simpa using same
  rw [rows]
  exact ⟨ofRows_eq_ok.mpr ⟨row, first, tells⟩, left⟩

/-- A login reads nothing of the answer that follows it. -/
theorem Replies.read_eq (replies : Replies config h body rest) {a : Address}
    (address : Address.ofString config.replicationTarget config.connectTimeout h.seed = .ok a) :
    (Await.loginRequest a.login).read h.speech =
      some (.ok (.loggedIn, (body ++ [Message.ready]).map .ok ++ rest)) := by
  obtain ⟨a', ms, address', -, handshake, speech⟩ := replies.admits
  rw [address] at address'
  cases address'
  rw [List.append_assoc, List.map_append, List.append_assoc] at speech
  rw [speech, handshake.read_eq]

theorem Replies.items_eq (replies : Replies config h body rest) {a : Address} {ms : List Message}
    {items : List (Except Error Message)}
    (address : Address.ofString config.replicationTarget config.connectTimeout h.seed = .ok a)
    (handshake : Handshake a.login ms) (speech : h.speech = ms.map .ok ++ items) :
    items = (body ++ [Message.ready]).map .ok ++ rest := by
  have reads := replies.read_eq address
  rw [speech, handshake.read_eq] at reads
  simpa using reads

theorem Knows.ofRows (knows : Knows config h server) (replies : Replies config h body rest) :
    Identity.ofRows (answerRows body) = .ok server := by
  obtain ⟨a, ms, items, more, address, handshake, speech, identifies⟩ := knows
  exact (identifies.unique replies.answers (replies.items_eq address handshake speech)).1

theorem idle_of_onward {r r' : Connection Unit} {said : List String} (idle : r.streaming = false)
    (onward : Onward said r h r' h') (told : Told r h asked) (k : Option Unit) :
    Idle ⟨k, some r'⟩ h' (asked ++ said) :=
  ⟨onward.streaming.trans idle, onward.told asked told⟩

/-- A client that has been let in has asked for nothing yet, and what becomes of its start becomes of the
stream. -/
theorem Starts.opensStream {checkpoint : Checkpoint} {a : Address} {ms : List Message} {r : Connection Unit}
    {started : Option ((Except Error Stream × Connection Unit) × Host)} (silent : Utters h.heard [])
    (address : Address.ofString config.replicationTarget config.connectTimeout h.seed = .ok a)
    (handshake : Handshake a.login ms) (speech : h.speech = ms.map .ok ++ ahead r h'.peer)
    (onward : Onward [] blank h r h') (starts : Starts config.slot checkpoint r h' started)
    (k : Option Unit) :
    OpensStream config checkpoint h (started.map fun p => ((p.1.1, ⟨k, some p.1.2⟩), p.2)) := by
  have idle : r.streaming = false := onward.streaming
  have told : Told r h' [] := onward.told [] (told_blank silent)
  cases starts with
  | hangs why =>
    refine .hangs fun body rest replies => ?_
    have said := replies.items_eq address handshake speech
    obtain never | ⟨server, more, identifies, ungranted⟩ := why
    · rw [said, replies.answers.read_eq] at never
      cases never
    · obtain ⟨known, rfl⟩ := identifies.unique replies.answers said
      exact ⟨⟨server, known⟩, ungranted⟩
  | unknown later why =>
    exact .unknown (idle_of_onward idle later told _) fun body rest replies =>
      why body rest (onward.hears replies.reachable.hears) replies.answers
        (replies.items_eq address handshake speech)
  | fails identifies first later why =>
    refine .fails ⟨a, ms, _, _, address, handshake, speech, identifies⟩ first
      (idle_of_onward idle later told _) fun body rest free replies => ?_
    obtain ⟨-, rfl⟩ := identifies.unique replies.answers (replies.items_eq address handshake speech)
    exact why free (onward.hears replies.reachable.hears)
  | streams identifies sent later =>
    exact .streams ⟨a, ms, _, _, address, handshake, speech, identifies⟩ ((later.told [] told).heard sent)

theorem openStream_run (config : SourceConfig) (checkpoint : Checkpoint) (left : c.replication = none)
    (fresh : h.heard = []) :
    OpensStream config checkpoint h ((Source.openStream config c checkpoint : Visit _).run h) := by
  have silent : Utters h.heard [] := fresh ▸ .nil
  have connects := connect_run config.replicationTarget config.connectTimeout h
  rw [Source.openStream, StateT.run_bind, openReplication_run]
  generalize (Connection.connect config.replicationTarget config.connectTimeout : Visit _).run h = r at connects
  cases connects with
  | refused kind unreachable =>
    refine .unknown ?_ fun body rest replies => ?_
    · rw [Idle, left]
      exact silent
    · obtain ⟨a, -, address, -⟩ := replies.admits
      exact absurd replies.reachable.reach (unreachable a address)
  | @reached a r address logs =>
    cases logs with
    | hangs never =>
      refine .hangs fun body rest replies => ?_
      rw [replies.read_eq address] at never
      cases never
    | fails quiet why =>
      refine .unknown ?_ fun body rest replies => ?_
      · rw [Idle, left]
        exact quiet silent
      · obtain ⟨a', -, address', writable, -⟩ := replies.admits
        rw [address] at address'
        cases address'
        obtain ⟨e', failed⟩ := why writable replies.reachable.hears
        rw [replies.read_eq address] at failed
        cases failed
    | @opens ms r h' handshake speech sent onward =>
      have opens := (start_run onward.streaming h' config.slot checkpoint).opensStream silent address
        handshake speech onward c.control
      dsimp only [Option.map_some, Option.bind_eq_bind, Option.bind_some, Except.mapError]
      rw [StateT.run_bind]
      generalize (r.start config.slot checkpoint : Visit _).run h' = started at opens ⊢
      cases started <;> exact opens

/-- Closing a connection over which nothing is streamed gives no command that was not given before. -/
theorem close_run {r : Connection Unit} (idle : r.streaming = false) (told : Told r h asked) :
    ∃ result h' said, (r.close : Visit _).run h = some (result, h') ∧ said <+: asked ∧
      Utters h'.heard said := by
  rw [Connection.close, idle]
  cases r.closed with
  | true =>
    obtain ⟨said, first, heard⟩ := told.begun
    exact ⟨_, h, said, rfl, first, heard⟩
  | false =>
    have silent : Utters Request.terminate [] := by
      have goodbye : Utters (Request.frame 'X' [] ++ []) [] := .frame [] (by decide) .nil
      rwa [List.append_nil] at goodbye
    have leaving := Onward.write silent { r with streaming := false, closed := true } h
    have given : Told ({ r with streaming := false, closed := true }.write Request.terminate) h asked := by
      simpa using leaving.told asked told
    simp only [Bool.false_eq_true, ↓reduceIte]
    rw [StateT.run_bind, flush_run]
    cases h.peer.sends.headD (.ok ()) with
    | ok =>
      obtain ⟨said, first, heard⟩ := ((Onward.hear _ h).told asked given).begun
      rw [List.append_nil] at first
      exact ⟨_, _, said, rfl, first, heard⟩
    | error =>
      obtain ⟨said, first, heard⟩ := given.begun
      exact ⟨_, _, said, rfl, first, heard⟩

theorem close_both_run (idle : Idle c h asked) :
    ∃ c' h' said, (c.close : Visit _).run h = some (c', h') ∧ said <+: asked ∧ Utters h'.heard said := by
  obtain ⟨control, _ | r⟩ := c
  · cases control <;> exact ⟨_, h, [], rfl, List.nil_prefix, idle⟩
  · obtain ⟨result, h', said, ran, first, heard⟩ := close_run idle.1 idle.2
    refine ⟨.empty, h', said, ?_, first, heard⟩
    have closes : (Transport.close r : Visit _).run h = some (result, h') := ran
    rw [Connections.close, StateT.run_bind, closes]
    cases control <;> rfl

end Opening

/-- The checkpoint's own position, or the server's where the checkpoint has none. -/
structure StartsAt (checkpoint : Checkpoint) (server : Identity) (position : Lsn) : Prop where
  own : checkpoint.lsn ≠ .zero → position = checkpoint.lsn
  current : checkpoint.lsn = .zero → position = server.position

/-- What a server has been asked when the start of a capture has come to something. -/
inductive Asked {σ δ μ : Type} (s : Source Unit Unit σ δ μ) (checkpoint : Checkpoint) (h : Host) :
    (Source.Start × Source Unit Unit σ δ μ) × Host → Prop
  | unasked {outcome s' h' said} : outcome ≠ .started → said <+: ["IDENTIFY_SYSTEM"] →
      Utters h'.heard said → Asked s checkpoint h ((outcome, s'), h')
  | asked {outcome server position command s' h'} : Knows s.config h server →
      StartsAt checkpoint server position → StreamsFrom s.config.slot position command →
      Utters h'.heard ["IDENTIFY_SYSTEM", command] →
      (outcome = .started → s'.tracker.committed = position ∧
        ∃ stream, s'.stream = some stream ∧ stream.start = position) →
      Asked s checkpoint h ((outcome, s'), h')

/-- A setup has been made, and nothing is captured. -/
structure Ready {σ δ μ : Type} (s : Source Unit Unit σ δ μ) : Prop where
  idle : s.isCapturing = false
  connections : s.connections.isSome
  collaborators : s.collaborators.isSome

/-- Where a capture starts. -/
structure Agreement {σ δ μ : Type} (s : Source Unit Unit σ δ μ) (checkpoint : Checkpoint) (h : Host)
    (started : Option ((Source.Start × Source Unit Unit σ δ μ) × Host)) : Prop where
  asks : ∀ r ∈ started, Asked s checkpoint h r
  /-- A server whose answer has no row, or a first row that does not tell what is needed, breaks the
  protocol. -/
  refuses : ∀ body rest, Ready s → Replies s.config h body rest →
    (∀ row server, (answerRows body).head? = some row → ¬ row.Tells server) →
    ∃ fault s' h' said, started = some ((.failed (.protocol fault), s'), h') ∧
      said <+: ["IDENTIFY_SYSTEM"] ∧ Utters h'.heard said
  /-- With a server that tells what is needed, and streams when it is asked to, a capture starts. -/
  starts : ∀ body rest row server, Ready s → Replies s.config h body rest →
    (answerRows body).head? = some row → row.Tells server → Grants rest →
    '\x00' ∉ s.config.slot.toList → (Feed.Channel.open? μ s.config.channelCapacity).isSome →
    ∃ s' h', started = some ((.started, s'), h')

/-- What becomes of a start. -/
inductive Captures {σ δ μ : Type} (s : Source Unit Unit σ δ μ) (checkpoint : Checkpoint) (h : Host) :
    Option ((Source.Start × Source Unit Unit σ δ μ) × Host) → Prop
  | hangs : (∀ body rest, Replies s.config h body rest →
      (∃ server, Identity.ofRows (answerRows body) = .ok server) ∧ ¬ Grants rest) →
      Captures s checkpoint h none
  | unready {e s'} : ¬ Ready s → Utters h.heard [] → Captures s checkpoint h (some ((.failed e, s'), h))
  | unknown {e s' h' said} : said <+: [identifyCommand] → Utters h'.heard said →
      (∀ body rest, Replies s.config h body rest → Identity.ofRows (answerRows body) = .error e) →
      Captures s checkpoint h (some ((.failed e, s'), h'))
  | fails {server said e s' h'} : Knows s.config h server →
      said = [identifyCommand, startCommand s.config.slot (startPosition checkpoint server.position)] ∨
        said <+: [identifyCommand] →
      Utters h'.heard said →
      (∀ body rest, '\x00' ∉ s.config.slot.toList → Replies s.config h body rest → ¬ Grants rest) →
      Captures s checkpoint h (some ((.failed e, s'), h'))
  | panics {server message s' h'} : Knows s.config h server →
      Utters h'.heard
        [identifyCommand, startCommand s.config.slot (startPosition checkpoint server.position)] →
      Feed.Channel.open? μ s.config.channelCapacity = none →
      Captures s checkpoint h (some ((.panicked message, s'), h'))
  | starts {server stream s' h'} : Knows s.config h server →
      Utters h'.heard
        [identifyCommand, startCommand s.config.slot (startPosition checkpoint server.position)] →
      s'.tracker.committed = startPosition checkpoint server.position → s'.stream = some stream →
      stream.start = startPosition checkpoint server.position →
      Captures s checkpoint h (some ((.started, s'), h'))

section Capturing

variable {σ δ μ : Type} {h : Host} {checkpoint : Checkpoint} {server : Identity}

theorem startsAt (checkpoint : Checkpoint) (server : Identity) :
    StartsAt checkpoint server (startPosition checkpoint server.position) := by
  unfold startPosition
  cases zero : checkpoint.lsn.isZero with
  | true =>
    have none : checkpoint.lsn = .zero := Lsn.ext (beq_iff_eq.mp zero)
    exact ⟨fun past => absurd none past, fun _ => rfl⟩
  | false =>
    refine ⟨fun _ => rfl, fun none => ?_⟩
    rw [none] at zero
    cases zero

/-- What has been heard of a question and what may follow it. -/
theorem question_or_both {said asked : List String} {question start : String} (first : asked <+: [start])
    (heard : said <+: [question] ++ asked) : said = [question, start] ∨ said <+: [question] :=
  List.prefix_concat_iff.mp (heard.trans ((List.prefix_append_right_inj [question]).mpr first))

theorem abandon_run (c : Connections Unit (Connection Unit)) (h : Host) :
    (c.abandon : Visit Unit).run h = some ((), h) := by
  obtain ⟨control, replication⟩ := c
  cases control <;> cases replication <;> rfl

theorem exists_of_ofRows {rows : List Row} {e : Error} (untold : Identity.ofRows rows = .error e) :
    ∃ fault, e = .protocol fault := by
  have kind : e.kind = .protocol := by
    cases rows with
    | nil => cases untold; rfl
    | cons row rows => exact Identity.kind_of_ofRow untold
  cases e <;> cases kind
  exact ⟨_, rfl⟩

theorem start_captures {s : Source Unit Unit σ δ μ} (left : ∀ c ∈ s.connections, c.replication = none)
    (fresh : h.heard = []) (checkpoint : Checkpoint) :
    Captures s checkpoint h ((s.start checkpoint : Visit _).run h) := by
  have silent : Utters h.heard [] := fresh ▸ .nil
  cases capturing : s.isCapturing with
  | true =>
    rw [Source.start, if_pos capturing]
    exact .unready (fun ready => Bool.noConfusion (ready.idle.symm.trans capturing)) silent
  | false =>
    rw [Source.start, if_neg (by rw [capturing]; nofun)]
    obtain ⟨config, connections, collaborators, tracker, capture, stream⟩ := s
    obtain _ | c := connections
    · exact .unready (fun ready => nomatch ready.connections) silent
    obtain _ | ⟨loader, decoder⟩ := collaborators
    · dsimp only
      rw [StateT.run_bind, abandon_run]
      exact .unready (fun ready => nomatch ready.collaborators) silent
    have opens := openStream_run config checkpoint (left c rfl) fresh
    dsimp only
    rw [StateT.run_bind]
    generalize (Source.openStream config c checkpoint : Visit _).run h = r at opens
    cases opens with
    | hangs why => exact .hangs why
    | unknown idle why =>
      obtain ⟨c', h'', said, ran, first, heard⟩ := close_both_run idle
      dsimp only [Option.bind_eq_bind, Option.bind_some]
      rw [StateT.run_bind, ran]
      exact .unknown first heard why
    | fails knows first idle why =>
      obtain ⟨c', h'', said, ran, begun, heard⟩ := close_both_run idle
      dsimp only [Option.bind_eq_bind, Option.bind_some]
      rw [StateT.run_bind, ran]
      exact .fails knows (question_or_both first begun) heard why
    | streams knows heard =>
      dsimp only [Option.bind_eq_bind, Option.bind_some]
      cases opened : Feed.Channel.open? μ config.channelCapacity with
      | none =>
        dsimp only
        rw [StateT.run_bind, abandon_run]
        exact .panics knows heard opened
      | some channel => exact .starts knows heard rfl rfl rfl

theorem Captures.asked {r : (Source.Start × Source Unit Unit σ δ μ) × Host}
    {s : Source Unit Unit σ δ μ} (captures : Captures s checkpoint h (some r)) : Asked s checkpoint h r := by
  cases captures with
  | unready _ silent => exact .unasked nofun List.nil_prefix silent
  | unknown first heard => exact .unasked nofun first heard
  | fails knows first heard =>
    obtain rfl | few := first
    · exact .asked knows (startsAt checkpoint _) (streamsFrom_startCommand _ _) heard nofun
    · exact .unasked nofun few heard
  | panics knows heard =>
    exact .asked knows (startsAt checkpoint _) (streamsFrom_startCommand _ _) heard nofun
  | starts knows heard committed stream start =>
    exact .asked knows (startsAt checkpoint _) (streamsFrom_startCommand _ _) heard
      fun _ => ⟨committed, _, stream, start⟩

/-- Where a capture starts that follows a setup, which leaves no replication connection behind, and
that a server hears as the first of its connection. -/
theorem start_agrees {s : Source Unit Unit σ δ μ} (left : ∀ c ∈ s.connections, c.replication = none)
    (fresh : h.heard = []) (checkpoint : Checkpoint) :
    Agreement s checkpoint h ((s.start checkpoint : Visit _).run h) := by
  have captures := start_captures left fresh checkpoint
  generalize (s.start checkpoint : Visit _).run h = started at captures
  refine ⟨fun r came => ?_, fun body rest ready replies untold => ?_,
    fun body rest row server ready replies first tells grants free opens => ?_⟩
  · cases came
    exact captures.asked
  · -- A server that has told who it is has not refused to.
    have unknown {server : Identity} (known : Identity.ofRows (answerRows body) = .ok server) : False := by
      obtain ⟨row, first, tells⟩ := ofRows_eq_ok.mp known
      exact untold row server first tells
    cases captures with
    | hangs why =>
      obtain ⟨server, known⟩ := (why body rest replies).1
      exact (unknown known).elim
    | unready other => exact absurd ready other
    | @unknown e s' h' said first heard why =>
      obtain ⟨fault, rfl⟩ := exists_of_ofRows (why body rest replies)
      exact ⟨fault, s', h', said, rfl, first, heard⟩
    | fails knows | panics knows | starts knows => exact (unknown (knows.ofRows replies)).elim
  · have known := ofRows_eq_ok.mpr ⟨row, first, tells⟩
    cases captures with
    | hangs why => exact absurd grants (why body rest replies).2
    | unready other => exact absurd ready other
    | unknown _ _ why => rw [why body rest replies] at known; cases known
    | fails _ _ _ why => exact absurd grants (why body rest free replies)
    | panics _ _ closed => rw [closed] at opens; cases opens
    | @starts server stream s' h' => exact ⟨s', h', rfl⟩

/-- An answer with what a server tells, and the messages in it. -/
def tellingFrames : List (Char × Bytes) :=
  let column (name : String) := Bytes.ofString name ++ List.replicate 19 0
  [('T', Bytes.ofNat 2 3 ++ column "systemid" ++ column "timeline" ++ column "xlogpos"),
    ('D', Bytes.ofNat 2 3 ++ (["7", "1", "0/5"].map (Request.sized ∘ Bytes.ofString)).flatten)]

def telling : List Message :=
  let column (name : String) := Bytes.ofString name ++ List.replicate 19 0
  [.rowDescription 3 (column "systemid" ++ column "timeline" ++ column "xlogpos"),
    .dataRow 3 ((["7", "1", "0/5"].map (Request.sized ∘ Bytes.ofString)).flatten)]

def obligingFrames : List (Char × Bytes) :=
  [('R', [0, 0, 0, 0]), ('Z', [0x49])] ++ tellingFrames ++ [('Z', [0x49]), ('W', [0, 0, 0])]

def prepared : Source Unit Unit Unit Unit Unit :=
  ⟨⟨"host=a", "host=a user=b", "s", false, 5, 100, 30⟩, some ⟨some (), none⟩, some ((), ()), default,
    none, none⟩

theorem replies_obliging : Replies prepared.config (.sending obligingFrames) telling [.ok .copyBoth] where
  reachable := reachable_sending obligingFrames
  answers := by
    unfold Answers Message.passes
    simp [telling]
    decide +kernel
  admits := by
    refine ⟨⟨"a", 5432, 30, ⟨"b", "b", none, none, "", 0⟩⟩, [.loginAccepted, .ready], by decide +kernel,
      exists_of_isOk (by decide +kernel), .plain .nil, ?_⟩
    have whole : Means obligingFrames ([.loginAccepted, .ready] ++ telling ++ [.ready, .copyBoth]) := by
      unfold Means
      decide +kernel
    rw [speech_sending whole]
    simp

/-- A server that is at position 5 and a checkpoint without a position. -/
theorem starts_where_server_is : ∃ s' h' command,
    (prepared.start default : Visit _).run (.sending obligingFrames) = some ((.started, s'), h') ∧
      s'.tracker.committed = ⟨5, by decide⟩ ∧ Utters h'.heard ["IDENTIFY_SYSTEM", command] ∧
      startOf? command = some ("s", ⟨5, by decide⟩) := by
  have left : ∀ c ∈ prepared.connections, c.replication = none := by
    rintro _ ⟨⟩
    rfl
  have agrees := start_agrees (h := .sending obligingFrames) left rfl default
  have known : Identity.ofRows (answerRows telling) = .ok ⟨"7", 1, ⟨5, by decide⟩, none⟩ := by
    decide +kernel
  obtain ⟨row, first, tells⟩ := ofRows_eq_ok.mp known
  obtain ⟨s', h', run⟩ := agrees.starts telling _ row _ ⟨rfl, rfl, rfl⟩ replies_obliging first tells
    ⟨[], [], rfl, nofun⟩ (by decide +kernel) rfl
  have asked := agrees.asks _ run
  cases asked with
  | unasked other => exact absurd rfl other
  | @asked _ server position command _ _ knows startsAt names heard right =>
    have same := knows.ofRows replies_obliging
    rw [known] at same
    cases same
    have here := startsAt.current rfl
    subst here
    exact ⟨s', h', command, run, (right rfl).1, heard, names.read rfl⟩

end Capturing

end ChangeFeed.Session
