import ChangeFeed.Proofs.Lsn.Notation
import ChangeFeed.Proofs.Session.Cuts
import ChangeFeed.Proofs.Session.Opening

/-!
Asking a server who it is, and making it stream from where a checkpoint says. Main statement: a command
to stream is given at most once, and only to a server whose answer has no error and has a first row that
tells what is needed; it names the position of the stream that is then there.
-/
namespace ChangeFeed

theorem except_bind_eq_error {ε α β : Type} {x : Except ε α} {f : α → Except ε β} {e : ε}
    (failed : (x >>= f) = .error e) : x = .error e ∨ ∃ a, x = .ok a ∧ f a = .error e := by
  cases x with
  | error => cases failed; exact Or.inl rfl
  | ok a => exact Or.inr ⟨a, rfl, failed⟩

namespace Session

open Wire

namespace Row

/-- The first column of a name has a value. -/
def Holds (row : Row) (name value : String) : Prop :=
  ∃ i : Nat, row.columns[i]? = some name ∧ (∀ j < i, row.columns[j]? ≠ some name) ∧
    row.values[i]? = some (some value)

/-- What a row tells of a server. -/
inductive Tells (row : Row) : Identity → Prop
  | intro {systemId timeline position number l} : row.Holds "systemid" systemId →
      row.Holds "timeline" timeline → Text.Numeral.signed? 10 (2 ^ 31) timeline.toList = some number →
      row.Holds "xlogpos" position → Lsn.ofText? position = some l →
      Tells row ⟨systemId, number, l, row.get? "dbname"⟩

variable {row : Row} {name value : String}

theorem get?_eq_some : row.get? name = some value ↔ row.Holds name value := by
  unfold get? Holds
  constructor
  · intro found
    split at found
    · rename_i i first
      obtain ⟨bound, same, others⟩ := List.findIdx?_eq_some_iff_getElem.mp first
      refine ⟨i, ?_, fun j early => ?_, Option.join_eq_some_iff.mp found⟩
      · rw [List.getElem?_eq_getElem bound, eq_of_beq same]
      · have other := others j early
        rw [List.getElem?_eq_getElem (early.trans bound)]
        simpa using other
    · cases found
  · rintro ⟨i, named, others, held⟩
    obtain ⟨bound, same⟩ := List.getElem?_eq_some_iff.mp named
    have first : row.columns.findIdx? (· == name) = some i := by
      refine List.findIdx?_eq_some_iff_getElem.mpr ⟨bound, beq_iff_eq.mpr same, fun j early => ?_⟩
      have other := others j early
      rw [List.getElem?_eq_getElem (early.trans bound)] at other
      simpa using other
    rw [first]
    exact Option.join_eq_some_iff.mpr held

end Row

namespace Identity

variable {row : Row} {server : Identity} {e : Error}

theorem column_eq_ok {name value : String} : column row name = .ok value ↔ row.Holds name value := by
  rw [← Row.get?_eq_some, column]
  cases row.get? name <;> simp

theorem ofRow_eq_ok : ofRow row = .ok server ↔ row.Tells server := by
  constructor
  · intro told
    obtain ⟨timeline, first, told⟩ := except_bind_eq_ok told
    obtain ⟨systemId, second, told⟩ := except_bind_eq_ok told
    cases number : Text.Numeral.signed? 10 (UInt32.size / 2) timeline.toList with
    | none => rw [number] at told; cases told
    | some n =>
      rw [number] at told
      obtain ⟨position, third, told⟩ := except_bind_eq_ok told
      obtain ⟨l, parsed, told⟩ := except_bind_eq_ok told
      cases told
      exact .intro (column_eq_ok.mp second) (column_eq_ok.mp first) number (column_eq_ok.mp third)
        (Lsn.parse_eq_ok.mp parsed)
  · rintro ⟨systemId, timeline, number, position, parsed⟩
    have size : UInt32.size / 2 = 2 ^ 31 := rfl
    rw [ofRow, column_eq_ok.mpr timeline, column_eq_ok.mpr systemId, column_eq_ok.mpr position, size]
    simp only [bind, Except.bind, number, Lsn.parse_eq_ok.mpr parsed]
    rfl

theorem kind_of_column {name : String} (missing : column row name = .error e) : e.kind = .protocol := by
  rw [column] at missing
  cases found : row.get? name <;> rw [found] at missing <;> cases missing
  rfl

/-- A row that does not tell what is needed breaks the protocol. -/
theorem kind_of_ofRow (untold : ofRow row = .error e) : e.kind = .protocol := by
  unfold ofRow at untold
  rcases except_bind_eq_error untold with missing | ⟨timeline, -, untold⟩
  · exact kind_of_column missing
  rcases except_bind_eq_error untold with missing | ⟨systemId, -, untold⟩
  · exact kind_of_column missing
  cases number : Text.Numeral.signed? 10 (UInt32.size / 2) timeline.toList with
  | none => rw [number] at untold; cases untold; rfl
  | some n =>
    rw [number] at untold
    rcases except_bind_eq_error untold with missing | ⟨position, -, untold⟩
    · exact kind_of_column missing
    rcases except_bind_eq_error untold with unread | ⟨l, -, untold⟩
    · rw [Lsn.parse] at unread
      cases read : Lsn.ofText? position <;> rw [read] at unread <;> cases unread
      rfl
    · cases untold

end Identity

/-- The messages of an answer without an error. -/
def Answers (body : List Message) : Prop := ∀ m ∈ body, Message.passes m ∧ isSound m = true

section Answers

variable {before body : List Message} {items rest : List (Except Error Message)} {o : Outcome}

theorem failure?_eq_none {m : Message} : failure? m = none ↔ ∀ fields, m ≠ .error fields := by
  cases m <;> simp [failure?]

theorem answerAwait_nil : answerAwait [] = .answer [] [] none := rfl

theorem Answers.read_eq (answers : Answers body) (rest : List (Except Error Message)) :
    (Await.answer [] [] none).read ((body ++ [Message.ready]).map .ok ++ rest) =
      some (.ok (.answered (answerRows body), rest)) := by
  have sound : ∀ m ∈ body, isSound m = true := fun m member => (answers m member).2
  have unready : .ready ∉ body := fun member => (answers _ member).1.1 rfl
  have plain : .copyBoth ∉ body := fun member => (answers _ member).1.2.1 rfl
  have quiet : body.filterMap failure? = [] :=
    List.filterMap_eq_nil_iff.mpr fun m member => failure?_eq_none.mpr (answers m member).1.2.2
  have waits := answerAwait_waits [] sound unready plain
  have ends := answerAwait_ready body
  rw [verdict, quiet] at ends
  rw [List.map_append, List.append_assoc, ← answerAwait_nil, waits.read_eq, List.nil_append,
    List.map_singleton, List.singleton_append, Await.read, ends]
  rfl

/-- A question that is answered has read an answer without an error. -/
theorem answers_of_read (read : (answerAwait before).read items = some (.ok (o, rest))) :
    before.filterMap failure? = [] ∧ ∃ body, Answers body ∧
      items = (body ++ [Message.ready]).map .ok ++ rest ∧ o = .answered (answerRows (before ++ body)) := by
  induction items generalizing before with
  | nil => cases read
  | cons item later ih =>
    obtain ⟨m, later', same, goes⟩ := Await.exists_of_read read
    cases same
    by_cases unready : m = .ready
    · subst unready
      rw [answerAwait_ready, verdict] at goes
      cases failed : (before.filterMap failure?).getLast? with
      | some text => rw [failed] at goes; cases goes
      | none =>
        rw [failed] at goes
        cases goes
        exact ⟨List.getLast?_eq_none_iff.mp failed, [], List.forall_mem_nil _, rfl, by rw [List.append_nil]⟩
    by_cases plain : m = .copyBoth
    · subst plain
      cases goes
    have sound : isSound m = true := by
      cases m with
      | rowDescription count fields =>
        obtain ⟨names, parsed, -⟩ := Step.reads_parsed goes
        rw [isSound, parsed]
        rfl
      | dataRow count bytes =>
        obtain ⟨vs, parsed, -⟩ := Step.reads_parsed goes
        rw [isSound, parsed]
        rfl
      | _ => rfl
    rw [answerAwait_step sound unready plain] at goes
    obtain ⟨quiet, body, answers, rfl, rfl⟩ := ih goes
    rw [List.filterMap_append, List.append_eq_nil_iff] at quiet
    have fine : failure? m = none := by simpa using quiet.2
    refine ⟨quiet.1, m :: body, ?_, rfl, by simp⟩
    exact List.forall_mem_cons.mpr ⟨⟨⟨unready, plain, failure?_eq_none.mp fine⟩, sound⟩, answers⟩

end Answers

/-- A server that answers without an error who it is, and what it says after that. -/
def Identifies (items : List (Except Error Message)) (server : Identity)
    (rest : List (Except Error Message)) : Prop :=
  ∃ body row, Answers body ∧ items = (body ++ [Message.ready]).map .ok ++ rest ∧
    (answerRows body).head? = some row ∧ row.Tells server

/-- A server that streams once it is asked to. -/
def Grants (items : List (Except Error Message)) : Prop :=
  ∃ (before : List Message) (after : List (Except Error Message)),
    items = before.map .ok ++ .ok .copyBoth :: after ∧
      ∀ m ∈ before, m ≠ .copyBoth ∧ ∀ fields, m ≠ .error fields

/-- What is wrong with any answer that is without an error. -/
def Untold (c : Connection Unit) (h : Host) (e : Error) : Prop :=
  ∀ body rest, h.Hears → Answers body →
    ahead c h.peer = (body ++ [Message.ready]).map .ok ++ rest →
    Identity.ofRows (answerRows body) = .error e

/-- What becomes of the question who a server is. -/
inductive Learns (c : Connection Unit) (h : Host) :
    Option ((Except Error Identity × Connection Unit) × Host) → Prop
  | hangs : (Await.answer [] [] none).read (ahead c h.peer) = none → Learns c h none
  | unknown {e c' h'} : Onward [identifyCommand] c h c' h' → Untold c h e →
      Learns c h (some ((.error e, c'), h'))
  | known {server c' h'} : Identifies (ahead c h.peer) server (ahead c' h'.peer) → c'.outbox = [] →
      Onward [identifyCommand] c h c' h' → Learns c h (some ((.ok server, c'), h'))

/-- The rows of an answer; other outcomes have none. -/
def Outcome.rows : Outcome → List Row
  | .answered rows => rows
  | _ => []

/-- What becomes of a command to stream. -/
inductive Streams (text : String) (c : Connection Unit) (h : Host) :
    Option ((Except Error Unit × Connection Unit) × Host) → Prop
  | hangs : ¬ Grants (ahead c h.peer) → Streams text c h none
  | fails {e said c' h'} : said <+: [text] → Onward said c h c' h' →
      ((∃ bytes, Request.query text = .ok bytes) → h.Hears →
        ¬ Grants (ahead c h.peer)) →
      Streams text c h (some ((.error e, c'), h'))
  | opens {c' h'} : c'.outbox = [] → Onward [text] c h c' h' →
      Streams text c h (some ((.ok (), { c' with streaming := true }), h'))

section Identify

variable {c c' : Connection Unit} {h h' : Host} {rows : List Row} {server : Identity}

theorem ofRows_eq_ok : Identity.ofRows rows = .ok server ↔
    ∃ row, rows.head? = some row ∧ row.Tells server := by
  cases rows with
  | nil => simp [Identity.ofRows]
  | cons row rows => simp [Identity.ofRows, Identity.ofRow_eq_ok]

theorem identify_eq (idle : c.streaming = false) :
    (c.identify : Visit _).run h =
      ((c.command identifyCommand (.answer [] [] none) : Visit _).run h).map fun r =>
        (((r.1.1.map Outcome.rows).bind Identity.ofRows, r.1.2), r.2) := by
  have going : ¬ c.streaming = true := by simp [idle]
  rw [Connection.identify, StateT.run_bind, Connection.query, if_neg going, StateT.run_bind]
  cases (c.command identifyCommand (.answer [] [] none) : Visit _).run h <;> rfl

theorem identify_run (idle : c.streaming = false) : Learns c h ((c.identify : Visit _).run h) := by
  have writable : ∃ bytes, Request.query identifyCommand = .ok bytes :=
    Request.query_of_free (by decide +kernel)
  obtain ⟨bytes, written⟩ := writable
  have asked : Onward [identifyCommand] c h (c.write bytes) h := .write (.single written) c h
  have calls := call_calls (.answer [] [] none) (c.write bytes) h
  rw [identify_eq idle, Connection.command, written]
  dsimp only
  generalize ((c.write bytes).call (.answer [] [] none) : Visit _).run h = r at calls
  cases calls with
  | hangs never => exact .hangs never
  | @ends result c' h' reads sent onward =>
    replace reads : (answerAwait []).read (ahead c h.peer) = some (result.map (·, ahead c' h'.peer)) := reads
    cases result with
    | error e =>
      refine .unknown (asked.trans onward) fun body rest _ answers said => ?_
      rw [said, answerAwait_nil, answers.read_eq] at reads
      cases reads
    | ok o =>
      obtain ⟨-, body, answers, said, rfl⟩ := answers_of_read reads
      dsimp only [Option.map_some, Except.map, Except.bind, Outcome.rows]
      cases told : Identity.ofRows (answerRows ([] ++ body)) with
      | error e =>
        refine .unknown (asked.trans onward) fun body' rest _ answers' said' => ?_
        have same := answers'.read_eq rest
        rw [← said', ← answerAwait_nil, reads] at same
        obtain ⟨rows, -⟩ : answerRows ([] ++ body) = answerRows body' ∧ ahead c' h'.peer = rest := by
          simpa [Except.map] using same
        rw [← rows]
        exact told
      | ok server =>
        obtain ⟨row, first, tells⟩ := ofRows_eq_ok.mp told
        exact .known ⟨body, row, answers, said, first, tells⟩ sent (asked.trans onward)
  | unsent failed onward =>
    exact .unknown (asked.trans onward) fun _ _ hears => absurd failed (hears _)

theorem Grants.read_eq {items : List (Except Error Message)} (grants : Grants items) :
    ∃ after, Await.copyBoth.read items = some (.ok (.streaming, after)) := by
  obtain ⟨before, after, said, others⟩ := grants
  exact ⟨after, copyBoth_read_eq_ok.mpr ⟨rfl, before, said, others⟩⟩

theorem stream_run (text : String) (c : Connection Unit) (h : Host) :
    Streams text c h ((c.stream text : Visit _).run h) := by
  rw [Connection.stream, StateT.run_bind, Connection.command]
  cases query : Request.query text with
  | error fault =>
    have broken : Utters Request.brokenQuery [] := by simpa using Utters.broken query .nil
    refine .fails (List.nil_prefix) (.write broken c h) ?_
    rintro ⟨bytes, written⟩
    rw [query] at written
    cases written
  | ok bytes =>
    have asked : Onward [text] c h (c.write bytes) h := .write (.single query) c h
    have calls := call_calls .copyBoth (c.write bytes) h
    dsimp only
    generalize ((c.write bytes).call .copyBoth : Visit _).run h = r at calls
    cases calls with
    | hangs never =>
      replace never : Await.copyBoth.read (ahead c h.peer) = none := never
      refine .hangs fun grants => ?_
      obtain ⟨after, reads⟩ := grants.read_eq
      rw [never] at reads
      cases reads
    | @ends result c' h' reads sent onward =>
      cases result with
      | error e =>
        replace reads : Await.copyBoth.read (ahead c h.peer) = some (.error e) := reads
        refine .fails (List.prefix_refl _) (asked.trans onward) fun _ _ grants => ?_
        obtain ⟨after, granted⟩ := grants.read_eq
        rw [reads] at granted
        cases granted
      | ok o => exact .opens sent (asked.trans onward)
    | unsent failed onward =>
      exact .fails (List.prefix_refl _) (asked.trans onward) fun _ hears => absurd failed (hears _)

end Identify

/-- What becomes of a start: the server does not tell who it is, or it is asked to stream. -/
inductive Starts (slot : String) (checkpoint : Checkpoint) (c : Connection Unit) (h : Host) :
    Option ((Except Error Stream × Connection Unit) × Host) → Prop
  | hangs : ((Await.answer [] [] none).read (ahead c h.peer) = none ∨
      ∃ server rest, Identifies (ahead c h.peer) server rest ∧ ¬ Grants rest) →
      Starts slot checkpoint c h none
  | unknown {e c' h'} : Onward [identifyCommand] c h c' h' → Untold c h e →
      Starts slot checkpoint c h (some ((.error e, c'), h'))
  | fails {server rest e said c' h'} : Identifies (ahead c h.peer) server rest →
      said <+: [startCommand slot (startPosition checkpoint server.position)] →
      Onward ([identifyCommand] ++ said) c h c' h' →
      ('\x00' ∉ slot.toList → h.Hears → ¬ Grants rest) →
      Starts slot checkpoint c h (some ((.error e, c'), h'))
  | streams {server rest c' h'} : Identifies (ahead c h.peer) server rest → c'.outbox = [] →
      Onward [identifyCommand, startCommand slot (startPosition checkpoint server.position)] c h c' h' →
      Starts slot checkpoint c h
        (some ((.ok ⟨slot, startPosition checkpoint server.position, server⟩,
          { c' with streaming := true }), h'))

theorem start_run {c : Connection Unit} (idle : c.streaming = false) (h : Host) (slot : String)
    (checkpoint : Checkpoint) : Starts slot checkpoint c h ((c.start slot checkpoint : Visit _).run h) := by
  have learns := identify_run (h := h) idle
  rw [Connection.start, StateT.run_bind]
  generalize (c.identify : Visit _).run h = r at learns
  cases learns with
  | hangs never => exact .hangs (Or.inl never)
  | unknown onward why => exact .unknown onward why
  | @known server c' h' identifies sent onward =>
    have streams := stream_run (startCommand slot (startPosition checkpoint server.position)) c' h'
    dsimp only [Option.bind_eq_bind, Option.bind_some]
    rw [StateT.run_bind]
    generalize (c'.stream _ : Visit _).run h' = r at streams
    cases streams with
    | hangs never => exact .hangs (Or.inr ⟨server, _, identifies, never⟩)
    | fails first later why =>
      refine .fails identifies first (onward.trans later) fun free hears => ?_
      exact why (Request.query_of_free (free_startCommand free)) (onward.hears hears)
    | opens sent later => exact .streams identifies sent (onward.trans later)

end Session

end ChangeFeed
