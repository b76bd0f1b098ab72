import ChangeFeed.Feed.Desk
import ChangeFeed.Proofs.Feed.History

/-!
A task at its place of work, with the connection that it was given, its controller and its consumer.
All that surrounds it answers as it likes, and what the task asks of the connection is written down.
Main statement: what one turn of the task comes to.
-/
namespace ChangeFeed.Feed

/-- What the replication connection is asked for. -/
inductive Request
  | poll
  | report (update : StatusUpdate)
  | close
deriving DecidableEq

/-- What the surroundings answer in one turn of the task. -/
structure Answers where
  now : Nat
  wallClock : Int
  frame : Option (Except Error Frame)
  report : Except Error Unit
  refresh : Except Error Unit
  close : Except Error Unit

/-- What is written down: what the connection is asked for, and what is seen of the task. -/
inductive Note (μ : Type)
  | asked (request : Request)
  | seen (event : Event μ)

def Note.request? {μ : Type} : Note μ → Option Request
  | .asked request => some request
  | .seen _ => none

theorem Note.filterMap_asked {μ : Type} (requests : List Request) :
    (requests.map (Note.asked (μ := μ))).filterMap Note.request? = requests := by
  induction requests with
  | nil => rfl
  | cons request requests ih => exact congrArg (request :: ·) ih

theorem Note.filterMap_seen {μ : Type} (events : List (Event μ)) :
    (events.map Note.seen).filterMap Note.request? = [] := by
  induction events with
  | nil => rfl
  | cons event events ih => exact ih

/-- A turn among surroundings that give these answers and write down what happens. -/
abbrev Attended (μ : Type) := ReaderT Answers (StateM (List (Note μ)))

namespace Attended

variable {μ : Type}

def ask {α : Type} (request : Request) (answer : Answers → α) : Attended μ α := fun answers => do
  modify (· ++ [.asked request])
  return answer answers

instance : Transport (Attended μ) Unit where
  poll _ := ask .poll fun answers => (answers.frame, ())
  report _ update := ask (.report update) fun answers => (answers.report, ())
  close _ := ask .close fun answers => (answers.close, ())

instance : Control.Database (Attended μ) Unit where
  reach _ _ _ := return .late
  login _ _ _ := return .late
  execute _ _ := return .ok []
  release _ := return ()

instance : Control.SchemaLoader (Attended μ) Unit where
  refresh _ := fun answers => return (answers.refresh, ())

instance : Time.Clock (Attended μ) where
  now := fun answers => return answers.now
  wall := fun answers => return answers.wallClock
  wait _ := return ()

instance : Witness (Attended μ) μ where
  record events := fun _ => modify (· ++ events.map .seen)

end Attended

section Attending

variable {δ μ α β : Type}

/-- What an action gives and leaves behind, if the surroundings answer so. -/
def attend (action : StateT (Desk Unit Unit Unit) (Attended μ) α) (answers : Answers)
    (desk : Desk Unit Unit Unit) (notes : List (Note μ)) :
    (α × Desk Unit Unit Unit) × List (Note μ) :=
  ((action.run desk).run answers).run notes

/-- What a task asks of its connection in one turn. -/
def Run.requests (r : Run δ μ) (connections : Connections Unit Unit) : List Request :=
  match connections.replication, r.phase with
  | none, _ => []
  | some _, .reporting update => [.report update]
  | some _, .listening => if r.life.stopRequested then [] else [.poll]
  | some _, .closing _ => [.close]
  | some _, _ => []

def Phase.isClosing : Phase μ → Bool
  | .closing _ => true
  | _ => false

/-- The move that a task makes next when its work is over. -/
def Phase.cleanup? : Phase μ → Option Move
  | .closing _ => some .close
  | .releasing _ => some .release
  | .publishing _ => some .publish
  | _ => none

theorem Run.requests_absent {r : Run δ μ} {connections : Connections Unit Unit}
    (absent : connections.replication = none) : r.requests connections = [] := by
  simp [requests, absent]

theorem Run.requests_open {r : Run δ μ} (open' : r.phase.isClosing = false)
    (connections : Connections Unit Unit) : .close ∉ r.requests connections := by
  unfold requests
  split
  · simp
  · simp
  · split <;> simp
  · rename_i phase; rw [phase] at open'; cases open'
  · simp

theorem Run.requests_closing {r : Run δ μ} {connections : Connections Unit Unit}
    (closing : r.phase.isClosing = true) (present : connections.replication.isSome = true) :
    r.requests connections = [.close] := by
  obtain ⟨_, present⟩ := Option.isSome_iff_exists.mp present
  cases phase : r.phase <;> simp_all [requests, Phase.isClosing]

variable {answers : Answers} {desk : Desk Unit Unit Unit} {notes : List (Note μ)} {r : Run δ μ}
  {v : View}

/-- What it comes to that the task chooses its next move. -/
structure Chosen (r : Run δ μ) (desk : Desk Unit Unit Unit) (notes : List (Note μ))
    (chosen : (Option Move × Desk Unit Unit Unit) × List (Note μ)) : Prop where
  notes : chosen.2 = notes ++ (r.requests desk.connections).map .asked
  connections : chosen.1.2.connections = if r.phase.isClosing then .empty else desk.connections
  cleans : ∀ move, r.phase.cleanup? = some move → chosen.1.1 = some move

theorem attend_bind (action : StateT (Desk Unit Unit Unit) (Attended μ) α)
    (next : α → StateT (Desk Unit Unit Unit) (Attended μ) β) :
    attend (action >>= next) answers desk notes =
      attend (next (attend action answers desk notes).1.1) answers
        (attend action answers desk notes).1.2 (attend action answers desk notes).2 := rfl

theorem attend_poll :
    attend (Surroundings.poll (μ := μ)) answers desk notes =
      match desk.connections.replication with
      | some _ => ((answers.frame, desk), notes ++ [.asked .poll])
      | none => ((none, desk), notes) := by
  obtain ⟨⟨control, replication⟩, loader, acked, refreshed⟩ := desk
  cases replication <;> rfl

theorem attend_report {update : StatusUpdate} :
    attend (Surroundings.report (μ := μ) update) answers desk notes =
      match desk.connections.replication with
      | some _ => ((answers.report, desk), notes ++ [.asked (.report update)])
      | none => ((.error (.replication .notOpen), desk), notes) := by
  obtain ⟨⟨control, replication⟩, loader, acked, refreshed⟩ := desk
  cases replication <;> rfl

theorem Chosen.asking {next : Option Move} {asked : List Request}
    (own : r.requests desk.connections = asked) (open' : r.phase.isClosing = false)
    (cleans : ∀ move, r.phase.cleanup? = some move → next = some move) :
    Chosen r desk notes ((next, desk), notes ++ asked.map .asked) :=
  ⟨by rw [own], by rw [open']; rfl, cleans⟩

theorem Chosen.silent {next : Option Move} (own : r.requests desk.connections = [])
    (open' : r.phase.isClosing = false)
    (cleans : ∀ move, r.phase.cleanup? = some move → next = some move) :
    Chosen r desk notes ((next, desk), notes) := by
  have asking : Chosen r desk notes ((next, desk), notes ++ [].map .asked) :=
    .asking own open' cleans
  simpa using asking

theorem chosen_listening (phase : r.phase = .listening) (running : r.life.stopRequested = false) :
    Chosen r desk notes (attend (r.nextMove v) answers desk notes) := by
  have open' : r.phase.isClosing = false := by rw [phase]; rfl
  have busy : r.phase.cleanup? = none := by rw [phase]; rfl
  rw [Run.nextMove, phase]
  simp only [running, Bool.false_eq_true, if_false]
  rw [attend_bind, attend_poll]
  cases absent : desk.connections.replication with
  | none => exact .silent (by simp [Run.requests, absent]) open' (by simp [busy])
  | some =>
    have asked : r.requests desk.connections = [.poll] := by
      simp [Run.requests, absent, phase, running]
    dsimp only
    cases answers.frame <;> exact .asking asked open' (by simp [busy])

theorem chosen_nextMove : Chosen r desk notes (attend (r.nextMove v) answers desk notes) := by
  cases phase : r.phase with
  | listening =>
    cases stop : r.life.stopRequested with
    | false => exact chosen_listening phase stop
    | true =>
      have silent : r.requests desk.connections = [] := by
        cases absent : desk.connections.replication <;> simp [Run.requests, phase, stop, absent]
      rw [Run.nextMove, phase]
      simp only [stop, if_true]
      exact .silent silent (by rw [phase]; rfl) (by simp [phase, Phase.cleanup?])
  | reporting update =>
    have open' : r.phase.isClosing = false := by rw [phase]; rfl
    have busy : r.phase.cleanup? = none := by rw [phase]; rfl
    rw [Run.nextMove, phase]
    dsimp only
    rw [attend_bind, attend_report]
    cases absent : desk.connections.replication with
    | none => exact .silent (by simp [Run.requests, absent]) open' (by simp [busy])
    | some =>
      have asked : r.requests desk.connections = [.report update] := by
        simp [Run.requests, absent, phase]
      exact .asking asked open' (by simp [busy])
  | closing =>
    obtain ⟨⟨control, replication⟩, loader, acked, refreshed⟩ := desk
    rw [Run.nextMove, phase]
    cases replication <;> cases control <;>
      exact ⟨by simp [Run.requests, phase]; rfl, by rw [phase]; rfl,
        fun move own => by rw [phase] at own; exact own⟩
  | _ =>
    have silent : r.requests desk.connections = [] := by
      cases absent : desk.connections.replication <;> simp [Run.requests, phase, absent]
    rw [Run.nextMove, phase]
    exact .silent silent (by rw [phase]; rfl) (by simp [phase, Phase.cleanup?])

/-- What a turn comes to: the task waits or makes a move. -/
structure Turned [Decoder δ μ] (r : Run δ μ) (answers : Answers) (desk : Desk Unit Unit Unit)
    (notes : List (Note μ)) (turned : (Option (Run δ μ) × Desk Unit Unit Unit) × List (Note μ)) :
    Prop where
  run : ∀ r', turned.1.1 = some r' → ∃ move events,
    r.apply ⟨answers.now, desk.acked, answers.wallClock⟩ move = some (r', events)
  notes : ∃ events : List (Event μ),
    turned.2 = notes ++ (r.requests desk.connections).map .asked ++ events.map .seen
  connections : turned.1.2.connections = if r.phase.isClosing then .empty else desk.connections
  cleans : r.phase.cleanup?.isSome → turned.1.1.isSome

theorem attend_turn [Decoder δ μ] : attend r.turn answers desk notes =
    match attend (r.nextMove ⟨answers.now, desk.acked, answers.wallClock⟩) answers desk notes with
    | ((none, desk), notes) => ((none, desk), notes)
    | ((some move, desk'), notes) =>
      match r.apply ⟨answers.now, desk.acked, answers.wallClock⟩ move with
      | none => ((none, desk'), notes)
      | some (r', events) =>
        match r'.phase with
        | .refreshing _ _ _ =>
          ((some r', { desk' with refreshed := some answers.refresh }), notes ++ events.map .seen)
        | _ => ((some r', desk'), notes ++ events.map .seen) := by
  have view : attend (Surroundings.view (μ := μ)) answers desk notes =
      ((⟨answers.now, desk.acked, answers.wallClock⟩, desk), notes) := rfl
  unfold Run.turn
  rw [attend_bind, view, attend_bind]
  generalize attend (r.nextMove _) answers desk notes = chosen
  obtain ⟨⟨_ | move, desk'⟩, notes'⟩ := chosen
  · rfl
  · dsimp only
    cases r.apply ⟨answers.now, desk.acked, answers.wallClock⟩ move with
    | none => rfl
    | some moved =>
      obtain ⟨r', events⟩ := moved
      dsimp only
      cases r'.phase <;> rfl

theorem Run.apply_cleanup [Decoder δ μ] {move : Move} (own : r.phase.cleanup? = some move) :
    (r.apply v move).isSome := by
  cases phase : r.phase <;> rw [phase] at own <;> cases own <;> simp [apply, phase]

theorem turned_turn [Decoder δ μ] :
    Turned r answers desk notes (attend r.turn answers desk notes) := by
  have chosen : Chosen r desk notes
      (attend (r.nextMove ⟨answers.now, desk.acked, answers.wallClock⟩) answers desk notes) :=
    chosen_nextMove
  rw [attend_turn]
  generalize attend (r.nextMove _) answers desk notes = outcome at chosen ⊢
  obtain ⟨⟨next, desk'⟩, notes'⟩ := outcome
  obtain ⟨told, connections, cleans⟩ := chosen
  dsimp only at told connections cleans
  subst told
  -- It waits if it has no move to make, and also if the move that it chose is not open to it.
  have waits (stays : next.bind (r.apply ⟨answers.now, desk.acked, answers.wallClock⟩) = none) :
      Turned r answers desk notes
        ((none, desk'), notes ++ (r.requests desk.connections).map .asked) := by
    refine ⟨fun _ same => (by cases same), ⟨[], by simp⟩, connections, fun cleanup => ?_⟩
    obtain ⟨move, own⟩ := Option.isSome_iff_exists.mp cleanup
    rw [cleans move own] at stays
    have possible := Run.apply_cleanup own (v := ⟨answers.now, desk.acked, answers.wallClock⟩)
    rw [show r.apply _ move = none from stays] at possible
    cases possible
  cases next with
  | none => exact waits rfl
  | some move =>
    dsimp only
    cases moved : r.apply ⟨answers.now, desk.acked, answers.wallClock⟩ move with
    | none => exact waits moved
    | some p =>
      obtain ⟨r', events⟩ := p
      have run : ∀ r'', some r' = some r'' → ∃ move events,
          r.apply ⟨answers.now, desk.acked, answers.wallClock⟩ move = some (r'', events) :=
        fun _ same => ⟨move, events, by rw [moved, Option.some.inj same]⟩
      dsimp only
      split <;> exact ⟨run, ⟨events, rfl⟩, connections, fun _ => rfl⟩

end Attending

/-- A task with what it has at hand, who may stop it, and what the connection was asked for. -/
structure Workplace (δ μ : Type) where
  run : Run δ μ
  desk : Desk Unit Unit Unit
  controller : Controller
  notes : List (Note μ)

inductive Deed
  | turn (answers : Answers)
  | receive
  | dropReceiver
  | confirm (acked : Lsn)
  | stop
  /-- The controller is given up. -/
  | drop

namespace Workplace

variable {δ μ : Type}

/-- A task that has just been spawned. -/
def spawn (decoder : δ) (interval capacity : Nat) (connections : Connections Unit Unit)
    (acked : Lsn) (now : Nat) : Workplace δ μ :=
  let channel : Channel μ := ⟨capacity, [], true, true⟩
  { run := match connections.replication with
      | some _ => .start decoder interval channel now
      | none => .startWithoutConnection decoder interval channel
    desk := ⟨connections, (), acked, none⟩
    controller := .fresh
    notes := [] }

variable [Decoder δ μ]

/-- One turn of the task; it may have to wait. -/
def turn (w : Workplace δ μ) (answers : Answers) : Workplace δ μ :=
  let ((next, desk), notes) := attend w.run.turn answers w.desk w.notes
  { w with run := next.getD w.run, desk, notes }

def perform (w : Workplace δ μ) : Deed → Workplace δ μ
  | .turn answers => w.turn answers
  | .receive => { w with run := w.run.receive.2 }
  | .dropReceiver => { w with run := w.run.dropReceiver }
  | .confirm acked => { w with desk := { w.desk with acked } }
  | .stop =>
    let (controller, life, _) := w.controller.stop w.run.life
    { w with controller, run := { w.run with life } }
  | .drop => { w with run := { w.run with life := w.controller.drop w.run.life } }

def after (w : Workplace δ μ) (deeds : List Deed) : Workplace δ μ := deeds.foldl perform w

/-- What the consumer finds when it tries to receive. -/
def receipts (w : Workplace δ μ) : List Deed → List (Run.Received μ)
  | [] => []
  | .receive :: deeds => w.run.receive.1 :: receipts (w.perform .receive) deeds
  | deed :: deeds => receipts (w.perform deed) deeds

omit [Decoder δ μ] in
def requests (w : Workplace δ μ) : List Request := w.notes.filterMap Note.request?

section Turn

variable {w : Workplace δ μ}

theorem turned (w : Workplace δ μ) (answers : Answers) :
    Turned w.run answers w.desk w.notes (attend w.run.turn answers w.desk w.notes) := turned_turn

theorem turn_run (w : Workplace δ μ) (answers : Answers) :
    (w.turn answers).run = w.run ∧ w.run.phase.cleanup? = none ∨
      ∃ move events, Run.Makes w.run ⟨answers.now, w.desk.acked, answers.wallClock⟩ move
        (w.turn answers).run events := by
  have turned := w.turned answers
  have same : (w.turn answers).run =
      (attend w.run.turn answers w.desk w.notes).1.1.getD w.run := rfl
  cases next : (attend w.run.turn answers w.desk w.notes).1.1 with
  | none =>
    refine Or.inl ⟨by rw [same, next]; rfl, ?_⟩
    cases cleanup : w.run.phase.cleanup? with
    | none => rfl
    | some move =>
      have moves := turned.cleans (by rw [cleanup]; rfl)
      rw [next] at moves
      cases moves
  | some r' =>
    obtain ⟨move, events, applied⟩ := turned.run r' next
    rw [same, next]
    exact Or.inr ⟨move, events, Run.makes_of_apply applied⟩

/-- A task that cleans up does not wait. -/
theorem makes_of_cleanup {move : Move} (own : w.run.phase.cleanup? = some move)
    (answers : Answers) : ∃ events, Run.Makes w.run
      ⟨answers.now, w.desk.acked, answers.wallClock⟩ move (w.turn answers).run events := by
  obtain ⟨-, idle⟩ | ⟨other, events, makes⟩ := w.turn_run answers
  · rw [own] at idle
    cases idle
  · have same : other = move := by
      generalize (w.turn answers).run = r' at makes
      cases phase : w.run.phase <;> rw [phase] at own <;> cases own <;> cases makes <;> simp_all
    exact ⟨events, same ▸ makes⟩

theorem turn_connections (w : Workplace δ μ) (answers : Answers) :
    (w.turn answers).desk.connections =
      if w.run.phase.isClosing then .empty else w.desk.connections :=
  (w.turned answers).connections

theorem turn_requests (w : Workplace δ μ) (answers : Answers) :
    (w.turn answers).requests = w.requests ++ w.run.requests w.desk.connections := by
  obtain ⟨events, notes⟩ := (w.turned answers).notes
  have same : (w.turn answers).notes = (attend w.run.turn answers w.desk w.notes).2 := rfl
  rw [requests, same, notes, List.filterMap_append, List.filterMap_append, Note.filterMap_asked,
    Note.filterMap_seen, List.append_nil]
  rfl

theorem turn_ended (ended : w.run.phase = .ended) (answers : Answers) :
    (w.turn answers).run = w.run := by
  obtain ⟨same, -⟩ | ⟨move, events, makes⟩ := w.turn_run answers
  · exact same
  · generalize (w.turn answers).run = r' at makes
    cases makes <;> simp_all

end Turn

end Workplace

end ChangeFeed.Feed
