import ChangeFeed.Proofs.Feed.Moves
import Mathlib.Data.List.Induction

/-!
Histories of a feed with its consumer, its controller and the clock. Between two moves of the task
anything may happen: time passes, the consumer receives, confirms or goes away, a stop is requested.
A history tells every step with the situations on both sides of it, the latest step last.
-/
namespace ChangeFeed.Feed

/-- A feed with the position that its consumer has confirmed, at a time in milliseconds. -/
structure Situation (δ μ : Type) where
  run : Run δ μ
  tracker : Tracker
  now : Nat

inductive Act
  /-- The task makes a move, at a time on the wall clock. -/
  | move (move : Move) (wallClock : Int)
  | wait (duration : Nat)
  | receive
  | commit (c : Checkpoint)
  | dropReceiver
  /-- The controller asks the task to stop, or is given up. -/
  | requestStop

-- What is done in a fixed history, and how it ends, can be compared.
deriving instance DecidableEq for Ending, Move, Act

variable {δ μ : Type}

/-- The change for which the feed wants room on the channel. -/
def Phase.offered? : Phase μ → Option (Change μ)
  | .offering c => some c
  | _ => none

@[simp] theorem Phase.offered?_eq_some {p : Phase μ} {c : Change μ} :
    p.offered? = some c ↔ p = .offering c := by
  cases p <;> simp [offered?]

theorem Run.receive_snd (r : Run δ μ) :
    r.receive.2 = { r with
      channel := { r.channel with
        buffer := if r.channel.hasReceiver then r.channel.buffer.tail else r.channel.buffer } } := by
  unfold receive
  split
  · rename_i held
    split
    · rename_i buffer; simp [held, buffer]
    · rename_i buffer
      have same : r.channel.buffer.tail = r.channel.buffer := by rw [buffer]; rfl
      rw [same]
  · rfl

theorem Run.receive_fst {r : Run δ μ} {c : Change μ} (h : r.receive.1 = .change c) :
    r.channel.hasReceiver = true ∧ ∃ rest, r.channel.buffer = c :: rest := by
  unfold receive at h
  split at h
  · rename_i held
    split at h
    · rename_i rest buffer; cases h; exact ⟨held, rest, buffer⟩
    · split at h <;> cases h
  · cases h

namespace Situation

def start (decoder : δ) (interval capacity now : Nat) (tracker : Tracker) : Situation δ μ :=
  ⟨.start decoder interval ⟨capacity, [], true, true⟩ now, tracker, now⟩

section Start

variable (decoder : δ) (interval capacity now : Nat) (tracker : Tracker)

/-- At first the task looks at the clock, unless the clock cannot tell the time of its first report. -/
theorem start_phase :
    (start decoder interval capacity now tracker : Situation δ μ).run.phase = .checking ∨
      (start decoder interval capacity now tracker : Situation δ μ).run.phase = .ended := by
  unfold start
  rcases Run.start_eq decoder interval ⟨capacity, [], true, true⟩ now with ⟨_, _, begun⟩ | ⟨_, begun⟩ <;>
    rw [begun]
  · exact Or.inl rfl
  · exact Or.inr rfl

theorem start_offered :
    (start decoder interval capacity now tracker : Situation δ μ).run.phase.offered? = none := by
  rcases start_phase decoder interval capacity now tracker with phase | phase <;> rw [phase] <;> rfl

/-- Nothing has been decoded and nothing has come of a record, whether or not the task goes on. -/
theorem start_untouched :
    let r := (start decoder interval capacity now tracker : Situation δ μ).run
    r.decoder = decoder ∧ r.interval = interval ∧ r.ledger = .fresh ∧ r.channel.capacity = capacity ∧
      r.channel.buffer = [] := by
  unfold start
  rcases Run.start_eq decoder interval ⟨capacity, [], true, true⟩ now with ⟨_, _, begun⟩ | ⟨_, begun⟩ <;>
    rw [begun] <;> exact ⟨rfl, rfl, rfl, rfl, rfl⟩

theorem start_interval :
    (start decoder interval capacity now tracker : Situation δ μ).run.interval = interval :=
  (start_untouched decoder interval capacity now tracker).2.1

@[simp] theorem start_ledger :
    (start decoder interval capacity now tracker : Situation δ μ).run.ledger = .fresh :=
  (start_untouched decoder interval capacity now tracker).2.2.1

@[simp] theorem start_buffer :
    (start decoder interval capacity now tracker : Situation δ μ).run.channel.buffer = [] :=
  (start_untouched decoder interval capacity now tracker).2.2.2.2

end Start

def view (s : Situation δ μ) (wallClock : Int) : View := ⟨s.now, s.tracker.committed, wallClock⟩

end Situation

/-- What an act makes of a situation, and what is seen of it. -/
inductive Leads [Decoder δ μ] (s : Situation δ μ) :
    Act → Situation δ μ → List (Event μ) → Prop
  | move {m wallClock run events} : s.run.apply (s.view wallClock) m = some (run, events) →
      Leads s (.move m wallClock) { s with run } events
  | wait {duration} : Leads s (.wait duration) { s with now := s.now + duration } []
  | receive : Leads s .receive { s with run := s.run.receive.2 } []
  | commit {c} : Leads s (.commit c) { s with tracker := s.tracker.commit c } []
  | dropReceiver : Leads s .dropReceiver { s with run := s.run.dropReceiver } []
  | requestStop : Leads s .requestStop { s with run := s.run.requestStop } []

structure Step (δ μ : Type) where
  before : Situation δ μ
  act : Act
  events : List (Event μ)
  after : Situation δ μ

inductive Reach [Decoder δ μ] (first : Situation δ μ) : List (Step δ μ) → Situation δ μ → Prop
  | start : Reach first [] first
  | next {steps s act s' events} : Reach first steps s → Leads s act s' events →
      Reach first (steps ++ [⟨s, act, events, s'⟩]) s'

theorem Reach.last [Decoder δ μ] {first s : Situation δ μ} {steps : List (Step δ μ)} {x : Step δ μ}
    (reach : Reach first (steps ++ [x]) s) :
    x.after = s ∧ Reach first steps x.before ∧ Leads x.before x.act s x.events := by
  generalize all : steps ++ [x] = told at reach
  cases reach with
  | start => simp at all
  | next previous leads =>
    obtain ⟨rfl, same⟩ := List.append_inj' all rfl
    cases same
    exact ⟨rfl, previous, leads⟩

theorem Reach.split [Decoder δ μ] {first s : Situation δ μ} {earlier later : List (Step δ μ)}
    (reach : Reach first (earlier ++ later) s) :
    ∃ middle, Reach first earlier middle ∧ Reach middle later s := by
  induction later using List.reverseRecOn generalizing s with
  | nil => exact ⟨s, by simpa using reach, .start⟩
  | append_singleton later x ih =>
    rw [← List.append_assoc] at reach
    obtain ⟨rfl, previous, leads⟩ := reach.last
    obtain ⟨middle, front, back⟩ := ih previous
    exact ⟨middle, front, .next back leads⟩

theorem Reach.at_step [Decoder δ μ] {first s : Situation δ μ} {earlier later : List (Step δ μ)}
    {x : Step δ μ} (reach : Reach first (earlier ++ x :: later) s) :
    Reach first earlier x.before ∧ Leads x.before x.act x.after x.events ∧
      Reach x.after later s := by
  rw [List.append_cons] at reach
  obtain ⟨_, front, back⟩ := reach.split
  obtain ⟨rfl, previous, leads⟩ := front.last
  exact ⟨previous, leads, back⟩

theorem Reach.append [Decoder δ μ] {first middle s : Situation δ μ} {earlier later : List (Step δ μ)}
    (front : Reach first earlier middle) (back : Reach middle later s) :
    Reach first (earlier ++ later) s := by
  induction back with
  | start => simpa using front
  | next _ leads ih => rw [← List.append_assoc]; exact .next ih leads

section Telling

variable [Decoder δ μ]

def Situation.perform? (s : Situation δ μ) : Act → Option (Situation δ μ × List (Event μ))
  | .move m wallClock => (s.run.apply (s.view wallClock) m).map fun p => ({ s with run := p.1 }, p.2)
  | .wait duration => some ({ s with now := s.now + duration }, [])
  | .receive => some ({ s with run := s.run.receive.2 }, [])
  | .commit c => some ({ s with tracker := s.tracker.commit c }, [])
  | .dropReceiver => some ({ s with run := s.run.dropReceiver }, [])
  | .requestStop => some ({ s with run := s.run.requestStop }, [])

theorem Situation.perform?_eq_some {s s' : Situation δ μ} {act : Act} {events : List (Event μ)} :
    s.perform? act = some (s', events) ↔ Leads s act s' events := by
  constructor
  · intro h
    cases act with
    | move m wallClock =>
      obtain ⟨⟨run, seen⟩, moved, same⟩ := Option.map_eq_some_iff.mp h
      cases same
      exact .move moved
    | wait => cases h; exact .wait
    | receive => cases h; exact .receive
    | commit => cases h; exact .commit
    | dropReceiver => cases h; exact .dropReceiver
    | requestStop => cases h; exact .requestStop
  · intro leads
    cases leads with
    | move moved => simp [perform?, moved]
    | _ => rfl

/-- The history of the acts in turn, up to the first one that cannot be done. -/
def history (s : Situation δ μ) : List Act → List (Step δ μ)
  | [] => []
  | act :: acts =>
    match s.perform? act with
    | some (s', events) => ⟨s, act, events, s'⟩ :: history s' acts
    | none => []

theorem reach_history (s : Situation δ μ) (acts : List Act) : ∃ s', Reach s (history s acts) s' := by
  induction acts generalizing s with
  | nil => exact ⟨s, .start⟩
  | cons act acts ih =>
    rw [history]
    split
    · rename_i s' events leads
      obtain ⟨last, reach⟩ := ih s'
      exact ⟨last, Reach.append (.next .start (Situation.perform?_eq_some.mp leads)) reach⟩
    · exact ⟨s, .start⟩

/-- A frame with a record of one byte, the end of a transaction. -/
def commitFrame (start : Lsn) : Frame :=
  .copyData (StreamMessage.layout (.record start start 0 [0x43]))

end Telling

section Records

def Step.frame? (x : Step δ μ) : Option Frame :=
  match x.act with
  | .move (.take (.ok frame)) _ => some frame
  | _ => none

def Step.refreshed? (x : Step δ μ) : Option (Except Error Unit) :=
  match x.act with
  | .move (.refresh outcome) _ => some outcome
  | _ => none

def Step.commit? (x : Step δ μ) : Option Checkpoint :=
  match x.act with
  | .commit c => some c
  | _ => none

def Step.received? (x : Step δ μ) : Option (Change μ) :=
  match x.act, x.before.run.receive.1 with
  | .receive, .change c => some c
  | _, _ => none

/-- The change that was made of a record in a step. -/
def Step.kept? (x : Step δ μ) : Option (Change μ) :=
  match x.before.run.phase.offered? with
  | some _ => none
  | none => x.after.run.phase.offered?

def Step.dropped? (x : Step δ μ) : Option (Change μ) :=
  match x.act with
  | .move .abandon _ | .move .lose _ => x.before.run.phase.offered?
  | _ => none

/-- The error with which the transport failed in a step. -/
def Step.failure? (x : Step δ μ) : Option Error :=
  match x.act with
  | .move (.take (.error e)) _ | .move (.report (.error e)) _ => some e
  | _ => none

def Event.sent? : Event μ → Option (Change μ)
  | .sent c => some c
  | _ => none

def Event.reported? : Event μ → Option StatusUpdate
  | .reported u => some u
  | _ => none

def frames (steps : List (Step δ μ)) : List Frame := steps.filterMap Step.frame?

def refreshes (steps : List (Step δ μ)) : List (Except Error Unit) := steps.filterMap Step.refreshed?

def commits (steps : List (Step δ μ)) : List Checkpoint := steps.filterMap Step.commit?

def received (steps : List (Step δ μ)) : List (Change μ) := steps.filterMap Step.received?

/-- The changes made of records that were not skipped, wherever they went from there. -/
def kept (steps : List (Step δ μ)) : List (Change μ) := steps.filterMap Step.kept?

/-- The changes that were made of records and never got onto the channel. -/
def dropped (steps : List (Step δ μ)) : List (Change μ) := steps.filterMap Step.dropped?

def failures (steps : List (Step δ μ)) : List Error := steps.filterMap Step.failure?

def events (steps : List (Step δ μ)) : List (Event μ) := steps.flatMap Step.events

def sent (steps : List (Step δ μ)) : List (Change μ) := (events steps).filterMap Event.sent?

def reports (steps : List (Step δ μ)) : List StatusUpdate := (events steps).filterMap Event.reported?

def recordEnds (steps : List (Step δ μ)) : List Nat := (frames steps).filterMap Frame.recordEnd?

variable (a b : List (Step δ μ)) (x : Step δ μ)

@[simp] theorem frames_append : frames (a ++ b) = frames a ++ frames b := List.filterMap_append
@[simp] theorem refreshes_append : refreshes (a ++ b) = refreshes a ++ refreshes b :=
  List.filterMap_append
@[simp] theorem commits_append : commits (a ++ b) = commits a ++ commits b := List.filterMap_append
@[simp] theorem received_append : received (a ++ b) = received a ++ received b :=
  List.filterMap_append
@[simp] theorem kept_append : kept (a ++ b) = kept a ++ kept b := List.filterMap_append
@[simp] theorem dropped_append : dropped (a ++ b) = dropped a ++ dropped b := List.filterMap_append
@[simp] theorem failures_append : failures (a ++ b) = failures a ++ failures b :=
  List.filterMap_append
@[simp] theorem events_append : events (a ++ b) = events a ++ events b := List.flatMap_append
@[simp] theorem sent_append : sent (a ++ b) = sent a ++ sent b := by simp [sent]
@[simp] theorem reports_append : reports (a ++ b) = reports a ++ reports b := by simp [reports]
@[simp] theorem recordEnds_append : recordEnds (a ++ b) = recordEnds a ++ recordEnds b := by
  simp [recordEnds]

omit x in
theorem filterMap_singleton {α β : Type} (f : α → Option β) (a : α) : [a].filterMap f = (f a).toList := by
  cases h : f a <;> simp [h]

@[simp] theorem frames_singleton : frames [x] = x.frame?.toList := filterMap_singleton ..
@[simp] theorem refreshes_singleton : refreshes [x] = x.refreshed?.toList := filterMap_singleton ..
@[simp] theorem kept_singleton : kept [x] = x.kept?.toList := filterMap_singleton ..
@[simp] theorem dropped_singleton : dropped [x] = x.dropped?.toList := filterMap_singleton ..
@[simp] theorem failures_singleton : failures [x] = x.failure?.toList := filterMap_singleton ..
@[simp] theorem sent_singleton : sent [x] = x.events.filterMap Event.sent? := by simp [sent, events]
@[simp] theorem reports_singleton : reports [x] = x.events.filterMap Event.reported? := by
  simp [reports, events]

theorem Step.frame?_eq_some {x : Step δ μ} {frame : Frame} :
    x.frame? = some frame ↔ ∃ wallClock, x.act = .move (.take (.ok frame)) wallClock := by
  unfold frame?
  split
  · rename_i act; simp [act]
  · rename_i other
    simp only [reduceCtorEq, false_iff, not_exists]
    exact other frame

theorem Step.refreshed?_eq_some {x : Step δ μ} {outcome : Except Error Unit} :
    x.refreshed? = some outcome ↔ ∃ wallClock, x.act = .move (.refresh outcome) wallClock := by
  unfold refreshed?
  split
  · rename_i act; simp [act]
  · rename_i other
    simp only [reduceCtorEq, false_iff, not_exists]
    exact other outcome

theorem Step.commit?_eq_some {x : Step δ μ} {c : Checkpoint} :
    x.commit? = some c ↔ x.act = .commit c := by
  unfold commit?
  split
  · rename_i act; simp [act]
  · rename_i other
    simp only [reduceCtorEq, false_iff]
    exact other c

theorem recordEnds_of_frame {steps : List (Step δ μ)} {x : Step δ μ} {frame : Frame} {e : Nat}
    (taken : x.frame? = some frame) (ends : frame.recordEnd? = some e) :
    recordEnds (steps ++ [x]) = recordEnds steps ++ [e] := by
  simp [recordEnds, frames, taken, ends]

theorem Step.kept?_of_after {x : Step δ μ} (h : x.after.run.phase.offered? = none) : x.kept? = none := by
  unfold kept?
  split
  · rfl
  · exact h

theorem Step.kept?_of_same {x : Step δ μ} (h : x.after.run.phase = x.before.run.phase) :
    x.kept? = none := by
  unfold kept?
  split
  · rfl
  · rename_i none; rw [h, none]

theorem mem_kept {c : Change μ} {steps : List (Step δ μ)} :
    c ∈ kept steps ↔ ∃ x ∈ steps, x.kept? = some c := List.mem_filterMap

theorem Leads.report_eq [Decoder δ μ] {s s' : Situation δ μ} {act : Act} {events : List (Event μ)}
    {u : StatusUpdate} (leads : Leads s act s' events) (reported : .reported u ∈ events) :
    ∃ wallClock, act = .move .check wallClock ∧ s'.run.phase = .reporting u ∧
      s'.run.ledger = s.run.ledger.report s.tracker.committed ∧
      u = .acknowledge s'.run.ledger.reported wallClock := by
  cases leads with
  | move h =>
    cases Run.makes_of_apply h with
    | due =>
      cases List.mem_singleton.mp reported
      exact ⟨_, rfl, rfl, rfl, rfl⟩
    | take _ _ takes => cases takes <;> simp at reported
    | _ => simp at reported
  | _ => cases reported

end Records

end ChangeFeed.Feed
