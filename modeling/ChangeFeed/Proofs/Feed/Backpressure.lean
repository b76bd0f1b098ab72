import ChangeFeed.Pglogical.Frame
import ChangeFeed.Proofs.Feed.Stopping

/-!
How far the feed runs ahead of its consumer. Main statement: never by more than the changes that the
channel holds and one more, and a task whose change finds no room does nothing at all until there is
room, nobody receives any more or it is asked to stop.
-/
namespace ChangeFeed.Feed

variable {δ μ : Type}

/-- The task has a change for which there is no room, and nothing else to turn to. -/
structure Run.Blocked (r : Run δ μ) (c : Change μ) : Prop where
  offering : r.phase = .offering c
  received : r.channel.hasReceiver = true
  full : r.channel.capacity ≤ r.channel.buffer.length
  running : r.life.stopRequested = false

/-- The consumer receives or goes away, or the task is asked to stop. -/
def Step.relieves (x : Step δ μ) : Bool :=
  match x.act with
  | .receive | .dropReceiver | .requestStop => true
  | _ => false

/-- The one move with which the task stops waiting for room, and what allows it. -/
inductive Step.Settles (x : Step δ μ) (c : Change μ) : Prop
  | delivered {wallClock} : x.act = .move .deliver wallClock →
      x.before.run.channel.hasReceiver = true →
      x.before.run.channel.buffer.length < x.before.run.channel.capacity →
      x.events = [.sent c] → x.Settles c
  | lost {wallClock} : x.act = .move .lose wallClock → x.before.run.channel.hasReceiver = false →
      x.events = [] → x.Settles c
  | abandoned {wallClock} : x.act = .move .abandon wallClock →
      x.before.run.life.stopRequested = true → x.events = [] → x.Settles c

/-- What a step makes of the channel, with the changes that it puts there and that it takes away. -/
inductive Channel.Passes (a b : Channel μ) : List (Change μ) → List (Change μ) → Prop
  | rests : b.buffer = a.buffer → b.hasReceiver = a.hasReceiver → Passes a b [] []
  | enters {c} : a.hasReceiver = true → a.buffer.length < a.capacity →
      b.buffer = a.buffer ++ [c] → Passes a b [c] []
  | leaves {c} : a.hasReceiver = true → a.buffer = c :: b.buffer → Passes a b [] [c]
  | closes : b.hasReceiver = false → b.buffer = [] → Passes a b [] []

/-- How many changes the channel holds, and how many have gone through it. -/
structure Metered (capacity : Nat) (steps : List (Step δ μ)) (s : Situation δ μ) : Prop where
  size : s.run.channel.capacity = capacity
  room : s.run.channel.buffer.length ≤ capacity
  line : s.run.channel.hasReceiver = true → sent steps = received steps ++ s.run.channel.buffer
  ahead : (sent steps).length ≤ (received steps).length + capacity

/-- An attempt to receive that finds no change leaves everything as it is. -/
theorem Run.receive_snd_of_ne {r : Run δ μ} (nothing : ∀ c, r.receive.1 ≠ .change c) :
    r.receive.2 = r := by
  unfold receive at nothing ⊢
  split
  · split
    · rename_i held _ c _ buffer
      exact absurd (by simp [held, buffer]) (nothing c)
    · rfl
  · rfl

variable [Decoder δ μ] {s s' : Situation δ μ} {act : Act} {events : List (Event μ)}
  {steps : List (Step δ μ)} {capacity : Nat} {c : Change μ}

theorem Leads.passes (leads : Leads s act s' events) :
    s'.run.channel.capacity = s.run.channel.capacity ∧
      s.run.channel.Passes s'.run.channel (sent [⟨s, act, events, s'⟩])
        (received [⟨s, act, events, s'⟩]) := by
  rw [sent_singleton]
  cases leads with
  | move h =>
    cases Run.makes_of_apply h with
    | take _ _ takes => cases takes <;> exact ⟨rfl, .rests rfl rfl⟩
    | deliver _ held room => exact ⟨rfl, .enters held room rfl⟩
    | _ => exact ⟨rfl, .rests rfl rfl⟩
  | receive =>
    cases found : s.run.receive.1 with
    | change c =>
      obtain ⟨held, rest, buffer⟩ := Run.receive_fst found
      have taken : received [⟨s, .receive, [], { s with run := s.run.receive.2 }⟩] = [c] := by
        simp [received, Step.received?, found]
      rw [taken, Run.receive_snd]
      exact ⟨rfl, .leaves held (by simp [held, buffer])⟩
    | _ =>
      have same : s.run.receive.2 = s.run := Run.receive_snd_of_ne (by simp [found])
      have none : received [⟨s, .receive, [], { s with run := s.run.receive.2 }⟩] = [] := by
        simp [received, Step.received?, found]
      rw [none, same]
      exact ⟨rfl, .rests rfl rfl⟩
  | dropReceiver => exact ⟨rfl, .closes rfl rfl⟩
  | _ => exact ⟨rfl, .rests rfl rfl⟩

theorem Metered.next (metered : Metered capacity steps s) (leads : Leads s act s' events) :
    Metered capacity (steps ++ [⟨s, act, events, s'⟩]) s' := by
  obtain ⟨size, room, line, ahead⟩ := metered
  obtain ⟨same, passes⟩ := leads.passes
  rw [size] at same
  generalize puts : sent [⟨s, act, events, s'⟩] = put at passes
  generalize gets : received [⟨s, act, events, s'⟩] = got at passes
  cases passes with
  | rests buffer held =>
    refine ⟨same, by rwa [buffer], ?_, by simpa [puts, gets] using ahead⟩
    simpa [puts, gets, buffer, held] using line
  | enters held free buffer =>
    have front := line held
    rw [size] at free
    refine ⟨same, by simp [buffer]; omega, fun _ => by simp [puts, gets, front, buffer], ?_⟩
    simp [puts, gets, front]
    omega
  | leaves held buffer =>
    have front := line held
    rw [buffer] at front room
    refine ⟨same, Nat.le_of_succ_le room, fun _ => by simp [puts, gets, front], ?_⟩
    simp [puts, gets]
    omega
  | closes gone buffer =>
    refine ⟨same, by simp [buffer], fun held => ?_, by simpa [puts, gets] using ahead⟩
    rw [gone] at held
    cases held

theorem Reach.metered {decoder : δ} {interval now : Nat} {tracker : Tracker}
    (reach : Reach (.start decoder interval capacity now tracker) steps s) :
    Metered capacity steps s := by
  induction reach with
  | start =>
    refine ⟨?_, by simp, by simp [sent, received, Feed.events], by simp [sent, Feed.events]⟩
    exact (Situation.start_untouched ..).2.2.2.1
  | next _ leads ih => exact ih.next leads

/-- While a change waits for room, the task makes no move but the one that ends the wait. -/
theorem Leads.settles (leads : Leads s act s' events) (offering : s.run.phase = .offering c) :
    (Step.Settles ⟨s, act, events, s'⟩ c) ∨
      Step.isMove ⟨s, act, events, s'⟩ = false ∧ events = [] ∧ s'.run.phase = .offering c := by
  cases leads with
  | move h =>
    cases Run.makes_of_apply h with
    | deliver phase held free =>
      rw [offering] at phase
      cases phase
      exact Or.inl (.delivered rfl held free rfl)
    | lose _ gone => exact Or.inl (.lost rfl gone rfl)
    | abandon _ _ _ stop => exact Or.inl (.abandoned rfl stop rfl)
    | _ => simp_all
  | receive => rw [Run.receive_snd]; exact Or.inr ⟨rfl, rfl, offering⟩
  | _ => exact Or.inr ⟨rfl, rfl, offering⟩

/-- A task that finds no room goes on finding none, whatever happens but what relieves it. -/
theorem Leads.blocked (leads : Leads s act s' events) (blocked : s.run.Blocked c)
    (alone : Step.relieves ⟨s, act, events, s'⟩ = false) :
    Step.isMove ⟨s, act, events, s'⟩ = false ∧ events = [] ∧ s'.run.Blocked c := by
  obtain ⟨offering, held, full, running⟩ := id blocked
  rcases leads.settles offering with settles | ⟨still, silent, -⟩
  · cases settles with
    | delivered _ _ free => exact absurd free (Nat.not_lt.mpr full)
    | lost _ gone => rw [held] at gone; cases gone
    | abandoned _ stop => rw [running] at stop; cases stop
  · refine ⟨still, silent, ?_⟩
    cases leads with
    | move => cases still
    | receive | dropReceiver | requestStop => cases alone
    | _ => exact blocked

theorem Reach.blocked {first : Situation δ μ} (reach : Reach first steps s)
    (blocked : first.run.Blocked c) (alone : ∀ x ∈ steps, x.relieves = false) :
    s.run.Blocked c ∧ ∀ x ∈ steps, x.isMove = false ∧ x.events = [] ∧ x.after.run.Blocked c := by
  induction reach with
  | start => exact ⟨blocked, by simp⟩
  | next _ leads ih =>
    obtain ⟨before, still⟩ := ih fun x member => alone x (by simp [member])
    have step := leads.blocked before (alone _ (by simp))
    refine ⟨step.2.2, fun x member => ?_⟩
    rcases List.mem_append.mp member with old | new
    · exact still x old
    · cases List.mem_singleton.mp new
      exact step

omit [Decoder δ μ] in
/-- A blocked task asks nothing of what surrounds it. -/
theorem Run.Blocked.nextMove {r : Run δ μ} (blocked : r.Blocked c) {m : Type → Type} [Monad m]
    (around : Surroundings m μ) (v : View) : @nextMove δ μ m _ around r v = pure none := by
  obtain ⟨offering, held, full, running⟩ := blocked
  simp [Run.nextMove, offering, held, running, Nat.not_lt.mpr full]

theorem Reach.kept_length_le {decoder : δ} {interval now : Nat} {tracker : Tracker}
    (reach : Reach (.start decoder interval capacity now tracker) steps s) :
    (Feed.kept steps).length ≤ (received steps).length + capacity + 1 := by
  have ahead := reach.metered.ahead
  rw [reach.kept_eq (Situation.start_offered ..)]
  rcases reach.account.2 with none | ⟨one, spent⟩
  · cases s.run.phase.offered? <;> simp [none] <;> omega
  · simp [spent.idle, one]
    omega

/-- The changes made of records are never more than those that were received, those that the channel can
hold and one, and the channel never holds more than it can. The task stops waiting for room by one move
only, which puts the change on the channel, gives it up because nobody receives or gives it up because a
stop is requested. From the moment that there is no room until the consumer receives or goes away or a
stop is requested, it makes no move, so that it takes no frame, decodes nothing, refreshes nothing and
reports nothing, and it does not ask for a frame or the end of a refresh either. -/
theorem Reach.backpressure {decoder : δ} {interval capacity now : Nat} {tracker : Tracker}
    (reach : Reach (.start decoder interval capacity now tracker) steps s) :
    (Feed.kept steps).length ≤ (received steps).length + capacity + 1 ∧
      s.run.channel.buffer.length ≤ capacity ∧
      (∀ earlier x later c, steps = earlier ++ x :: later → x.before.run.phase = .offering c →
        x.Settles c ∨ x.isMove = false ∧ x.events = [] ∧ x.after.run.phase = .offering c) ∧
      (∀ earlier x between later c, steps = earlier ++ x :: (between ++ later) →
        x.after.run.Blocked c → (∀ y ∈ between, y.relieves = false) →
        ∀ y ∈ between, y.isMove = false ∧ y.events = [] ∧ y.after.run.Blocked c) ∧
      ∀ c, s.run.Blocked c → ∀ (m : Type → Type) [Monad m] (around : Surroundings m μ) v,
        @Run.nextMove δ μ m _ around s.run v = pure none := by
  refine ⟨reach.kept_length_le, reach.metered.room, ?_, ?_, fun c blocked m _ around v =>
    blocked.nextMove around v⟩
  · rintro earlier x later c rfl offering
    obtain ⟨-, leads, -⟩ := reach.at_step
    exact leads.settles offering
  · rintro earlier x between later c rfl blocked alone
    obtain ⟨-, -, after⟩ := reach.at_step
    obtain ⟨_, waiting, -⟩ := after.split
    exact (waiting.blocked blocked alone).2

/-- There is room for one change, and the second one waits while time passes and the consumer confirms. -/
theorem backpressure_with_room_for_one :
    let first : Situation Pglogical.Relations Pglogical.Message := .start .empty 5 1 0 ⟨.zero⟩
    let steps := history first
      [.move .check 0, .move (.take (.ok (commitFrame ⟨10, by decide⟩))) 0, .move .deliver 0,
        .move .check 0, .move (.take (.ok (commitFrame ⟨20, by decide⟩))) 0, .wait 60,
        .commit ⟨⟨11, by decide⟩, .epoch⟩]
    (kept steps).length = 2 ∧ (received steps).length = 0 ∧
      (kept steps).length ≤ (received steps).length + 1 + 1 ∧
      ∃ x between c, steps = steps.take 4 ++ x :: between ∧ between.length = 2 ∧
        x.after.run.Blocked c ∧
        ∀ y ∈ between, y.isMove = false ∧ y.events = [] ∧ y.after.run.Blocked c := by
  intro first steps
  obtain ⟨s, reach⟩ : ∃ s, Reach first steps s := reach_history _ _
  obtain ⟨bound, -, -, waits, -⟩ := reach.backpressure
  let x := steps.get ⟨4, by decide +kernel⟩
  have cut : steps = steps.take 4 ++ x :: (steps.drop 5 ++ []) := by
    rw [List.append_nil]
    exact ((congrArg _ (List.drop_eq_getElem_cons _).symm).trans (List.take_append_drop 4 steps)).symm
  have offering : x.after.run.phase.offered?.isSome = true := by decide +kernel
  obtain ⟨c, offered⟩ := Option.isSome_iff_exists.mp offering
  have blocked : x.after.run.Blocked c :=
    ⟨Phase.offered?_eq_some.mp offered, by decide +kernel, by decide +kernel, by decide +kernel⟩
  exact ⟨by decide +kernel, by decide +kernel, bound, x, steps.drop 5, c, by rwa [List.append_nil] at cut,
    by decide +kernel, blocked, waits _ _ _ [] c cut blocked (by decide +kernel)⟩

end ChangeFeed.Feed
