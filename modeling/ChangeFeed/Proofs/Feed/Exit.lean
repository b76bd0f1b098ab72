import ChangeFeed.Proofs.Feed.Stopping
import ChangeFeed.Proofs.Feed.Workplace

/-!
How a task ends. Main statements: it closes the connection once and asks nothing of it afterwards,
then it lets go of the channel, and then it reports that it has stopped; what is in the channel
stays there for the consumer.
-/
namespace ChangeFeed

/-- The states in the order in which they follow each other. -/
def LoopState.rank : LoopState → Nat
  | .running => 0
  | .stopRequested => 1
  | .stopped => 2

theorem LoopState.rank_le_stopped (s : LoopState) : s.rank ≤ LoopState.stopped.rank := by
  cases s <;> decide

theorem Lifecycle.rank_le_requestStop (l : Lifecycle) :
    l.state.rank ≤ l.requestStop.state.rank := by
  unfold requestStop
  split
  · rename_i running; rw [running]; exact Nat.zero_le _
  · exact Nat.le_refl _

@[simp] theorem Lifecycle.requestStop_ending (l : Lifecycle) : l.requestStop.ending = l.ending := by
  unfold requestStop
  split <;> rfl

@[simp] theorem Lifecycle.requestStop_stopped (l : Lifecycle) :
    l.requestStop.state = .stopped ↔ l.state = .stopped := by
  unfold requestStop
  split <;> simp_all

namespace Feed

section Run

variable {δ μ : Type}

def Run.Received.change? : Run.Received μ → Option (Change μ)
  | .change c => some c
  | _ => none

theorem Run.receive_held {r : Run δ μ} (held : r.channel.hasReceiver = true) :
    r.receive.1.change?.toList ++ r.receive.2.channel.buffer = r.channel.buffer := by
  cases buffer : r.channel.buffer with
  | nil =>
    cases sender : r.channel.hasSender <;>
      simp [receive, held, buffer, sender, Received.change?]
  | cons c rest => simp [receive, held, buffer, Received.change?]

theorem Run.receive_of_released {r : Run δ μ} (held : r.channel.hasReceiver = true)
    (released : r.channel.hasSender = false) :
    r.receive.1 = r.channel.buffer.head?.elim .closed .change := by
  cases buffer : r.channel.buffer <;> simp [receive, held, buffer, released]

/-- A task at work goes on, begins to clean up, or breaks off. -/
theorem Run.Makes.of_working [Decoder δ μ] {r r' : Run δ μ} {v : View} {move : Move}
    {events : List (Event μ)} (makes : Run.Makes r v move r' events)
    (working : r.phase.working = true) :
    (r'.phase.working = true ∨ r'.phase.isClosing = true) ∧
        r'.channel.hasSender = r.channel.hasSender ∧ r'.life = r.life ∨
      r'.phase = .ended ∧ ∃ task message, r'.life = r.life.finish (.panicked task message) := by
  cases makes with
  | breakOff => exact Or.inr ⟨rfl, _, _, rfl⟩
  | take _ _ takes =>
    cases takes <;>
      exact Or.inl ⟨by simp [conclude, hurry, skip, forward, Phase.working, Phase.isClosing], rfl,
        rfl⟩
  | close phase | release phase | publish phase => rw [phase] at working; cases working
  | _ =>
    exact Or.inl ⟨by simp [conclude, hurry, skip, forward, Phase.working, Phase.isClosing], rfl,
      rfl⟩

end Run

namespace Workplace

variable {δ μ : Type}

/-- The connection, if there was one, is closed: nothing was asked of it afterwards. -/
structure Closed (connected : Bool) (w : Workplace δ μ) : Prop where
  absent : w.desk.connections.replication = none
  last : if connected then ∃ before, w.requests = before ++ [.close] ∧ .close ∉ before
    else w.requests = []

/-- The task has not broken off. -/
def Sound (w : Workplace δ μ) : Prop :=
  ∀ task message, w.run.life.ending ≠ some (.panicked task message)

/-- How far the task has come on its way out. -/
inductive Stage (connected : Bool) (w : Workplace δ μ) : Prop
  | before : w.run.phase.working = true ∨ w.run.phase.isClosing = true →
      w.run.channel.hasSender = true → w.run.life.state ≠ .stopped →
      w.desk.connections.replication.isSome = connected → .close ∉ w.requests →
      (connected = false → w.requests = []) → Stage connected w
  | closed {result} : w.run.phase = .releasing result → w.run.channel.hasSender = true →
      w.run.life.state ≠ .stopped → w.Closed connected → Stage connected w
  | released {result} : w.run.phase = .publishing result → w.run.channel.hasSender = false →
      w.run.life.state ≠ .stopped → w.Closed connected → Stage connected w
  | ended {result} : w.run.phase = .ended → w.run.life = ⟨.stopped, some (.returned result)⟩ →
      w.run.channel.hasSender = false → w.Closed connected → Stage connected w
  | broken {task message} : w.run.phase = .ended →
      w.run.life.ending = some (.panicked task message) → Stage connected w

variable [Decoder δ μ]

section Turn

variable {w : Workplace δ μ} {connected : Bool}

theorem Closed.turn (closed : w.Closed connected) (answers : Answers) :
    (w.turn answers).Closed connected := by
  obtain ⟨absent, last⟩ := closed
  constructor
  · rw [turn_connections]
    split
    · rfl
    · exact absent
  · rw [turn_requests, Run.requests_absent absent, List.append_nil]
    exact last

theorem closed_of_closing (closing : w.run.phase.isClosing = true)
    (present : w.desk.connections.replication.isSome = connected) (open' : .close ∉ w.requests)
    (unasked : connected = false → w.requests = []) (answers : Answers) :
    (w.turn answers).Closed connected := by
  constructor
  · rw [turn_connections, if_pos closing]; rfl
  · rw [turn_requests]
    cases connected with
    | true => exact ⟨w.requests, by rw [Run.requests_closing closing present], open'⟩
    | false =>
      have absent := Option.not_isSome_iff_eq_none.mp (by rw [present]; simp)
      rw [unasked rfl, Run.requests_absent absent]
      rfl

theorem Stage.going (unfinished : w.run.phase.working = true)
    (present : w.desk.connections.replication.isSome = connected) (open' : .close ∉ w.requests)
    (unasked : connected = false → w.requests = []) (answers : Answers)
    (unfinished' : (w.turn answers).run.phase.working = true ∨
      (w.turn answers).run.phase.isClosing = true)
    (sender : (w.turn answers).run.channel.hasSender = true)
    (unstopped : (w.turn answers).run.life.state ≠ .stopped) :
    (w.turn answers).Stage connected := by
  have closing : w.run.phase.isClosing = false := by
    cases phase : w.run.phase <;> simp_all [Phase.working, Phase.isClosing]
  refine .before unfinished' sender unstopped ?_ ?_ ?_
  · rw [turn_connections, closing]; exact present
  · rw [turn_requests, List.mem_append]
    exact not_or.mpr ⟨open', Run.requests_open closing _⟩
  · intro unconnected
    have absent := Option.not_isSome_iff_eq_none.mp (by rw [present, unconnected]; simp)
    rw [turn_requests, unasked unconnected, Run.requests_absent absent]
    rfl

theorem Stage.turn (stage : w.Stage connected) (answers : Answers) :
    (w.turn answers).Stage connected := by
  cases stage with
  | before unfinished sender unstopped present open' unasked =>
    rcases unfinished with working | closing
    · have going := Stage.going working present open' unasked answers
      obtain ⟨same, -⟩ | ⟨move, events, makes⟩ := w.turn_run answers
      · rw [same] at going
        exact going (Or.inl working) sender unstopped
      · rcases makes.of_working working with
          ⟨unfinished, channel, life⟩ | ⟨ended, task, message, panicked⟩
        · exact going unfinished (channel.trans sender) (life ▸ unstopped)
        · exact .broken ended (by rw [panicked]; rfl)
    · have closed := closed_of_closing closing present open' unasked answers
      have cleans : w.run.phase.cleanup? = some .close := by
        cases phase : w.run.phase <;> simp_all [Phase.isClosing, Phase.cleanup?]
      obtain ⟨events, makes⟩ := makes_of_cleanup cleans answers
      generalize own : (w.turn answers).run = r' at makes
      cases makes with
      | close =>
        exact .closed (by rw [own]) (by rw [own]; exact sender) (by rw [own]; exact unstopped) closed
  | closed phase sender unstopped closed =>
    have cleans : w.run.phase.cleanup? = some .release := by rw [phase]; rfl
    obtain ⟨events, makes⟩ := makes_of_cleanup cleans answers
    generalize own : (w.turn answers).run = r' at makes
    cases makes with
    | release =>
      exact .released (by rw [own]) (by rw [own]) (by rw [own]; exact unstopped)
        (closed.turn answers)
  | released phase sender unstopped closed =>
    have cleans : w.run.phase.cleanup? = some .publish := by rw [phase]; rfl
    obtain ⟨events, makes⟩ := makes_of_cleanup cleans answers
    generalize own : (w.turn answers).run = r' at makes
    cases makes with
    | publish =>
      exact .ended (by rw [own]) (by rw [own]; rfl) (by rw [own]; exact sender)
        (closed.turn answers)
  | ended phase life sender closed =>
    have same := turn_ended phase answers
    exact .ended (by rw [same, phase]) (by rw [same, life]) (by rw [same, sender])
      (closed.turn answers)
  | broken phase panicked =>
    have same := turn_ended phase answers
    exact .broken (by rw [same, phase]) (by rw [same, panicked])

end Turn

section Course

variable {w w' : Workplace δ μ} {connected : Bool}

omit [Decoder δ μ] in
theorem Closed.keep (closed : w.Closed connected)
    (connections : w'.desk.connections = w.desk.connections) (notes : w'.notes = w.notes) :
    w'.Closed connected := by
  obtain ⟨absent, last⟩ := closed
  exact ⟨by rw [connections, absent], by rw [requests, notes]; exact last⟩

omit [Decoder δ μ] in
/-- What others do changes the course of the task in nothing but a request to stop. -/
theorem Stage.keep (stage : w.Stage connected) (phase : w'.run.phase = w.run.phase)
    (channel : w'.run.channel.hasSender = w.run.channel.hasSender)
    (life : w'.run.life = w.run.life ∨ w'.run.life = w.run.life.requestStop)
    (connections : w'.desk.connections = w.desk.connections) (notes : w'.notes = w.notes) :
    w'.Stage connected := by
  have asked : w'.requests = w.requests := by rw [requests, notes]; rfl
  have closed' := fun closed : w.Closed connected => closed.keep connections notes
  have state : w.run.life.state ≠ .stopped → w'.run.life.state ≠ .stopped := by
    rcases life with life | life <;> rw [life]
    · exact id
    · exact mt w.run.life.requestStop_stopped.mp
  have ending : w'.run.life.ending = w.run.life.ending := by
    rcases life with life | life <;> rw [life]
    exact w.run.life.requestStop_ending
  cases stage with
  | before unfinished sender unstopped present open' unasked =>
    exact .before (phase ▸ unfinished) (channel.trans sender) (state unstopped)
      (by rw [connections, present]) (asked ▸ open') (asked ▸ unasked)
  | closed own sender unstopped closed =>
    exact .closed (phase.trans own) (channel.trans sender) (state unstopped) (closed' closed)
  | released own sender unstopped closed =>
    exact .released (phase.trans own) (channel.trans sender) (state unstopped) (closed' closed)
  | ended own stopped sender closed =>
    have same : w'.run.life = w.run.life := by
      rcases life with life | life <;> rw [life, stopped]
      rfl
    exact .ended (phase.trans own) (same.trans stopped) (channel.trans sender) (closed' closed)
  | broken own panicked => exact .broken (phase.trans own) (ending.trans panicked)

theorem perform_receive (w : Workplace δ μ) :
    (w.perform .receive).run = { w.run with
      channel := { w.run.channel with
        buffer := if w.run.channel.hasReceiver then w.run.channel.buffer.tail
          else w.run.channel.buffer } } :=
  w.run.receive_snd

theorem Stage.perform (stage : w.Stage connected) (deed : Deed) :
    (w.perform deed).Stage connected := by
  cases deed with
  | turn answers => exact stage.turn answers
  | receive =>
    have after := w.perform_receive
    exact stage.keep (by rw [after]) (by rw [after]) (by rw [after]; exact Or.inl rfl) rfl rfl
  | stop | drop => exact stage.keep rfl rfl (Or.inr rfl) rfl rfl
  | _ => exact stage.keep rfl rfl (Or.inl rfl) rfl rfl

theorem Stage.after (stage : w.Stage connected) (deeds : List Deed) :
    (w.after deeds).Stage connected := by
  induction deeds generalizing w with
  | nil => exact stage
  | cons deed deeds ih => exact ih (stage.perform deed)

omit [Decoder δ μ] in
theorem Stage.spawn (decoder : δ) (interval capacity : Nat) (connections : Connections Unit Unit)
    (acked : Lsn) (now : Nat) :
    (spawn decoder interval capacity connections acked now : Workplace δ μ).Stage
      connections.replication.isSome := by
  obtain ⟨control, replication⟩ := connections
  cases replication with
  | none => exact .before (Or.inr rfl) rfl nofun rfl nofun fun _ => rfl
  | some =>
    have course : (Workplace.spawn decoder interval capacity ⟨control, some ()⟩ acked now :
        Workplace δ μ).run = .start decoder interval ⟨capacity, [], true, true⟩ now := rfl
    rcases Run.start_eq decoder interval ⟨capacity, [], true, true⟩ now with ⟨_, _, begun⟩ | ⟨_, begun⟩ <;>
      rw [begun] at course
    · exact .before (Or.inl (by rw [course]; rfl)) (by rw [course]; rfl) (by rw [course]; nofun) rfl
        nofun nofun
    · exact .broken (by rw [course]; rfl) (by rw [course]; rfl)

end Course

section States

variable {w : Workplace δ μ}

theorem rank_le_perform (w : Workplace δ μ) (deed : Deed) :
    w.run.life.state.rank ≤ (w.perform deed).run.life.state.rank := by
  cases deed with
  | turn answers =>
    obtain ⟨same, -⟩ | ⟨move, events, makes⟩ := w.turn_run answers
    · exact Nat.le_of_eq (by rw [perform, same])
    · rw [perform]
      generalize (w.turn answers).run = r' at makes
      cases makes with
      | take _ _ takes => cases takes <;> exact Nat.le_refl _
      | publish => exact LoopState.rank_le_stopped _
      | _ => exact Nat.le_refl _
  | receive => exact Nat.le_of_eq (by rw [perform_receive])
  | stop => exact w.run.life.rank_le_requestStop
  | drop => exact w.run.life.rank_le_requestStop
  | _ => exact Nat.le_refl _

theorem rank_le_after (w : Workplace δ μ) (deeds : List Deed) :
    w.run.life.state.rank ≤ (w.after deeds).run.life.state.rank := by
  induction deeds generalizing w with
  | nil => exact Nat.le_refl _
  | cons deed deeds ih => exact Nat.le_trans (w.rank_le_perform deed) (ih _)

/-- Once the work is over, the buffer changes only at the consumer's end. -/
theorem turn_over (finished : w.run.phase.working = false) (answers : Answers) :
    (w.turn answers).run.phase.working = false ∧
      (w.turn answers).run.channel.buffer = w.run.channel.buffer ∧
      (w.turn answers).run.channel.hasReceiver = w.run.channel.hasReceiver ∧
      (w.turn answers).run.phase.remaining = w.run.phase.remaining - 1 ∧
      (w.Sound → (w.turn answers).Sound) := by
  obtain ⟨same, idle⟩ | ⟨move, events, makes⟩ := w.turn_run answers
  · rw [Sound, Sound, same]
    refine ⟨finished, rfl, rfl, ?_, id⟩
    cases phase : w.run.phase <;> simp_all [Phase.working, Phase.cleanup?, Phase.remaining]
  · rw [Sound, Sound]
    generalize (w.turn answers).run = r' at makes
    cases makes with
    | close phase | release phase => exact ⟨rfl, rfl, rfl, by rw [phase]; rfl, id⟩
    | publish phase =>
      refine ⟨rfl, rfl, rfl, by rw [phase]; rfl, ?_⟩
      intro _ task message same
      cases same
    | _ => simp_all [Phase.working]

end States

section Receiving

variable {w : Workplace δ μ}

theorem receiver_of_perform {deed : Deed} (held : (w.perform deed).run.channel.hasReceiver = true) :
    w.run.channel.hasReceiver = true := by
  cases deed with
  | turn answers =>
    obtain ⟨same, -⟩ | ⟨move, events, makes⟩ := w.turn_run answers
    · rw [← same]; exact held
    · rw [perform] at held
      generalize (w.turn answers).run = r' at makes held
      cases makes with
      | take _ _ takes => cases takes <;> exact held
      | _ => exact held
  | receive =>
    rw [perform_receive] at held
    exact held
  | dropReceiver => cases held
  | _ => exact held

theorem receiver_of_after {deeds : List Deed}
    (held : (w.after deeds).run.channel.hasReceiver = true) : w.run.channel.hasReceiver = true := by
  induction deeds generalizing w with
  | nil => exact held
  | cons deed deeds ih => exact receiver_of_perform (ih held)

/-- What was in the channel when the work was over remains there until it is received, in order. -/
theorem receipts_of_over (finished : w.run.phase.working = false) (deeds : List Deed)
    (held : (w.after deeds).run.channel.hasReceiver = true) :
    (w.receipts deeds).filterMap Run.Received.change? ++ (w.after deeds).run.channel.buffer =
      w.run.channel.buffer := by
  induction deeds generalizing w with
  | nil => rfl
  | cons deed deeds ih =>
    -- A receiver that is there in the end was there all the time.
    have own : w.run.channel.hasReceiver = true := receiver_of_perform (receiver_of_after held)
    cases deed with
    | turn answers =>
      obtain ⟨finished', buffer, -⟩ := turn_over finished answers
      rw [← buffer]
      exact ih finished' held
    | receive =>
      have rest := ih (by rw [perform_receive]; exact finished) held
      rw [← Run.receive_held own, ← show _ = w.run.receive.2.channel.buffer from rest]
      cases found : w.run.receive.1.change? <;> simp [receipts, found] <;> rfl
    | dropReceiver => cases receiver_of_after (w := w.perform .dropReceiver) held
    | _ => exact ih finished held

end Receiving

section Sound

variable {w : Workplace δ μ} {connected : Bool}

omit [Decoder δ μ] in
theorem Sound.of_returned (returned : (w.run.life.ending matches some (.returned _)) = true) :
    w.Sound := by
  intro task message panicked
  rw [panicked] at returned
  cases returned

omit [Decoder δ μ] in
theorem Stage.closed_of_released (stage : w.Stage connected) (sound : w.Sound)
    (released : w.run.channel.hasSender = false) : w.Closed connected := by
  cases stage with
  | before _ sender => rw [released] at sender; cases sender
  | closed _ _ _ closed | released _ _ _ closed | ended _ _ _ closed => exact closed
  | broken _ panicked => exact absurd panicked (sound _ _)

omit [Decoder δ μ] in
theorem Stage.released_of_stopped (stage : w.Stage connected) (sound : w.Sound)
    (stopped : w.run.life.state = .stopped) : w.run.channel.hasSender = false := by
  cases stage with
  | before _ _ unstopped | closed _ _ unstopped | released _ _ unstopped =>
    exact absurd stopped unstopped
  | ended _ _ sender => exact sender
  | broken _ panicked => exact absurd panicked (sound _ _)

omit [Decoder δ μ] in
theorem Stage.closed_of_asked (stage : w.Stage connected) (sound : w.Sound)
    (asked : .close ∈ w.requests) : w.Closed connected ∧ w.run.phase.working = false := by
  cases stage with
  | before _ _ _ _ open' => exact absurd asked open'
  | closed phase _ _ closed | released phase _ _ closed | ended phase _ _ closed =>
    exact ⟨closed, by rw [phase]; rfl⟩
  | broken _ panicked => exact absurd panicked (sound _ _)

omit [Decoder δ μ] in
theorem Closed.split (closed : w.Closed connected) {before after : List Request}
    (asked : w.requests = before ++ .close :: after) : after = [] ∧ .close ∉ before := by
  obtain ⟨-, last⟩ := closed
  cases connected with
  | false => rw [asked] at last; simp at last
  | true =>
    obtain ⟨earlier, whole, first⟩ := last
    rw [asked] at whole
    rcases List.eq_nil_or_concat after with rfl | ⟨rest, request, rfl⟩
    · obtain ⟨rfl, -⟩ := List.append_inj' whole rfl
      exact ⟨rfl, first⟩
    · rw [List.concat_eq_append, ← List.cons_append, ← List.append_assoc] at whole
      obtain ⟨rfl, -⟩ := List.append_inj' whole rfl
      simp at first

theorem stopped_after_three_turns (stage : w.Stage connected) (sound : w.Sound)
    (finished : w.run.phase.working = false) (a b c : Answers) :
    (((w.turn a).turn b).turn c).run.life.state = .stopped := by
  obtain ⟨finished₁, -, -, left₁, sound₁⟩ := turn_over finished a
  obtain ⟨finished₂, -, -, left₂, sound₂⟩ := turn_over finished₁ b
  obtain ⟨finished₃, -, -, left₃, sound₃⟩ := turn_over finished₂ c
  have few : w.run.phase.remaining ≤ 3 := w.run.phase.remaining_le_three
  have exhausted : (((w.turn a).turn b).turn c).run.phase.remaining = 0 := by omega
  have last : (((w.turn a).turn b).turn c).Sound := sound₃ (sound₂ (sound₁ sound))
  cases ((stage.turn a).turn b).turn c with
  | before unfinished =>
    rw [finished₃] at unfinished
    generalize (((w.turn a).turn b).turn c).run.phase = phase at *
    cases phase <;> simp_all [Phase.isClosing, Phase.remaining]
  | closed phase | released phase => rw [phase] at exhausted; cases exhausted
  | ended _ life => rw [life]
  | broken _ panicked => exact absurd panicked (last _ _)

end Sound

/-- How a task that does not break off ends, whatever happens around it. Its state only moves
forward. The sender of the channel is dropped only after the connection, if there was one, was
closed, and the task has stopped only after both; the connection is closed once, and nothing is
asked of it afterwards. What was in the channel when the work was over can be received in order, and
then the channel is found closed; three turns after the work is over the task has stopped. -/
theorem exits_in_order (decoder : δ) (interval capacity : Nat) (connections : Connections Unit Unit)
    (acked : Lsn) (now : Nat) (earlier later : List Deed) :
    let w₁ := (spawn decoder interval capacity connections acked now : Workplace δ μ).after earlier
    let w₂ := w₁.after later
    w₂.Sound → w₁.run.life.state.rank ≤ w₂.run.life.state.rank ∧
      (w₂.run.channel.hasSender = false → w₂.Closed connections.replication.isSome) ∧
      (w₂.run.life.state = .stopped →
        w₂.Closed connections.replication.isSome ∧ w₂.run.channel.hasSender = false) ∧
      (∀ before after, w₂.requests = before ++ .close :: after → after = [] ∧ .close ∉ before) ∧
      (.close ∈ w₂.requests → w₂.run.phase.working = false) ∧
      (w₁.run.phase.working = false → w₂.run.channel.hasReceiver = true →
        (w₁.receipts later).filterMap Run.Received.change? ++ w₂.run.channel.buffer =
            w₁.run.channel.buffer ∧
          (w₂.run.channel.hasSender = false →
            w₂.run.receive.1 = w₂.run.channel.buffer.head?.elim .closed .change)) ∧
      (w₂.run.phase.working = false → ∀ a b c,
        (((w₂.turn a).turn b).turn c).run.life.state = .stopped) := by
  intro w₁ w₂ sound
  have stage : w₂.Stage connections.replication.isSome :=
    ((Stage.spawn decoder interval capacity connections acked now).after earlier).after later
  refine ⟨w₁.rank_le_after later, stage.closed_of_released sound, fun stopped => ?_, ?_,
    fun asked => (stage.closed_of_asked sound asked).2, fun finished held => ?_,
    stopped_after_three_turns stage sound⟩
  · have released := stage.released_of_stopped sound stopped
    exact ⟨stage.closed_of_released sound released, released⟩
  · intro before after asked
    have closed := (stage.closed_of_asked sound (by rw [asked]; simp)).1
    exact closed.split asked
  · exact ⟨receipts_of_over finished later held, Run.receive_of_released held⟩

/-- A stop is requested while a change waits for the consumer, and closing the connection fails. -/
theorem exits_after_failing_close :
    let turn (frame : Option (Except Error Frame)) : Deed :=
      .turn ⟨0, 0, frame, .ok (), .ok (), .error (.connection (.other "broken pipe"))⟩
    let earlier : List Deed := [turn none, turn (some (.ok (commitFrame ⟨10, by decide⟩))), turn none,
      turn none, .stop, turn none, turn none, turn none, turn none]
    let later := [turn none, turn none, .receive]
    let w₁ := (spawn Pglogical.Relations.empty 5 1 ⟨none, some ()⟩ .zero 0).after earlier
    let w₂ := w₁.after later
    w₂.run.life.state = .stopped ∧ w₂.Closed true ∧ w₂.requests.length = 3 ∧
      (w₁.receipts later).filterMap Run.Received.change? ++ w₂.run.channel.buffer =
        w₁.run.channel.buffer ∧ w₁.run.channel.buffer.length = 1 := by
  intro turn earlier later
  obtain ⟨-, -, closed, -, -, receipts, -⟩ :=
    exits_in_order Pglogical.Relations.empty 5 1 ⟨none, some ()⟩ .zero 0 earlier later
      (.of_returned (by decide +kernel))
  exact ⟨by decide +kernel, (closed (by decide +kernel)).1, by decide +kernel,
    (receipts (by decide +kernel) (by decide +kernel)).1, by decide +kernel⟩

end Workplace

end Feed

end ChangeFeed
