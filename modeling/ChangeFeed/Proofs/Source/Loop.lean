import ChangeFeed.Proofs.Feed.Exit
import ChangeFeed.Proofs.Surroundings.Calls

/-!
A feed with its own connections among surroundings that answer as they like. Main statements: what one
turn of it comes to, and that a feed that is asked to stop has ended when it has had its turns.
-/
namespace ChangeFeed.Trial

open Session Feed

variable {δ μ σ α : Type} {commands : String → Prop}

/-- What a feed has at hand. -/
abbrev Bench (σ : Type) := Desk Nat (Connection Nat) σ

/-- Loaders that open and close nothing and say nothing on the replication connections. -/
class QuietLoader (μ σ : Type) [Control.SchemaLoader (Trial μ) σ] : Prop where
  refresh_quiet : ∀ (commands : String → Prop) (loader : σ),
    Quiet commands (Control.SchemaLoader.refresh loader : Trial μ (Except Error Unit × σ)) fun _ => True

instance : QuietLoader μ Unit where
  refresh_quiet _ _ := quiet_question fun r _ => (r.refresh, ())

instance : QuietLoader μ (Control.Catalog Nat) where
  refresh_quiet _ c := by
    refine Does.bind (quiet_question fun r _ => r.rows) fun rows _ => ?_
    cases rows.bind Control.Catalog.load <;> exact .pure trivial rfl

/-- The same connections; the replication connection may have been used. -/
structure SameLines (commands : String → Prop) (a b : Connections Nat (Connection Nat)) : Prop where
  control : b.control = a.control
  replication : Option.Rel (Keeps commands) a.replication b.replication

theorem SameLines.refl {a : Connections Nat (Connection Nat)} (usable : a.Usable commands) :
    SameLines commands a a := by
  obtain ⟨k, _ | r⟩ := a
  · exact ⟨rfl, .none⟩
  · exact ⟨rfl, .some (.refl (usable r rfl).2)⟩

theorem SameLines.links {a b : Connections Nat (Connection Nat)} (same : SameLines commands a b) :
    b.links = a.links := by
  obtain ⟨k, r⟩ := a
  obtain ⟨k', r'⟩ := b
  obtain ⟨rfl, replication⟩ := same
  cases replication with
  | none => rfl
  | some keeps => exact congrArg (fun i => Link.replication i :: _) keeps.socket

theorem SameLines.eq_empty {b : Connections Nat (Connection Nat)} (same : SameLines commands .empty b) :
    b = .empty := by
  obtain ⟨k, r⟩ := b
  obtain ⟨rfl, replication⟩ := same
  cases replication
  rfl

theorem SameLines.both {a b : Connections Nat (Connection Nat)} (same : SameLines commands a b)
    (both : a.control.isSome ∧ a.replication.isSome) : b.control.isSome ∧ b.replication.isSome := by
  obtain ⟨k, r⟩ := a
  obtain ⟨k', r'⟩ := b
  obtain ⟨rfl, replication⟩ := same
  cases replication with
  | none => exact both
  | some => exact both

theorem SameLines.usable {a b : Connections Nat (Connection Nat)} (same : SameLines commands a b)
    (usable : a.Usable commands) : b.Usable commands := by
  obtain ⟨k, r⟩ := a
  obtain ⟨k', r'⟩ := b
  obtain ⟨rfl, replication⟩ := same
  cases replication with
  | none => nofun
  | some keeps =>
    rintro _ ⟨⟩
    exact ⟨keeps.closed.trans (usable _ rfl).1, keeps.outbox⟩

theorem run_bind_eq_some {β : Type} {x : StateT (Bench σ) (Trial μ) α} {f : α → StateT (Bench σ) (Trial μ) β}
    {d d' : Bench σ} {w w' : Outside μ} {b : β} :
    (x >>= f).run d w = some ((b, d'), w') ↔
      ∃ a d₁ u, x.run d w = some ((a, d₁), u) ∧ (f a).run d₁ u = some ((b, d'), w') := by
  rw [StateT.run_bind, bind_eq_some]
  exact ⟨fun ⟨p, u, first, second⟩ => ⟨p.1, p.2, u, first, second⟩,
    fun ⟨a, d₁, u, first, second⟩ => ⟨(a, d₁), u, first, second⟩⟩

section Desk

variable {control : Option Nat} {loader : σ} {acked : Lsn} {refreshed : Option (Except Error Unit)}

theorem withReplication_run (absent : α) (f : Connection Nat → Trial μ (α × Connection Nat)) (c : Connection Nat) :
    (Desk.withReplication absent f).run ⟨⟨control, some c⟩, loader, acked, refreshed⟩ =
      (fun p => (p.1, ⟨⟨control, some p.2⟩, loader, acked, refreshed⟩)) <$> f c := by
  simp [Desk.withReplication]

variable [Control.SchemaLoader (Trial μ) σ] (d : Bench σ)

theorem view_run : (Surroundings.view : StateT (Bench σ) (Trial μ) View).run d = (do
    let now ← Time.Clock.now
    let wall ← Time.Clock.wall
    return (⟨now, d.acked, wall⟩, d) : Trial μ (View × Bench σ)) := by
  simp [Surroundings.view]

theorem record_run (events : List (Event μ)) :
    (Surroundings.record events : StateT (Bench σ) (Trial μ) Unit).run d =
      (fun a => (a, d)) <$> Witness.record events := by
  simp [Surroundings.record]

theorem startRefresh_run : (Surroundings.startRefresh : StateT (Bench σ) (Trial μ) Unit).run d =
    (fun p => ((), { d with loader := p.2, refreshed := some p.1 })) <$>
      Control.SchemaLoader.refresh d.loader := by
  simp [Surroundings.startRefresh]

theorem close_run : (Surroundings.close : StateT (Bench σ) (Trial μ) Unit).run d =
    (fun c => ((), { d with connections := c })) <$> d.connections.close := by
  simp [Surroundings.close]

end Desk

theorem withReplication_does {f : Connection Nat → Trial μ (α × Connection Nat)} (absent : α)
    (quiet : ∀ r : Connection Nat, Wire.Speech commands r.outbox → Quiet commands (f r) fun p => Keeps commands r p.2)
    {d : Bench σ} (usable : d.connections.Usable commands) :
    Does commands ((Desk.withReplication absent f).run d) d.connections.links
      (fun p => SameLines commands d.connections p.2.connections ∧ p.2.refreshed = d.refreshed)
      fun p => p.2.connections.links := by
  obtain ⟨⟨control, _ | r⟩, loader, acked, refreshed⟩ := d
  · exact .pure ⟨.refl usable, rfl⟩ rfl
  · rw [withReplication_run]
    refine ((quiet r (usable r rfl).2).held _).map fun p keeps => ?_
    have same : SameLines commands ⟨control, some r⟩ ⟨control, some p.2⟩ := ⟨rfl, .some keeps⟩
    exact ⟨⟨same, rfl⟩, same.links⟩

/-- What it comes to that a feed chooses its next move; one that is asked to stop or cleans up always has
one. -/
structure Picks [Decoder δ μ] (commands : String → Prop) (r : Run δ μ) (v : View) (d d' : Bench σ) (move : Option Move) : Prop where
  lines : if r.phase.isClosing then d'.connections = .empty else SameLines commands d.connections d'.connections
  refreshed : d'.refreshed = d.refreshed
  ready : r.life.stopRequested = true ∨ r.phase.working = false → r.phase ≠ .ended →
    (∀ l m ignored, r.phase = .refreshing l m ignored → d.refreshed.isSome) →
    ∃ m, move = some m ∧ (r.apply v m).isSome

variable [Decoder δ μ] {r : Run δ μ} {v : View} {d : Bench σ}

theorem Picks.open {d' : Bench σ} {move : Option Move} (open' : r.phase.isClosing = false)
    (same : SameLines commands d.connections d'.connections) (refreshed : d'.refreshed = d.refreshed)
    (ready : r.life.stopRequested = true ∨ r.phase.working = false → r.phase ≠ .ended →
      (∀ l m ignored, r.phase = .refreshing l m ignored → d.refreshed.isSome) →
      ∃ m, move = some m ∧ (r.apply v m).isSome) : Picks commands r v d d' move :=
  ⟨by rw [open']; exact same, refreshed, ready⟩

section Turning

variable [Control.SchemaLoader (Trial μ) σ]

theorem nextMove_does (usable : d.connections.Usable commands) :
    Does commands ((r.nextMove v : StateT (Bench σ) (Trial μ) (Option Move)).run d) d.connections.links
      (fun p => Picks commands r v d p.2 p.1) fun p => p.2.connections.links := by
  unfold Run.nextMove
  cases phase : r.phase with
  | checking =>
    refine .pure (.open (by rw [phase]; rfl) (.refl usable) rfl fun _ _ _ => ⟨.check, rfl, ?_⟩) rfl
    by_cases late : r.nextReport ≤ v.now <;> simp [Run.apply, phase, late]
  | reporting u =>
    rw [StateT.run_bind]
    refine (withReplication_does _ (fun _ said => report_quiet said u) usable).bind fun p own => ?_
    refine .pure (.open (by rw [phase]; rfl) own.1 own.2 fun _ _ _ => ⟨.report p.1, rfl, ?_⟩) rfl
    cases p.1 <;> simp [Run.apply, phase]
  | listening =>
    dsimp only
    split
    · rename_i stop
      exact .pure (.open (by rw [phase]; rfl) (.refl usable) rfl fun _ _ _ =>
        ⟨.heed, rfl, by simp [Run.apply, phase, stop]⟩) rfl
    · rename_i running
      rw [StateT.run_bind]
      refine (withReplication_does _ (fun _ => poll_quiet) usable).bind fun p own => ?_
      have open' (move : Option Move) : Picks commands r v d p.2 move :=
        .open (by rw [phase]; rfl) own.1 own.2 fun stop => by simp [running, phase, Phase.working] at stop
      obtain ⟨frame, d'⟩ := p
      cases frame <;> exact .pure (open' _) rfl
  | refreshing l m ignored =>
    refine .pure (.open (by rw [phase]; rfl) (.refl usable) rfl fun _ _ refreshed => ?_) rfl
    obtain ⟨outcome, refreshed⟩ := Option.isSome_iff_exists.mp (refreshed l m ignored phase)
    refine ⟨.refresh outcome, by rw [refreshed]; rfl, ?_⟩
    cases outcome <;> simp [Run.apply, phase]
  | offering c =>
    dsimp only
    refine .pure (.open (by rw [phase]; rfl) (.refl usable) rfl fun stop _ _ => ?_) rfl
    have stop : r.life.stopRequested = true := stop.resolve_right (by simp [phase, Phase.working])
    cases held : r.channel.hasReceiver with
    | false => exact ⟨.lose, rfl, by simp [Run.apply, phase, held]⟩
    | true =>
      by_cases room : r.channel.buffer.length < r.channel.capacity
      · exact ⟨.deliver, by simp [room], by simp [Run.apply, phase, held, room]⟩
      · exact ⟨.abandon, by simp [room, stop], by simp [Run.apply, phase, held, Nat.not_lt.mp room, stop]⟩
  | closing result =>
    rw [StateT.run_bind, close_run]
    have does : Does commands ((fun c => ((), { d with connections := c })) <$> d.connections.close : Trial μ _)
        d.connections.links (fun p => p.2 = { d with connections := .empty })
        fun p => p.2.connections.links :=
      (close_both_does usable).map fun c empty => by rw [empty]; exact ⟨rfl, rfl⟩
    refine does.bind fun p own => ?_
    refine .pure ⟨by rw [phase, own]; rfl, by rw [own], fun _ _ _ => ⟨.close, rfl, ?_⟩⟩ rfl
    simp [Run.apply, phase]
  | releasing result =>
    exact .pure (.open (by rw [phase]; rfl) (.refl usable) rfl fun _ _ _ =>
      ⟨.release, rfl, by simp [Run.apply, phase]⟩) rfl
  | publishing result =>
    exact .pure (.open (by rw [phase]; rfl) (.refl usable) rfl fun _ _ _ =>
      ⟨.publish, rfl, by simp [Run.apply, phase]⟩) rfl
  | ended => exact .pure (.open (by rw [phase]; rfl) (.refl usable) rfl fun _ going _ => absurd phase going) rfl

variable (commands) in
omit [Decoder δ μ] in
theorem view_inv {w u : Outside μ} {d' : Bench σ}
    (viewed : (Surroundings.view : StateT (Bench σ) (Trial μ) View).run d w = some ((v, d'), u)) :
    d' = d ∧ v.acked = d.acked ∧ w.now ≤ v.now ∧ v.now ≤ u.now ∧ Passes commands w u ∧
      ∀ held, Books w.log held → Books u.log held := by
  rw [view_run] at viewed
  obtain ⟨now, u₁, asked, rest⟩ := bind_eq_some.mp viewed
  obtain ⟨wall, u₂, asked', rest⟩ := bind_eq_some.mp rest
  cases rest
  obtain ⟨-, passes, books⟩ := quiet_question (fun _ w => w.now) w now u₁ asked
  obtain ⟨-, passes', books'⟩ := quiet_question (fun r _ => r.wallClock) u₁ wall _ asked'
  have same : now = u₁.now := by
    obtain ⟨_, _, _, answer⟩ := ask_eq_some.mp asked
    cases answer
    rfl
  subst same
  exact ⟨rfl, rfl, passes.later, passes'.later, passes.trans passes',
    fun held start => books' held (books held start)⟩

variable (commands) in
omit [Decoder δ μ] in
theorem recording_quiet (events : List (Event μ)) :
    Quiet commands ((Surroundings.record events : StateT (Bench σ) (Trial μ) Unit).run d) fun p => p.2 = d := by
  rw [record_run]
  exact (record_quiet events).map fun _ _ => ⟨rfl, rfl⟩

variable (commands) in
omit [Decoder δ μ] in
theorem startRefresh_quiet [QuietLoader μ σ] :
    Quiet commands ((Surroundings.startRefresh : StateT (Bench σ) (Trial μ) Unit).run d) fun p =>
      p.2.connections = d.connections ∧ p.2.refreshed.isSome := by
  rw [startRefresh_run]
  exact (QuietLoader.refresh_quiet commands d.loader).map fun _ _ => ⟨⟨rfl, rfl⟩, rfl⟩

/-- What a turn comes to: the feed makes a move, or it has to wait. -/
structure Turns (commands : String → Prop) (r : Run δ μ) (d : Bench σ) (w : Outside μ) (next : Option (Run δ μ)) (d' : Bench σ)
    (w' : Outside μ) : Prop where
  passes : Passes commands w w'
  books : ∀ held, Books w.log (d.connections.links ++ held) → Books w'.log (d'.connections.links ++ held)
  lines : if r.phase.isClosing then d'.connections = .empty else SameLines commands d.connections d'.connections
  moved : ∀ r', next = some r' → ∃ v move events, v.acked = d.acked ∧ w.now ≤ v.now ∧ v.now ≤ w'.now ∧
    r.apply v move = some (r', events)
  refreshed : (∀ r', next = some r' → ∀ l m ignored, r'.phase = .refreshing l m ignored →
    d'.refreshed.isSome) ∧ (next = none → d'.refreshed = d.refreshed)
  ready : r.life.stopRequested = true ∨ r.phase.working = false → r.phase ≠ .ended →
    (∀ l m ignored, r.phase = .refreshing l m ignored → d.refreshed.isSome) → next.isSome

/-- A feed has looked at its surroundings and has chosen its next move, if it has one. -/
structure Chosen (commands : String → Prop) (r : Run δ μ) (v : View) (d : Bench σ) (w : Outside μ)
    (move : Option Move) (d' : Bench σ) (w' : Outside μ) : Prop where
  acked : v.acked = d.acked
  early : w.now ≤ v.now
  late : v.now ≤ w'.now
  passes : Passes commands w w'
  books : ∀ held, Books w.log (d.connections.links ++ held) → Books w'.log (d'.connections.links ++ held)
  picks : Picks commands r v d d' move

theorem chosen_of_picked (usable : d.connections.Usable commands) {w u w' : Outside μ} {d₁ d' : Bench σ}
    {move : Option Move}
    (viewed : (Surroundings.view : StateT (Bench σ) (Trial μ) View).run d w = some ((v, d₁), u))
    (picked : (r.nextMove v : StateT (Bench σ) (Trial μ) (Option Move)).run d₁ u = some ((move, d'), w')) :
    Chosen commands r v d w move d' w' := by
  obtain ⟨rfl, acked, early, late, passes, books⟩ := view_inv commands viewed
  obtain ⟨picks, passes', books'⟩ := nextMove_does usable u _ w' picked
  exact ⟨acked, early, Nat.le_trans late passes'.later, passes.trans passes',
    fun held start => books' held (books _ start), picks⟩

omit [Control.SchemaLoader (Trial μ) σ] in
/-- A feed waits if it has no move to make, and also if the move that it chose is not open to it. -/
theorem Chosen.waits {w w' : Outside μ} {move : Option Move} {d' : Bench σ}
    (chosen : Chosen commands r v d w move d' w') (stuck : move.bind (r.apply v) = none) :
    Turns commands r d w none d' w' := by
  refine ⟨chosen.passes, chosen.books, chosen.picks.lines, by simp, ⟨by simp, fun _ => chosen.picks.refreshed⟩,
    fun stop going fresh => ?_⟩
  obtain ⟨m, rfl, possible⟩ := chosen.picks.ready stop going fresh
  rw [show r.apply v m = none from stuck] at possible
  cases possible

omit [Control.SchemaLoader (Trial μ) σ] in
/-- After a move that is open to it a feed does at most what leaves its connections as they are. -/
theorem Chosen.moves {w u w' : Outside μ} {move : Move} {d₁ d' : Bench σ} {r' : Run δ μ}
    {events : List (Event μ)} (chosen : Chosen commands r v d w (some move) d₁ u)
    (moved : r.apply v move = some (r', events)) (passes : Passes commands u w')
    (books : ∀ held, Books u.log held → Books w'.log held) (connections : d'.connections = d₁.connections)
    (fresh : ∀ l m ignored, r'.phase = .refreshing l m ignored → d'.refreshed.isSome) :
    Turns commands r d w (some r') d' w' where
  passes := chosen.passes.trans passes
  books held start := by
    rw [connections]
    exact books _ (chosen.books held start)
  lines := by
    rw [connections]
    exact chosen.picks.lines
  moved := by
    rintro _ ⟨⟩
    exact ⟨v, move, events, chosen.acked, chosen.early, Nat.le_trans chosen.late passes.later, moved⟩
  refreshed := by
    refine ⟨?_, nofun⟩
    rintro _ ⟨⟩
    exact fresh
  ready _ _ _ := rfl

theorem turn_inv [QuietLoader μ σ] (usable : d.connections.Usable commands) {w w' : Outside μ} {next : Option (Run δ μ)}
    {d' : Bench σ}
    (turned : (r.turn : StateT (Bench σ) (Trial μ) (Option (Run δ μ))).run d w = some ((next, d'), w')) :
    Turns commands r d w next d' w' := by
  unfold Run.turn at turned
  obtain ⟨v, d₁, u, viewed, rest⟩ := run_bind_eq_some.mp turned
  obtain ⟨move, d₂, u₁, picked, rest⟩ := run_bind_eq_some.mp rest
  have chosen : Chosen commands r v d w move d₂ u₁ := chosen_of_picked usable viewed picked
  cases move with
  | none =>
    cases rest
    exact chosen.waits rfl
  | some move =>
    dsimp only at rest
    cases moved : r.apply v move with
    | none =>
      rw [moved] at rest
      cases rest
      exact chosen.waits moved
    | some p =>
      obtain ⟨r', events⟩ := p
      rw [moved] at rest
      dsimp only at rest
      obtain ⟨_, d₃, u₂, recorded, left⟩ := run_bind_eq_some.mp rest
      obtain ⟨rfl, passes, books⟩ := recording_quiet commands events u₁ _ u₂ recorded
      -- What is left of the turn is at most the start of a refresh.
      split at left
      · obtain ⟨_, d₄, u₃, started, left⟩ := run_bind_eq_some.mp left
        obtain ⟨⟨connections, fresh⟩, passes', books'⟩ := startRefresh_quiet commands u₂ _ u₃ started
        cases left
        exact chosen.moves moved (passes.trans passes') (fun held start => books' held (books held start))
          connections fun _ _ _ _ => fresh
      · rename_i other
        cases left
        exact chosen.moves moved passes books rfl fun l m ignored phase => absurd phase (other l m ignored)

end Turning

section Holding

omit [Decoder δ μ] in
/-- What a feed holds, by how far it has come. -/
inductive Holds (commands : String → Prop) (r : Run δ μ) (d : Bench σ) : Prop
  | both : r.phase.working = true ∨ r.phase.isClosing = true → r.life.state ≠ .stopped →
      d.connections.control.isSome ∧ d.connections.replication.isSome → d.connections.Usable commands →
      (∀ l m ignored, r.phase = .refreshing l m ignored → d.refreshed.isSome) → Holds commands r d
  | none {result} : r.phase = .releasing result ∨ r.phase = .publishing result →
      r.life.state ≠ .stopped → d.connections = .empty → Holds commands r d
  | ended : r.phase = .ended → r.life.state = .stopped → d.connections = .empty → Holds commands r d
  | broken {task message} : r.phase = .ended → r.life.ending = some (.panicked task message) →
      r.life.state ≠ .stopped → d.connections.Usable commands → Holds commands r d

omit [Decoder δ μ] in
theorem Holds.usable (holds : Holds commands r d) : d.connections.Usable commands := by
  cases holds with
  | both _ _ _ usable | broken _ _ _ usable => exact usable
  | none _ _ empty | ended _ _ empty => rw [empty]; exact Connections.usable_empty

omit [Decoder δ μ] in
theorem Holds.fresh (holds : Holds commands r d) (l : Lsn) (m : μ) (ignored : Bool)
    (phase : r.phase = .refreshing l m ignored) : d.refreshed.isSome := by
  cases holds with
  | both _ _ _ _ fresh => exact fresh l m ignored phase
  | none cleaning => rw [phase] at cleaning; simp at cleaning
  | ended cleaning | broken cleaning => rw [phase] at cleaning; cases cleaning

omit [Decoder δ μ] in
/-- What others do changes nothing but that a stop may be requested. -/
theorem Holds.keep (holds : Holds commands r d) {r' : Run δ μ} {d' : Bench σ} (phase : r'.phase = r.phase)
    (life : r'.life = r.life ∨ r'.life = r.life.requestStop) (connections : d'.connections = d.connections)
    (refreshed : d'.refreshed = d.refreshed) : Holds commands r' d' := by
  have state : r'.life.state = .stopped ↔ r.life.state = .stopped := by
    rcases life with life | life <;> rw [life]
    exact r.life.requestStop_stopped
  have ending : r'.life.ending = r.life.ending := by
    rcases life with life | life <;> rw [life]
    exact r.life.requestStop_ending
  obtain ⟨_, loader, acked, _⟩ := d'
  cases connections
  cases refreshed
  cases holds with
  | both unfinished unstopped both usable fresh =>
    exact .both (phase ▸ unfinished) (mt state.mp unstopped) both usable (phase ▸ fresh)
  | none finished unstopped empty => exact .none (phase ▸ finished) (mt state.mp unstopped) empty
  | ended ended stopped empty => exact .ended (phase.trans ended) (state.mpr stopped) empty
  | broken ended panicked unstopped usable =>
    exact .broken (phase.trans ended) (ending.trans panicked) (mt state.mp unstopped) usable

omit [Decoder δ μ] in
theorem Holds.of_stopped (holds : Holds commands r d) (stopped : r.life.state = .stopped) :
    r.phase = .ended ∧ d.connections = .empty := by
  cases holds with
  | both _ unstopped | none _ unstopped | broken _ _ unstopped => exact absurd stopped unstopped
  | ended ended _ empty => exact ⟨ended, empty⟩

omit [Decoder δ μ] in
theorem Holds.of_ended (holds : Holds commands r d) (ended : r.phase = .ended)
    (unbroken : ∀ task message, r.life.ending ≠ some (.panicked task message)) :
    r.life.state = .stopped ∧ d.connections.links = [] := by
  cases holds with
  | both unfinished => simp [ended, Phase.working, Phase.isClosing] at unfinished
  | none cleaning => simp [ended] at cleaning
  | ended _ stopped empty => exact ⟨stopped, by rw [empty]; rfl⟩
  | broken _ panicked => exact absurd panicked (unbroken _ _)

omit [Decoder δ μ] in
theorem Holds.of_working (holds : Holds commands r d) (working : r.phase.working = true) :
    d.connections.control.isSome ∧ d.connections.replication.isSome := by
  cases holds with
  | both _ _ both => exact both
  | none cleaning => rcases cleaning with phase | phase <;> rw [phase] at working <;> cases working
  | ended phase | broken phase => rw [phase] at working; cases working

theorem no_move_of_ended {r' : Run δ μ} {move : Move} {events : List (Event μ)}
    (ended : r.phase = .ended) : r.apply v move ≠ some (r', events) := by
  cases move <;> simp [Run.apply, ended]

variable {d' : Bench σ} {w w' : Outside μ} {next : Option (Run δ μ)}

theorem Holds.turn_working (working : r.phase.working = true) (unstopped : r.life.state ≠ .stopped)
    (both : d.connections.control.isSome ∧ d.connections.replication.isSome)
    (usable : d.connections.Usable commands)
    (fresh : ∀ l m ignored, r.phase = .refreshing l m ignored → d.refreshed.isSome)
    (turns : Turns commands r d w next d' w') : Holds commands (next.getD r) d' := by
  have same : SameLines commands d.connections d'.connections := by
    have lines := turns.lines
    rwa [if_neg] at lines
    cases phase : r.phase <;> simp_all [Phase.working, Phase.isClosing]
  have both' := same.both both
  have usable' := same.usable usable
  cases next with
  | none =>
    exact .both (.inl working) unstopped both' usable' (turns.refreshed.2 rfl ▸ fresh)
  | some r' =>
    obtain ⟨v, move, events, -, -, -, moved⟩ := turns.moved r' rfl
    rcases (Run.makes_of_apply moved).of_working working with
      ⟨unfinished, -, life⟩ | ⟨ended, task, message, panicked⟩
    · exact .both unfinished (by rw [Option.getD_some, life]; exact unstopped) both' usable'
        (turns.refreshed.1 r' rfl)
    · exact .broken ended (by rw [Option.getD_some, panicked]; rfl)
        (by rw [Option.getD_some, panicked]; exact unstopped) usable'

/-- A feed that cleans up never waits. -/
theorem Turns.cleans (turns : Turns commands r d w next d' w') (finished : r.phase.working = false)
    (going : r.phase ≠ .ended) : ∃ r' v move events, next = some r' ∧ Run.Makes r v move r' events := by
  have fresh : ∀ l m ignored, r.phase = .refreshing l m ignored → d.refreshed.isSome := by
    intro l m ignored phase
    rw [phase] at finished
    cases finished
  obtain ⟨r', same⟩ := Option.isSome_iff_exists.mp (turns.ready (.inr finished) going fresh)
  obtain ⟨v, move, events, -, -, -, moved⟩ := turns.moved r' same
  exact ⟨r', v, move, events, same, Run.makes_of_apply moved⟩

theorem Turns.idle (turns : Turns commands r d w next d' w') (ended : r.phase = .ended) :
    next = none ∧ SameLines commands d.connections d'.connections := by
  have same := turns.lines
  rw [if_neg (by rw [ended]; nofun)] at same
  refine ⟨?_, same⟩
  cases next with
  | none => rfl
  | some r' =>
    obtain ⟨v, move, events, -, -, -, moved⟩ := turns.moved r' rfl
    exact absurd moved (no_move_of_ended ended)

/-- The connections of a feed that is still at work after a turn are those that it had. -/
theorem Turns.links (turns : Turns commands r d w next d' w') (working : (next.getD r).phase.working = true) :
    d'.connections.links = d.connections.links := by
  have same := turns.lines
  cases phase : r.phase with
  | closing result =>
    obtain ⟨r', v, move, events, rfl, makes⟩ :=
      turns.cleans (by rw [phase]; rfl) (by rw [phase]; nofun)
    cases makes with
    | close => cases working
    | _ => simp_all
  | _ =>
    rw [phase] at same
    exact SameLines.links same

theorem Holds.turn_closing {result : Except Error Unit} (phase : r.phase = .closing result)
    (unstopped : r.life.state ≠ .stopped) (turns : Turns commands r d w next d' w') :
    Holds commands (next.getD r) d' := by
  obtain ⟨r', v, move, events, rfl, makes⟩ :=
    turns.cleans (by rw [phase]; rfl) (by rw [phase]; nofun)
  have empty := turns.lines
  rw [if_pos (by rw [phase]; rfl)] at empty
  cases makes with
  | close => exact .none (.inl rfl) unstopped empty
  | _ => simp_all

theorem Holds.turn (holds : Holds commands r d) (turns : Turns commands r d w next d' w') : Holds commands (next.getD r) d' := by
  cases holds with
  | both unfinished unstopped both usable fresh =>
    rcases unfinished with working | closing
    · exact .turn_working working unstopped both usable fresh turns
    · cases phase : r.phase with
      | closing => exact .turn_closing phase unstopped turns
      | _ => rw [phase] at closing; cases closing
  | @none result cleaning unstopped empty =>
    have open' : r.phase.isClosing = false := by rcases cleaning with phase | phase <;> rw [phase] <;> rfl
    have finished : r.phase.working = false := by rcases cleaning with phase | phase <;> rw [phase] <;> rfl
    have going : r.phase ≠ .ended := by rcases cleaning with phase | phase <;> rw [phase] <;> nofun
    have same := turns.lines
    rw [open', empty] at same
    obtain ⟨r', v, move, events, rfl, makes⟩ := turns.cleans finished going
    cases makes with
    | release => exact .none (.inr rfl) unstopped same.eq_empty
    | publish => exact .ended rfl rfl same.eq_empty
    | _ => simp_all
  | ended ended stopped empty =>
    obtain ⟨rfl, same⟩ := turns.idle ended
    exact .ended ended stopped (empty ▸ same).eq_empty
  | broken ended panicked unstopped usable =>
    obtain ⟨rfl, same⟩ := turns.idle ended
    exact .broken ended panicked unstopped (same.usable usable)

/-- A move of a feed that was asked to stop brings it nearer to its end. -/
theorem Turns.rank_lt {r' : Run δ μ} (turns : Turns commands r d w (some r') d' w')
    (stop : r.life.stopRequested = true) (t : Tracker) :
    r'.life.stopRequested = true ∧
      (Situation.mk r' t w'.now).rank < (Situation.mk r t w.now).rank := by
  obtain ⟨v, move, events, -, early, late, moved⟩ := turns.moved r' rfl
  have leads : Leads ⟨r, ⟨v.acked⟩, v.now⟩ (.move move v.wallClock) ⟨r', ⟨v.acked⟩, v.now⟩ events :=
    .move moved
  have before := (Situation.mk r t w.now).rank_wait (v.now - w.now)
  have after := (Situation.mk r' t v.now).rank_wait (w'.now - v.now)
  rw [Nat.add_sub_cancel' early] at before
  rw [Nat.add_sub_cancel' late] at after
  exact ⟨leads.stop_stays stop, Nat.lt_of_le_of_lt after (Nat.lt_of_lt_of_le (leads.rank_lt stop) before)⟩

omit [Decoder δ μ] in
theorem ended_of_rank (t : Tracker) (now : Nat) (least : (Situation.mk r t now).rank = 0) :
    r.phase = .ended := by
  cases phase : r.phase <;> simp_all [Situation.rank]
  split at least <;> cases least

/-- A feed after some moves of its own. -/
inductive Becomes : Run δ μ → Run δ μ → Prop
  | same (r : Run δ μ) : Becomes r r
  | move {r r' r'' : Run δ μ} {v move events} : r.apply v move = some (r', events) → Becomes r' r'' →
      Becomes r r''

/-- What every move preserves is preserved. -/
theorem Becomes.preserves {P : Run δ μ → Prop}
    (step : ∀ {r v move r' events}, P r → r.apply v move = some (r', events) → P r') {r' : Run δ μ}
    (becomes : Becomes r r') (start : P r) : P r' := by
  induction becomes with
  | same => exact start
  | move moved _ ih => exact ih (step start moved)

theorem settle_inv [Control.SchemaLoader (Trial μ) σ] [QuietLoader μ σ] {fuel : Nat} {r' : Run δ μ} (holds : Holds commands r d)
    (settled : (r.settle fuel : StateT (Bench σ) (Trial μ) (Run δ μ)).run d w = some ((r', d'), w')) :
    Holds commands r' d' ∧ Passes commands w w' ∧
      (∀ held, Books w.log (d.connections.links ++ held) →
        Books w'.log (d'.connections.links ++ held)) ∧
      Becomes r r' ∧
      ∀ t, r.life.stopRequested = true → (Situation.mk r t w.now).rank ≤ fuel → r'.phase = .ended := by
  induction fuel generalizing r d w with
  | zero =>
    cases settled
    exact ⟨holds, .refl _, fun _ => id, .same _, fun t _ few => ended_of_rank t _ (Nat.le_zero.mp few)⟩
  | succ fuel ih =>
    obtain ⟨next, d₁, u, turned, rest⟩ := run_bind_eq_some.mp settled
    have turns := turn_inv holds.usable turned
    have held := holds.turn turns
    cases next with
    | none =>
      cases rest
      refine ⟨held, turns.passes, turns.books, .same _, fun t stop _ => ?_⟩
      by_contra going
      have waits := turns.ready (.inl stop) going holds.fresh
      cases waits
    | some r₁ =>
      obtain ⟨held', passes, books, becomes, ends⟩ := ih held rest
      obtain ⟨v, move, events, -, -, -, moved⟩ := turns.moved r₁ rfl
      refine ⟨held', turns.passes.trans passes, fun held start => books held (turns.books held start),
        .move moved becomes, fun t stop few => ?_⟩
      obtain ⟨stop', nearer⟩ := turns.rank_lt stop t
      exact ends t stop' (Nat.le_of_lt_succ (Nat.lt_of_lt_of_le nearer few))

end Holding

end ChangeFeed.Trial
