import ChangeFeed.Proofs.Source.Loop

/-!
What a setup, a start and a stop of a source come to, however the steps inside them end.
-/
namespace ChangeFeed

open Session Feed

section Calls

variable {δ μ σ : Type}

def Capture.links (c : Capture Nat Nat σ δ μ) : List Link := c.desk.connections.links

/-- The feed has not broken off. -/
def Capture.Unbroken (c : Capture Nat Nat σ δ μ) : Prop :=
  ∀ task message, c.run.life.ending ≠ some (.panicked task message)

/-- The links that setup has left. -/
def Source.links (s : Source Nat Nat σ δ μ) : List Link := s.connections.elim [] Connections.links

/-- A new source has accepted settings and nothing else. -/
theorem Source.create_eq_ok {config : SourceConfig} {source : Source Nat Nat σ δ μ} :
    create config = .ok source ↔
      config.validate = .ok () ∧ source = ⟨config, none, none, default, none, none⟩ := by
  unfold create
  cases config.validate with
  | error => exact ⟨nofun, nofun⟩
  | ok => exact ⟨fun created => ⟨rfl, (Except.ok.inj created).symm⟩, fun own => congrArg _ own.2.symm⟩

namespace Trial

variable {s s' : Source Nat Nat σ δ μ} {w w' : Outside μ} {commands : String → Prop}

/-- What a setup comes to. -/
inductive SetsUp (commands : String → Prop) (s : Source Nat Nat σ δ μ) (w : Outside μ) :
    Except Error Unit → Source Nat Nat σ δ μ → Outside μ → Prop
  | refused : s.isCapturing = true → SetsUp commands s w (.error (.replication .setupWhileCapturing)) s w
  | failed {e w'} : s.isCapturing = false → Passes commands w w' →
      (∀ held, Books w.log held → Books w'.log held) → SetsUp commands s w (.error e) s w'
  | ready {k x w'} : s.isCapturing = false → Passes commands w w' →
      (∀ held, Books w.log (s.links ++ held) → Books w'.log (.control k :: held) ∧ .control k ∉ s.links) →
      SetsUp commands s w (.ok ())
        { s with connections := some ⟨some k, none⟩, collaborators := some x } w'

section Setup

variable [Control.SchemaLoader (Trial μ) σ]

theorem equip_quiet [QuietLoader μ σ] (config : SourceConfig) (build : Nat → Except Error (σ × δ)) (k : Nat) :
    Quiet commands (Source.equip config build k : Trial μ (Except Error (σ × δ))) fun _ => True := by
  unfold Source.equip
  split
  · exact .pure trivial rfl
  · refine Does.bind (QuietLoader.refresh_quiet commands _) fun refreshed _ => ?_
    obtain ⟨_ | _, loader⟩ := refreshed
    · exact .pure trivial rfl
    · refine Does.bind (perform_quiet k _) fun installed _ => ?_
      cases installed with
      | error => exact .pure trivial rfl
      | ok =>
        dsimp only
        split
        · exact Does.bind (createSlot_quiet k _) fun _ _ => .pure trivial rfl
        · exact .pure trivial rfl

variable (commands) in
theorem provision_does [QuietLoader μ σ] (config : SourceConfig) (build : Nat → Except Error (σ × δ)) :
    Does commands (Source.provision config build .empty :
        Trial μ (Except Error (σ × δ) × Connections Nat (Connection Nat))) []
      (fun p => p.2.replication = none ∧ ∀ x, p.1 = .ok x → p.2.control.isSome)
      fun p => p.2.links := by
  refine (openControl_does _ _).bind fun opened own => ?_
  obtain ⟨result, c⟩ := opened
  cases result with
  | error => exact .pure ⟨own.1, nofun⟩ rfl
  | ok k =>
    refine ((equip_quiet config build k).held _).bind fun equipped _ => .pure ⟨own.1, fun _ _ => ?_⟩ rfl
    rw [own.2 k rfl]
    rfl

variable (commands) in
theorem usable_of_unopened {c : Connections Nat (Connection Nat)} (unopened : c.replication = none) :
    c.Usable commands := by
  unfold Connections.Usable
  rw [unopened]
  nofun

/-- How a setup has gone, step by step. -/
inductive Prepares (s : Source Nat Nat σ δ μ) (build : Nat → Except Error (σ × δ)) (w : Outside μ) :
    Except Error Unit → Source Nat Nat σ δ μ → Outside μ → Prop
  | refused : s.isCapturing = true →
      Prepares s build w (.error (.replication .setupWhileCapturing)) s w
  | failed {e c u closed w'} : s.isCapturing = false →
      (Source.provision s.config build .empty : Trial μ _) w = some ((.error e, c), u) →
      (c.close : Trial μ (Connections Nat (Connection Nat))) u = some (closed, w') →
      Prepares s build w (.error e) s w'
  | first {x c w'} : s.isCapturing = false → s.connections = none →
      (Source.provision s.config build .empty : Trial μ _) w = some ((.ok x, c), w') →
      Prepares s build w (.ok ()) { s with connections := some c, collaborators := some x } w'
  | again {x c old u closed w'} : s.isCapturing = false → s.connections = some old →
      (Source.provision s.config build .empty : Trial μ _) w = some ((.ok x, c), u) →
      (old.close : Trial μ (Connections Nat (Connection Nat))) u = some (closed, w') →
      Prepares s build w (.ok ()) { s with connections := some c, collaborators := some x } w'

theorem prepares_of_setup {build : Nat → Except Error (σ × δ)} {result : Except Error Unit}
    (run : (s.setup build : Trial μ _) w = some ((result, s'), w')) : Prepares s build w result s' w' := by
  unfold Source.setup at run
  split at run
  · rename_i capturing
    cases run
    exact .refused capturing
  rename_i idle
  have idle : s.isCapturing = false := by simpa using idle
  obtain ⟨⟨provided, c⟩, u, provisioned, rest⟩ := bind_eq_some.mp run
  cases provided with
  | error e =>
    obtain ⟨_, u', closed, rest⟩ := bind_eq_some.mp rest
    cases rest
    exact .failed idle provisioned closed
  | ok x =>
    dsimp only at rest
    cases present : s.connections with
    | none =>
      rw [present] at rest
      cases rest
      exact .first idle present provisioned
    | some old =>
      rw [present] at rest
      obtain ⟨_, u', closed, rest⟩ := bind_eq_some.mp rest
      cases rest
      exact .again idle present provisioned closed

variable (commands) in
/-- A setup that succeeds leaves a control connection and no other. -/
theorem control_of_provision [QuietLoader μ σ] {config : SourceConfig} {build : Nat → Except Error (σ × δ)}
    {x : σ × δ} {c : Connections Nat (Connection Nat)}
    (provisioned : (Source.provision config build .empty : Trial μ _) w = some ((.ok x, c), w')) :
    ∃ k, c = ⟨some k, none⟩ ∧ Passes commands w w' ∧
      ∀ held, Books w.log held → Books w'.log (.control k :: held) := by
  obtain ⟨⟨unopened, equipped⟩, passes, books⟩ := provision_does commands _ _ w _ w' provisioned
  obtain ⟨k, control⟩ := Option.isSome_iff_exists.mp (equipped x rfl)
  obtain ⟨_, _⟩ := c
  cases unopened
  cases control
  exact ⟨k, rfl, passes, books⟩

theorem setup_inv [QuietLoader μ σ] (left : ∀ c ∈ s.connections, c.replication = none)
    {build : Nat → Except Error (σ × δ)} {result : Except Error Unit}
    (run : (s.setup build : Trial μ _) w = some ((result, s'), w')) : SetsUp commands s w result s' w' := by
  cases prepares_of_setup run with
  | refused capturing => exact .refused capturing
  | @failed e c u _ _ idle provisioned closed =>
    obtain ⟨⟨unopened, -⟩, passes, books⟩ := provision_does commands _ _ w _ u provisioned
    obtain ⟨-, passes', books'⟩ := close_both_does (usable_of_unopened commands unopened) u _ w' closed
    exact .failed idle (passes.trans passes') fun held start => books' held (books held start)
  | first idle absent provisioned =>
    obtain ⟨k, rfl, passes, books⟩ := control_of_provision commands provisioned
    have nothing : s.links = [] := by simp [Source.links, absent]
    refine .ready idle passes fun held start => ?_
    rw [nothing] at start ⊢
    exact ⟨books held start, List.not_mem_nil⟩
  | @again x c old u _ _ idle present provisioned closed =>
    obtain ⟨k, rfl, passes, books⟩ := control_of_provision commands provisioned
    have usable := usable_of_unopened commands (left old present)
    obtain ⟨-, passes', books'⟩ := close_both_does usable u _ w' closed
    have own : s.links = old.links := by simp [Source.links, present]
    refine .ready idle (passes.trans passes') fun held start => ?_
    rw [own] at start ⊢
    have both : Books u.log (.control k :: (old.links ++ held)) := books _ start
    refine ⟨books' _ (both.perm List.perm_middle.symm), fun member => ?_⟩
    exact (List.nodup_cons.mp both.held_once).1 (List.mem_append_left _ member)

end Setup

section Start

/-- How a start has gone, step by step. -/
inductive Launches (s : Source Nat Nat σ δ μ) (checkpoint : Checkpoint) (w : Outside μ) :
    Source.Start → Source Nat Nat σ δ μ → Outside μ → Prop
  | refused : s.isCapturing = true →
      Launches s checkpoint w (.failed (.replication .alreadyCapturing)) s w
  | unready : s.isCapturing = false → s.connections = none →
      Launches s checkpoint w (.failed (.replication .setupMissing))
        { s with connections := none, collaborators := none } w
  | unequipped {c w'} : s.isCapturing = false → s.connections = some c → s.collaborators = none →
      (c.abandon : Trial μ Unit) w = some ((), w') →
      Launches s checkpoint w (.failed (.replication .setupMissing))
        { s with connections := none, collaborators := none } w'
  | unopened {c x e c' u closed w'} : s.isCapturing = false → s.connections = some c →
      s.collaborators = some x →
      (Source.openStream s.config c checkpoint : Trial μ _) w = some ((.error e, c'), u) →
      (c'.close : Trial μ _) u = some (closed, w') →
      Launches s checkpoint w (.failed e) { s with connections := none, collaborators := none } w'
  | oversized {c x stream c' u w'} : s.isCapturing = false → s.connections = some c →
      s.collaborators = some x →
      (Source.openStream s.config c checkpoint : Trial μ _) w = some ((.ok stream, c'), u) →
      Channel.open? μ s.config.channelCapacity = none → (c'.abandon : Trial μ Unit) u = some ((), w') →
      Launches s checkpoint w (.panicked (Channel.refusal s.config.channelCapacity))
        { s with connections := none, collaborators := none, tracker := s.tracker.reset stream.start } w'
  | started {c loader decoder stream c' u channel now w'} : s.isCapturing = false → s.connections = some c →
      s.collaborators = some (loader, decoder) →
      (Source.openStream s.config c checkpoint : Trial μ _) w = some ((.ok stream, c'), u) →
      Channel.open? μ s.config.channelCapacity = some channel →
      (Time.Clock.now : Trial μ Nat) u = some (now, w') →
      Launches s checkpoint w .started
        { s with
          connections := none, collaborators := none, tracker := s.tracker.reset stream.start
          stream := some stream
          capture := some ⟨.start decoder (s.config.reportInterval * 1000) channel now,
            ⟨c', loader, stream.start, none⟩, .fresh⟩ } w'

theorem launches_of_start {checkpoint : Checkpoint} {result : Source.Start}
    (run : (s.start checkpoint : Trial μ _) w = some ((result, s'), w')) :
    Launches s checkpoint w result s' w' := by
  unfold Source.start at run
  split at run
  · rename_i capturing
    cases run
    exact .refused capturing
  rename_i idle
  have idle : s.isCapturing = false := by simpa using idle
  obtain ⟨config, connections, collaborators, tracker, capture, stream⟩ := s
  dsimp only at run
  obtain _ | c := connections
  · cases run
    exact .unready idle rfl
  obtain _ | ⟨loader, decoder⟩ := collaborators
  · obtain ⟨_, u, abandoned, rest⟩ := bind_eq_some.mp run
    cases rest
    exact .unequipped idle rfl rfl abandoned
  obtain ⟨⟨outcome, c'⟩, u, opened, rest⟩ := bind_eq_some.mp run
  cases outcome with
  | error e =>
    obtain ⟨_, u', closed, rest⟩ := bind_eq_some.mp rest
    cases rest
    exact .unopened idle rfl rfl opened closed
  | ok stream =>
    dsimp only at rest
    generalize room : Channel.open? μ config.channelCapacity = channel at rest
    cases channel with
    | none =>
      obtain ⟨_, u', abandoned, rest⟩ := bind_eq_some.mp rest
      cases rest
      exact .oversized idle rfl rfl opened room abandoned
    | some channel =>
      obtain ⟨now, u', asked, rest⟩ := bind_eq_some.mp rest
      cases rest
      exact .started idle rfl rfl opened room asked

/-- A feed that has just been started. -/
def Fresh (r : Run δ μ) : Prop :=
  ∃ decoder interval channel now, r = Run.start decoder interval channel now ∧ channel.buffer = []

/-- What a start comes to. -/
inductive Starts (commands : String → Prop) (s : Source Nat Nat σ δ μ) (w : Outside μ) :
    Source.Start → Source Nat Nat σ δ μ → Outside μ → Prop
  | refused : s.isCapturing = true → Starts commands s w (.failed (.replication .alreadyCapturing)) s w
  | unready : s.isCapturing = false → s.connections = none →
      Starts commands s w (.failed (.replication .setupMissing)) s w
  | failed {result t w'} : s.isCapturing = false → s.connections.isSome → result ≠ .started →
      Passes commands w w' → (∀ held, Books w.log (s.links ++ held) → Books w'.log held) →
      Starts commands s w result { s with connections := none, collaborators := none, tracker := t } w'
  | started {t stream} {c : Capture Nat Nat σ δ μ} {w'} : s.isCapturing = false →
      s.connections.isSome → Passes commands w w' → Holds commands c.run c.desk → Fresh c.run →
      s.links ⊆ c.links →
      (∀ held, Books w.log (s.links ++ held) → Books w'.log (c.links ++ held)) →
      Starts commands s w .started
        { s with
          connections := none, collaborators := none, tracker := t, stream := some stream
          capture := some c } w'

section Starts

variable {result : Source.Start}

theorem Starts.passes (starts : Starts commands s w result s' w') : Passes commands w w' := by
  cases starts with
  | refused | unready => exact .refl w
  | failed _ _ _ passes | started _ _ passes => exact passes

/-- A start opens no connection that the source would keep. -/
theorem Starts.left (starts : Starts commands s w result s' w')
    (left : ∀ c ∈ s.connections, c.replication = none) : ∀ c ∈ s'.connections, c.replication = none := by
  cases starts with
  | refused | unready => exact left
  | failed | started => rintro _ ⟨⟩

theorem Starts.capture_eq (starts : Starts commands s w result s' w') (unstarted : result ≠ .started) :
    s'.capture = s.capture := by
  cases starts with
  | refused | unready | failed => rfl
  | started => exact absurd rfl unstarted

end Starts

theorem openStream_does (config : SourceConfig) {c : Connections Nat (Connection Nat)}
    (unopened : c.replication = none) {checkpoint : Checkpoint}
    (may : MayStart commands config.slot checkpoint) :
    Does commands (Source.openStream config c checkpoint :
        Trial μ (Except Error Stream × Connections Nat (Connection Nat))) c.links
      (fun p => p.2.control = c.control ∧ p.2.Usable commands ∧ ∀ stream, p.1 = .ok stream → p.2.replication.isSome)
      fun p => p.2.links := by
  refine (openReplication_does unopened _ _).bind fun opened own => ?_
  obtain ⟨result, c'⟩ := opened
  obtain ⟨control, usable, present⟩ := own
  cases result with
  | error => exact .pure ⟨control, usable, nofun⟩ rfl
  | ok =>
    obtain ⟨k, _ | r⟩ := c'
    · exact .pure ⟨control, usable, nofun⟩ rfl
    · refine ((start_quiet may (usable r rfl).2).held _).bind fun p keeps => ?_
      have same : SameLines commands ⟨k, some r⟩ ⟨k, some p.2⟩ := ⟨rfl, .some keeps⟩
      exact .pure ⟨control, same.usable usable, fun _ _ => rfl⟩ same.links.symm

theorem holds_start (decoder : δ) (interval : Nat) (channel : Feed.Channel μ) (now : Nat)
    {d : Bench σ} (both : d.connections.control.isSome ∧ d.connections.replication.isSome)
    (usable : d.connections.Usable commands) : Holds commands (Run.start decoder interval channel now) d := by
  rcases Run.start_eq decoder interval channel now with ⟨_, _, begun⟩ | ⟨_, begun⟩ <;> rw [begun]
  · exact .both (.inl rfl) (by simp [Run.spawn, Lifecycle.started]) both usable (by simp [Run.spawn])
  · exact .broken rfl rfl (by simp [Run.panic, Run.spawn, Lifecycle.started, Lifecycle.finish]) usable

theorem start_inv (paired : s.connections.isSome = s.collaborators.isSome)
    (left : ∀ c ∈ s.connections, c.control.isSome ∧ c.replication = none) {checkpoint : Checkpoint}
    (may : MayStart commands s.config.slot checkpoint)
    {result : Source.Start} (run : (s.start checkpoint : Trial μ _) w = some ((result, s'), w')) :
    Starts commands s w result s' w' := by
  have own {c : Connections Nat (Connection Nat)} (present : s.connections = some c) : s.links = c.links := by
    rw [Source.links, present]
    rfl
  cases launches_of_start run with
  | refused capturing => exact .refused capturing
  | unready idle absent =>
    have absent' : s.collaborators = none := by
      rw [absent] at paired
      exact Option.isNone_iff_eq_none.mp (by rw [← Option.not_isSome, ← paired]; rfl)
    obtain ⟨config, connections, collaborators, tracker, capture, stream⟩ := s
    cases absent
    cases absent'
    exact .unready idle rfl
  | unequipped idle present absent =>
    rw [present, absent] at paired
    cases paired
  | @unopened c x e c' u _ _ idle present _ opened closed =>
    obtain ⟨⟨-, usable, -⟩, passes, books⟩ := openStream_does _ (left c present).2 may w _ u opened
    obtain ⟨-, passes', books'⟩ := close_both_does usable u _ w' closed
    exact .failed idle (by rw [present]; rfl) nofun (passes.trans passes') fun held start =>
      books' held (books held (own present ▸ start))
  | @oversized c x stream c' u _ idle present _ opened _ abandoned =>
    obtain ⟨-, passes, books⟩ := openStream_does _ (left c present).2 may w _ u opened
    obtain ⟨-, passes', books'⟩ := abandon_does u _ w' abandoned
    exact .failed idle (by rw [present]; rfl) nofun (passes.trans passes') fun held start =>
      books' held (books held (own present ▸ start))
  | @started c loader decoder stream c' u channel now _ idle present _ opened room asked =>
    obtain ⟨⟨same, usable, replication⟩, passes, books⟩ :=
      openStream_does _ (left c present).2 may w _ u opened
    obtain ⟨-, passes', books'⟩ := quiet_question (fun _ w => w.now) u now w' asked
    have handed : c.links ⊆ c'.links := by
      unfold Connections.links
      rw [(left c present).2, same]
      exact List.subset_append_right _ _
    have nothing : channel.buffer = [] := by
      unfold Channel.open? at room
      split at room <;> cases room
      rfl
    exact .started idle (by rw [present]; rfl) (passes.trans passes')
      (holds_start _ _ _ _ ⟨same ▸ (left c present).1, replication stream rfl⟩ usable)
      ⟨_, _, channel, _, rfl, nothing⟩ (own present ▸ handed) fun held start =>
        books' _ (books held (own present ▸ start))

end Start

section Stop

variable [Decoder δ μ] [Control.SchemaLoader (Trial μ) σ] [QuietLoader μ σ]

/-- The connections of the latest capture. -/
def Latest (s : Source Nat Nat σ δ μ) : List Link := s.capture.elim [] Capture.links

omit [QuietLoader μ σ] in
/-- A source that settles lets the feed of its latest capture settle, which sees what is confirmed by then. -/
theorem run_of_settle {c : Capture Nat Nat σ δ μ} (latest : s.capture = some c)
    (holds : Holds commands c.run c.desk) (run : (s.settle : Trial μ _) w = some (s', w')) :
    ∃ r d, s' = { s with capture := some { c with run := r, desk := d } } ∧
      Holds commands c.run { c.desk with acked := s.tracker.committed } ∧
      (c.run.settle Source.patience : StateT (Bench σ) (Trial μ) (Run δ μ)).run
        { c.desk with acked := s.tracker.committed } w = some ((r, d), w') := by
  unfold Source.settle at run
  rw [latest] at run
  obtain ⟨⟨r, d⟩, u, settled, rest⟩ := bind_eq_some.mp run
  cases rest
  exact ⟨r, d, rfl, holds.keep rfl (.inl rfl) rfl rfl, settled⟩

theorem settled_inv {c : Capture Nat Nat σ δ μ} (latest : s.capture = some c) (holds : Holds commands c.run c.desk)
    (run : (s.settle : Trial μ _) w = some (s', w')) :
    ∃ c', s' = { s with capture := some c' } ∧ Holds commands c'.run c'.desk ∧ Passes commands w w' ∧
      (∀ held, Books w.log (c.links ++ held) → Books w'.log (c'.links ++ held)) ∧
      Becomes c.run c'.run ∧ (c.run.life.stopRequested = true → c'.run.phase = .ended) := by
  obtain ⟨r, d, rfl, here, settled⟩ := run_of_settle latest holds run
  obtain ⟨holds', passes, books, becomes, ends⟩ := settle_inv here settled
  refine ⟨_, rfl, holds', passes, books, becomes, fun stop => ends ⟨.zero⟩ stop ?_⟩
  have few := Situation.rank_le_nine ⟨c.run, ⟨.zero⟩, w.now⟩
  have many : 9 ≤ Source.patience := by decide
  exact Nat.le_trans few many

/-- The source without what setup has left. -/
def bare (s : Source Nat Nat σ δ μ) : Source Nat Nat σ δ μ :=
  { s with connections := none, collaborators := none }

variable (commands) in
omit [QuietLoader μ σ] in
/-- A stop first closes what setup has left. -/
theorem stop_closes (left : ∀ c ∈ s.connections, c.replication = none)
    {answer : Except Error Unit × Source Nat Nat σ δ μ}
    (run : (s.stop : Trial μ _) w = some (answer, w')) :
    ∃ u, Passes commands w u ∧ (∀ held, Books w.log (s.links ++ held) → Books u.log held) ∧
      ((bare s).stop : Trial μ _) u = some (answer, w') := by
  obtain ⟨config, _ | c, collaborators, tracker, capture, stream⟩ := s
  · exact ⟨w, .refl w, fun _ => id, run⟩
  · obtain ⟨_, u, closed, rest⟩ := bind_eq_some.mp run
    obtain ⟨-, passes, books⟩ := close_both_does (usable_of_unopened commands (left c rfl)) w _ u closed
    exact ⟨u, passes, books, rest⟩

theorem stop_inv (left : ∀ c ∈ s.connections, c.replication = none)
    (latest : ∀ c ∈ s.capture, Holds commands c.run c.desk) {result : Except Error Unit}
    (run : (s.stop : Trial μ _) w = some ((result, s'), w')) :
    Passes commands w w' ∧ (∃ capture, s' = { bare s with capture, stream := s'.stream }) ∧
      s'.capture.isSome = s.capture.isSome ∧
      (∀ c ∈ s'.capture, Holds commands c.run c.desk ∧ c.run.phase = .ended) ∧
      ∀ held, Books w.log (s.links ++ (Latest s ++ held)) →
        Books w'.log (Latest s' ++ held) ∧ ∀ l ∈ s.links, l ∈ closings w'.log := by
  obtain ⟨u, passes, books, run⟩ := stop_closes commands left run
  have closes : ∀ held, Books w.log (s.links ++ held) → ∀ l ∈ s.links, l ∈ closings u.log :=
    fun held start => (start.released (books held start) passes.longer).1
  obtain ⟨config, connections, collaborators, tracker, capture, stream⟩ := s
  cases capture with
  | none =>
    cases run
    exact ⟨passes, ⟨none, rfl⟩, rfl, by rintro _ ⟨⟩, fun held start => ⟨books _ start, closes _ start⟩⟩
  | some c =>
    obtain ⟨s₁, u', settled, rest⟩ := bind_eq_some.mp run
    have asked : Holds commands { c.run with life := c.run.life.requestStop } c.desk :=
      (latest c rfl).keep rfl (.inr rfl) rfl rfl
    obtain ⟨c', rfl, holds, passes', books', -, ends⟩ := settled_inv rfl asked settled
    cases rest
    refine ⟨passes.trans passes', ⟨some c', rfl⟩, rfl, ?_, fun held start =>
      ⟨books' held (books _ start), fun l own => closings_mono passes'.longer (closes _ start l own)⟩⟩
    rintro _ ⟨⟩
    exact ⟨holds, ends (Run.stopRequested_requestStop c.run)⟩

end Stop

end Trial

end Calls

end ChangeFeed
