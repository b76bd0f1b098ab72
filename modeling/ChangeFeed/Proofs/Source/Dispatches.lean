import ChangeFeed.Proofs.Session.Answers
import ChangeFeed.Proofs.Source.Steps
import ChangeFeed.Proofs.Stream.Updates
import ChangeFeed.Proofs.Surroundings.Flushed
import ChangeFeed.Proofs.Surroundings.Sendings

/-!
What a feed sends on its replication connection. Main statement: an update is read from its layout field by
field, and whatever a feed sends, all data in it are updates that acknowledge the position it has reported.
-/
namespace ChangeFeed

open Session Feed Wire

/-- Everything up to `l` is acknowledged, and no answer is asked for. -/
structure StatusUpdate.Acknowledges (u : StatusUpdate) (l : Lsn) : Prop where
  write : u.write = l
  flush : u.flush = l
  apply : u.apply = l
  unasked : u.replyRequested = false

namespace Trial

/-- Frames of a client: data that are updates that acknowledge `l`, the end of the data, and the goodbye. -/
def Reports (l : Lsn) (bytes : Bytes) : Prop :=
  ∃ frames : List (Char × Bytes), bytes = frameBytes frames ∧ ∀ f ∈ frames,
    f = ('c', []) ∨ f = ('X', []) ∨
      f.1 = 'd' ∧ ∃ u, StatusUpdate.ofBytes? f.2 = some u ∧ u.Acknowledges l

namespace Reports

variable {l : Lsn} {a b : Bytes}

theorem nil : Reports l [] := ⟨[], rfl, nofun⟩

theorem append (first : Reports l a) (second : Reports l b) : Reports l (a ++ b) := by
  obtain ⟨frames, rfl, fine⟩ := first
  obtain ⟨frames', rfl, fine'⟩ := second
  refine ⟨frames ++ frames', by simp [frameBytes], fun f member => ?_⟩
  exact (List.mem_append.mp member).elim (fine f) (fine' f)

theorem copyDone : Reports l Request.copyDone :=
  ⟨[('c', [])], by simp [frameBytes, Request.copyDone], by simp⟩

theorem terminate : Reports l Request.terminate :=
  ⟨[('X', [])], by simp [frameBytes, Request.terminate], by simp⟩

theorem acknowledge (l : Lsn) (clientTime : Int) :
    Reports l (Request.copyData (StatusUpdate.acknowledge l clientTime).layout) := by
  refine ⟨[('d', _)], by simp [frameBytes, Request.copyData]; rfl, fun f member => ?_⟩
  cases List.mem_singleton.mp member
  exact .inr (.inr ⟨rfl, _, StatusUpdate.ofBytes?_layout _, rfl, rfl, rfl, rfl⟩)

theorem goodbye (said : Reports l a) (streaming : Bool) :
    Reports l (a ++ (if streaming then Request.copyDone else []) ++ Request.terminate) := by
  refine (said.append ?_).append terminate
  cases streaming with
  | true => exact copyDone
  | false => exact nil

end Reports

/-- Loaders that send nothing on the replication connections. -/
class SilentLoader (μ σ : Type) [Control.SchemaLoader (Trial μ) σ] : Prop where
  refresh_sends : ∀ (allowed : Bytes → Prop) (loader : σ),
    Sends allowed (Control.SchemaLoader.refresh loader : Trial μ (Except Error Unit × σ)) fun _ => True

instance {μ : Type} : SilentLoader μ Unit where
  refresh_sends _ _ := sends_question fun r _ => (r.refresh, ())

instance {μ : Type} : SilentLoader μ (Control.Catalog Nat) where
  refresh_sends _ c := by
    refine (sends_question fun r _ => r.rows).bind fun rows _ => ?_
    cases rows.bind Control.Catalog.load <;> exact .pure trivial

variable {δ μ σ α : Type}

/-- What is still to be sent on the replication connection. -/
def unsent (d : Bench σ) : Bytes := (d.connections.replication.map Connection.outbox).getD []

/-- What a feed is about to report, or has failed to report, is the position in its ledger. -/
structure Truthful (r : Run δ μ) (d : Bench σ) : Prop where
  update : ∀ u, r.phase = .reporting u → ∃ t, u = .acknowledge r.ledger.reported t
  unsent : unsent d = [] ∨ r.phase.working = false ∧
    ∃ t, unsent d = Request.copyData (StatusUpdate.acknowledge r.ledger.reported t).layout

section Truthful

variable {r r' : Run δ μ} {d d' : Bench σ}

theorem Truthful.reports (truthful : Truthful r d) : Reports r.ledger.reported (Trial.unsent d) := by
  obtain empty | ⟨-, t, left⟩ := truthful.unsent
  · rw [empty]
    exact .nil
  · rw [left]
    exact .acknowledge _ t

theorem Truthful.silent (empty : Trial.unsent d = []) (other : ∀ u, r.phase ≠ .reporting u) : Truthful r d :=
  ⟨fun u phase => absurd phase (other u), .inl empty⟩

/-- What others do makes no difference. -/
theorem Truthful.keep (truthful : Truthful r d) (phase : r'.phase = r.phase) (ledger : r'.ledger = r.ledger)
    (same : Trial.unsent d' = Trial.unsent d) : Truthful r' d' := by
  obtain ⟨update, left⟩ := truthful
  exact ⟨by rw [phase, ledger]; exact update, by rw [phase, ledger, same]; exact left⟩

/-- A feed that breaks off has nothing more to report. -/
theorem Truthful.panic (truthful : Truthful r d) (task : Nat) (message : String) :
    Truthful (r.panic task message) d :=
  ⟨nofun, truthful.unsent.imp_right fun ⟨_, left⟩ => ⟨rfl, left⟩⟩

theorem takes_not_reporting [Decoder δ μ] {now : Nat} {frame : Except Error Frame} {events : List (Event μ)}
    (takes : Run.Takes r now frame r' events) (u : StatusUpdate) : r'.phase ≠ .reporting u := by
  cases takes <;> simp [Run.conclude, Run.hurry, Run.skip, Run.forward]

theorem Truthful.makes [Decoder δ μ] (truthful : Truthful r d) {v : View} {move : Move}
    {events : List (Event μ)} (made : Run.Makes r v move r' events) : Truthful r' d := by
  obtain ⟨update, left⟩ := truthful
  cases working : r.phase.working with
  | true =>
    have empty : Trial.unsent d = [] := left.resolve_right (by simp [working])
    cases made with
    | due phase late => exact ⟨fun u same => ⟨v.wallClock, (Phase.reporting.inj same).symm⟩, .inl empty⟩
    | take _ _ takes => exact .silent empty (takes_not_reporting takes)
    | _ => exact .silent empty (by simp [Run.conclude, Run.hurry, Run.skip, Run.forward, Run.panic])
  | false =>
    cases made with
    | close | release | publish => exact ⟨by rintro _ ⟨⟩, left.imp_right fun own => ⟨rfl, own.2⟩⟩
    | _ => simp_all [Phase.working]

end Truthful

section Turning

variable [Decoder δ μ] [Control.SchemaLoader (Trial μ) σ] {r : Run δ μ} {d : Bench σ}

omit [Decoder δ μ] [Control.SchemaLoader (Trial μ) σ] in
theorem withReplication_sends {allowed : Bytes → Prop} {f : Connection Nat → Trial μ (α × Connection Nat)}
    {absent : α} {Q : α → Bytes → Prop} (missing : unsent d = [] → Q absent [])
    (sends : ∀ c ∈ d.connections.replication, Sends allowed (f c) fun p => Q p.1 p.2.outbox) :
    Sends allowed ((Desk.withReplication absent f).run d) fun p => Q p.1 (unsent p.2) := by
  obtain ⟨⟨control, _ | c⟩, loader, acked, refreshed⟩ := d
  · exact .pure (missing rfl)
  · rw [withReplication_run]
    exact (sends c rfl).map fun _ => id

/-- A feed after the move that it has chosen, if it can make it. -/
def moved (r : Run δ μ) (v : View) (move : Option Move) : Run δ μ :=
  ((move.bind (r.apply v)).map Prod.fst).getD r

omit [Control.SchemaLoader (Trial μ) σ] in
theorem Truthful.moved (truthful : Truthful r d) (v : View) (move : Option Move) :
    Truthful (Trial.moved r v move) d := by
  unfold Trial.moved
  cases applied : move.bind (r.apply v) with
  | none => exact truthful
  | some p =>
    obtain ⟨m, -, applied⟩ := Option.bind_eq_some_iff.mp applied
    exact truthful.makes (Run.makes_of_apply applied)

theorem nextMove_sends_of_reporting (truthful : Truthful r d) (v : View) {u : StatusUpdate}
    (phase : r.phase = .reporting u) :
    Sends (Reports r.ledger.reported)
      ((r.nextMove v : StateT (Bench σ) (Trial μ) (Option Move)).run d)
      fun p => Truthful (Trial.moved r v p.1) p.2 := by
  obtain ⟨t, rfl⟩ := truthful.update u phase
  have empty : unsent d = [] := truthful.unsent.resolve_right (by simp [phase, Phase.working])
  have outbox (c : Connection Nat) (here : c ∈ d.connections.replication) : c.outbox = [] := by
    rwa [unsent, show d.connections.replication = some c from here] at empty
  rw [Run.nextMove, phase]
  dsimp only
  rw [StateT.run_bind]
  -- What the transport has not taken is left unsent, and the work is over.
  refine (withReplication_sends (Q := fun outcome left => left = [] ∨ (∃ e, outcome = .error e) ∧
    left = Request.copyData (StatusUpdate.acknowledge r.ledger.reported t).layout)
    (fun _ => .inl rfl) fun c here => ?_).bind fun p own => .pure ?_
  · have said : Reports r.ledger.reported
        (c.outbox ++ Request.copyData (StatusUpdate.acknowledge r.ledger.reported t).layout) := by
      rw [outbox c here]
      exact .acknowledge _ t
    refine (report_sends said).mono fun p own => ?_
    obtain ⟨e | _, c'⟩ := p
    · exact .inr ⟨⟨e, rfl⟩, by rw [← List.nil_append (Request.copyData _), ← outbox c here]; exact own⟩
    · exact .inl own
  · obtain empty | ⟨⟨e, failed⟩, left⟩ := own
    · have kept : Truthful r p.2 := ⟨truthful.update, .inl empty⟩
      exact kept.moved v _
    · have concludes : Trial.moved r v (some (.report p.1)) = r.conclude e := by
        simp [Trial.moved, Run.apply, phase, failed]
      rw [concludes]
      exact ⟨by rintro _ ⟨⟩, .inr ⟨rfl, t, left⟩⟩

theorem nextMove_sends_of_listening (truthful : Truthful r d) (v : View) (phase : r.phase = .listening) :
    Sends (Reports r.ledger.reported)
      ((r.nextMove v : StateT (Bench σ) (Trial μ) (Option Move)).run d)
      fun p => Truthful (Trial.moved r v p.1) p.2 := by
  rw [Run.nextMove, phase]
  dsimp only
  split
  · exact .pure (truthful.moved v _)
  · rw [StateT.run_bind]
    refine (withReplication_sends (Q := fun _ left => left = unsent d) Eq.symm fun c here => ?_).bind
      fun p own => ?_
    · refine poll_sends.mono fun _ same => ?_
      rw [same, unsent, show d.connections.replication = some c from here]
      rfl
    · have kept : Truthful r p.2 := truthful.keep rfl rfl own
      obtain ⟨frame, d'⟩ := p
      cases frame <;> exact .pure (kept.moved v _)

theorem nextMove_sends_of_closing (truthful : Truthful r d) (v : View) {result : Except Error Unit}
    (phase : r.phase = .closing result) :
    Sends (Reports r.ledger.reported)
      ((r.nextMove v : StateT (Bench σ) (Trial μ) (Option Move)).run d)
      fun p => Truthful (Trial.moved r v p.1) p.2 := by
  rw [Run.nextMove, phase]
  dsimp only
  rw [StateT.run_bind, close_run]
  have sends : Sends (Reports r.ledger.reported)
      ((fun c => ((), { d with connections := c })) <$> d.connections.close : Trial μ (Unit × Bench σ))
      fun p => unsent p.2 = [] := by
    refine (close_both_sends fun c here => ?_).map fun _ empty => by rw [empty]; rfl
    have said := truthful.reports
    rw [unsent, show d.connections.replication = some c from here] at said
    exact said.goodbye _
  refine sends.bind fun p own => .pure ?_
  have kept : Truthful r p.2 := ⟨truthful.update, .inl own⟩
  exact kept.moved v _

theorem nextMove_sends (truthful : Truthful r d) (v : View) :
    Sends (Reports r.ledger.reported)
      ((r.nextMove v : StateT (Bench σ) (Trial μ) (Option Move)).run d)
      fun p => Truthful (Trial.moved r v p.1) p.2 := by
  cases phase : r.phase with
  | reporting => exact nextMove_sends_of_reporting truthful v phase
  | listening => exact nextMove_sends_of_listening truthful v phase
  | closing => exact nextMove_sends_of_closing truthful v phase
  | _ =>
    rw [Run.nextMove, phase]
    exact .pure (truthful.moved v _)

omit [Decoder δ μ] in
theorem view_sends {allowed : Bytes → Prop} :
    Sends allowed ((Surroundings.view : StateT (Bench σ) (Trial μ) View).run d) fun p => p.2 = d := by
  rw [view_run]
  exact (sends_question fun _ w => w.now).bind fun _ _ => (sends_question fun r _ => r.wallClock).bind
    fun _ _ => .pure rfl

omit [Decoder δ μ] in
theorem startRefresh_sends [SilentLoader μ σ] {allowed : Bytes → Prop} :
    Sends allowed ((Surroundings.startRefresh : StateT (Bench σ) (Trial μ) Unit).run d)
      fun p => unsent p.2 = unsent d := by
  rw [startRefresh_run]
  exact (SilentLoader.refresh_sends allowed d.loader).map fun _ _ => rfl

theorem turn_sends [SilentLoader μ σ] (truthful : Truthful r d) :
    Sends (Reports r.ledger.reported) ((r.turn : StateT (Bench σ) (Trial μ) (Option (Run δ μ))).run d)
      fun p => Truthful (p.1.getD r) p.2 := by
  unfold Run.turn
  rw [StateT.run_bind]
  refine view_sends.bind fun ⟨v, d'⟩ same => ?_
  obtain rfl : d' = d := same
  rw [StateT.run_bind]
  refine (nextMove_sends truthful v).bind fun ⟨move, d'⟩ own => ?_
  cases move with
  | none => exact .pure own
  | some move =>
    dsimp only
    cases applied : r.apply v move with
    | none =>
      have waits : moved r v (some move) = r := by simp [moved, applied]
      exact .pure (waits ▸ own)
    | some p =>
      obtain ⟨r', events⟩ := p
      have goes : moved r v (some move) = r' := by simp [moved, applied]
      have own : Truthful r' d' := goes ▸ own
      dsimp only
      rw [StateT.run_bind, record_run]
      refine ((record_sends events).map (R := fun p => p.2 = d') fun _ _ => rfl).bind fun ⟨_, d₁⟩ same => ?_
      obtain rfl : d₁ = d' := same
      split
      · rw [StateT.run_bind]
        exact startRefresh_sends.bind fun p same => .pure (own.keep rfl rfl same)
      · exact .pure own

end Turning

section Course

variable [Decoder δ μ] [Control.SchemaLoader (Trial μ) σ]

/-- A feed from its start on. It has its turns among surroundings that answer as they like; meanwhile others
receive changes, let go of the channel, confirm positions and ask the feed to stop, or it breaks off. -/
inductive Serving : Run δ μ → Bench σ → Prop
  | start {decoder interval channel now d} : unsent d = [] →
      Serving (Run.start decoder interval channel now) d
  | startWithoutConnection {decoder interval channel d} : d.connections.replication = none →
      Serving (Run.startWithoutConnection decoder interval channel) d
  | turn {r d w next d' w'} : Serving r d →
      (r.turn : StateT (Bench σ) (Trial μ) (Option (Run δ μ))).run d w = some ((next, d'), w') →
      Serving (next.getD r) d'
  | receive {r d} : Serving r d → Serving r.receive.2 d
  | dropReceiver {r d} : Serving r d → Serving r.dropReceiver d
  | confirm {r d} (acked : Lsn) : Serving r d → Serving r { d with acked }
  | requestStop {r d} : Serving r d → Serving r.requestStop d
  | breakOff {r d} (task : Nat) (message : String) : Serving r d → Serving (r.panic task message) d

variable {r : Run δ μ} {d : Bench σ}

theorem Serving.truthful [SilentLoader μ σ] (serving : Serving r d) : Truthful r d := by
  induction serving with
  | @start decoder interval channel now _ empty =>
    refine .silent empty fun u => ?_
    rcases Run.start_eq decoder interval channel now with ⟨_, _, begun⟩ | ⟨_, begun⟩ <;>
      simp [begun, Run.spawn, Run.panic]
  | startWithoutConnection absent =>
    refine .silent ?_ (by simp [Run.startWithoutConnection, Run.spawn])
    rw [unsent, absent]
    rfl
  | turn _ turned ih => exact (turn_sends ih _ _ _ turned).1
  | receive _ ih =>
    rw [Run.receive_snd]
    exact ih.keep rfl rfl rfl
  | dropReceiver _ ih => exact ih.keep rfl rfl rfl
  | confirm acked _ ih => exact ih.keep rfl rfl rfl
  | requestStop _ ih => exact ih.keep rfl rfl rfl
  | breakOff task message _ ih => exact ih.panic task message

/-- A feed that settles has had some turns. -/
theorem Serving.settle (serving : Serving r d) {fuel : Nat} {r' : Run δ μ} {d' : Bench σ} {w w' : Outside μ}
    (settled : (r.settle fuel : StateT (Bench σ) (Trial μ) (Run δ μ)).run d w = some ((r', d'), w')) :
    Serving r' d' := by
  induction fuel generalizing r d w with
  | zero =>
    cases settled
    exact serving
  | succ fuel ih =>
    obtain ⟨next, d₁, u, turned, rest⟩ := run_bind_eq_some.mp settled
    have onward := serving.turn turned
    cases next with
    | some r₁ => exact ih onward rest
    | none =>
      cases rest
      exact onward

/-- A source starts feeds with nothing unsent. -/
theorem start_serving {s s' : Source Nat Nat σ δ μ} {checkpoint : Checkpoint} {w w' : Outside μ}
    (started : (s.start checkpoint : Trial μ _) w = some ((.started, s'), w')) :
    ∃ c, s'.capture = some c ∧ Serving c.run c.desk := by
  cases launches_of_start started with
  | @started c _ _ stream _ u _ _ _ _ _ _ opened =>
    obtain ⟨r, present, empty⟩ := openStream_gives _ c checkpoint w _ u opened stream rfl
    refine ⟨_, rfl, .start ?_⟩
    rw [unsent, show _ = some r from present]
    exact empty

/-- Bytes show the fields of an update, each in its place, exactly if they are the 34 bytes of its layout, so
the update is read from them, and different updates are laid out differently. Whatever a feed sends in a turn,
at any time of its course, all data in it are updates that acknowledge the position it has reported and ask
for no answer; and every feed that a source starts begins such a course. -/
theorem reports_acknowledge [SilentLoader μ σ] :
    (∀ (p : Bytes) (u : StatusUpdate), StatusUpdate.Shows p u ↔ u.Fits ∧ p = u.layout) ∧
    (∀ u : StatusUpdate, u.Fits → u.layout.length = 34 ∧ StatusUpdate.ofBytes? u.layout = some u) ∧
    (∀ u v : StatusUpdate, u.Fits → v.Fits → u.layout = v.layout → u = v) ∧
    (∀ (r : Run δ μ) (d : Bench σ), Serving r d → ∀ (w : Outside μ) next d' w',
      (r.turn : StateT (Bench σ) (Trial μ) (Option (Run δ μ))).run d w = some ((next, d'), w') →
      ∃ notes, w'.log = w.log ++ notes ∧
        ∀ i bytes, .sent i bytes ∈ notes → Reports r.ledger.reported bytes) ∧
    ∀ (s s' : Source Nat Nat σ δ μ) (checkpoint : Checkpoint) (w w' : Outside μ),
      (s.start checkpoint : Trial μ _) w = some ((.started, s'), w') →
      ∃ c, s'.capture = some c ∧ Serving c.run c.desk := by
  refine ⟨fun _ _ => StatusUpdate.shows_iff, fun u fits => ?_, fun u v fits fits' same => ?_, ?_,
    fun _ _ _ _ _ started => start_serving started⟩
  · exact ⟨u.length_layout, StatusUpdate.ofBytes?_layout_of_fits fits⟩
  · have shows' := StatusUpdate.shows_layout fits
    exact shows'.unique (same ▸ StatusUpdate.shows_layout fits')
  · intro r d serving w next d' w' turned
    exact (turn_sends serving.truthful w _ w' turned).2

end Course

/-- The first report of a feed, and an update with three positions at a time before 2000. -/
theorem first_report_acknowledges :
    let u : StatusUpdate := ⟨⟨1, by decide⟩, ⟨1 <<< 32, by decide⟩, ⟨2 ^ 64 - 1, by decide⟩, -1, true⟩
    let l : Lsn := ⟨5, by decide⟩
    let reply : Reply :=
      ⟨1, -7, .done (), .done (), .ok [], .ok (), .error .timedOut, .ok (), none, .ok (), "", none, .ok (),
        false, none⟩
    let start : Run Pglogical.Relations Pglogical.Message := .start .empty 0 ⟨1, [], true, true⟩ 0
    let desk : Bench Unit := ⟨⟨none, some ⟨3, [], [], true, false⟩⟩, (), l, none⟩
    let outside : Outside Pglogical.Message := ⟨List.replicate 5 reply, 0, .empty, []⟩
    (u.layout.length = 34 ∧ StatusUpdate.ofBytes? u.layout = some u) ∧
      ∃ r d w next d' w',
        (start.turn : StateT (Bench Unit) (Trial _) _).run desk outside = some ((some r, d), w) ∧
        (r.turn : StateT (Bench Unit) (Trial _) _).run d w = some ((next, d'), w') ∧
        ∃ bytes, w'.log = w.log ++ [.sent 3 bytes] ∧ bytes.length = 39 ∧ Reports l bytes := by
  intro u l reply start desk outside
  have serving : Serving start desk := .start rfl
  obtain ⟨r, d, w, next, d', w', first, second, position, bytes, log, long⟩ : ∃ r d w next d' w',
      (start.turn : StateT (Bench Unit) (Trial _) _).run desk outside = some ((some r, d), w) ∧
      (r.turn : StateT (Bench Unit) (Trial _) _).run d w = some ((next, d'), w') ∧ r.ledger.reported = l ∧
      ∃ bytes, w'.log = w.log ++ [.sent 3 bytes] ∧ bytes.length = 39 :=
    ⟨_, _, _, _, _, _, rfl, rfl, by decide, _, rfl, by decide⟩
  obtain ⟨-, codec, -, run, -⟩ := reports_acknowledge (δ := Pglogical.Relations) (σ := Unit)
  obtain ⟨notes, log', sent⟩ := run r d (serving.turn first) w next d' w' second
  obtain rfl : notes = [.sent 3 bytes] := List.append_cancel_left (log'.symm.trans log)
  have reports := sent 3 bytes (List.mem_singleton_self _)
  rw [position] at reports
  exact ⟨codec u ⟨by decide, by decide⟩, r, d, w, next, d', w', first, second, bytes, log, long, reports⟩

end Trial

end ChangeFeed
