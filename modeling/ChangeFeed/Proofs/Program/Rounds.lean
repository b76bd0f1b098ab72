import ChangeFeed.Program.Capture
import ChangeFeed.Proofs.Feed.Positions
import ChangeFeed.Proofs.Program.Lines
import ChangeFeed.Proofs.Source.Steps
import ChangeFeed.Proofs.Surroundings.Files

/-!
The feed and the forwarder, round after round, among surroundings that answer as they like. Main
statement: what has been printed are the lines of changes past position zero, the checkpoint that is left
at the end is the last one's, and the output is flushed last.
-/
namespace ChangeFeed

namespace Program

variable {κ ι : Type} {m : Type → Type} [Monad m] [Control.Database m κ] [Session.Network m ι]
  [Time.Clock m] [FileSystem m] [Terminal m] [Feed.Witness m Pglogical.Message]

namespace Forwarding

/-- What a forwarder leaves that has made a move: the rest of its work, or its result. -/
def after (p : Forwarding κ ι) (f : Forwarder) :
    Forwarding κ ι ⊕ (Except IoFault (Option Checkpoint) × PglogicalSource κ ι) :=
  let source := { p.source with tracker := f.tracker }
  match f.phase with
  | .ended result => .inr (result, source)
  | _ => .inl { p with forwarder := f, source }

theorem after_waiting {p : Forwarding κ ι} {f : Forwarder} (waiting : f.phase = .waiting) :
    p.after f = .inl { p with forwarder := f, source := { p.source with tracker := f.tracker } } := by
  rw [after, waiting]

theorem after_ended {p : Forwarding κ ι} {f : Forwarder} {result : Except IoFault (Option Checkpoint)}
    (ended : f.phase = .ended result) :
    p.after f = .inr (result, { p.source with tracker := f.tracker }) := by
  rw [after, ended]

/-- One turn of feed and forwarder. -/
def round (p : Forwarding κ ι) :
    m (Forwarding κ ι ⊕ (Except IoFault (Option Checkpoint) × PglogicalSource κ ι)) := do
  let p := { p with source := ← p.source.settle }
  match p.next? (← Time.Clock.now) (← Terminal.interrupted) with
  | none =>
    Time.Clock.wait (some p.deadline)
    return .inl p
  | some (move, p) => return p.after (← p.forwarder.move p.store move)

theorem run_succ [LawfulMonad m] (fuel : Nat) (p : Forwarding κ ι) :
    (run (fuel + 1) p : m _) = do
      match ← p.round with
      | .inl p => run fuel p
      | .inr r => return r := by
  rw [run, round]
  simp only [bind_assoc]
  refine bind_congr fun source => bind_congr fun now => bind_congr fun interrupted => ?_
  cases next? { p with source } now interrupted with
  | none => simp
  | some x =>
    simp only [bind_assoc, pure_bind]
    refine bind_congr fun forwarder => ?_
    unfold after
    cases forwarder.phase <;> rfl

end Forwarding

end Program

namespace Trial

open Program

/-- The source of a program among such surroundings. -/
abbrev TrialSource := PglogicalSource Nat Nat

def Note.line? : Note Pglogical.Message → Option String
  | .printed text => some text
  | _ => none

/-- The lines that were printed. -/
def printed (log : List (Note Pglogical.Message)) : List String := log.filterMap Note.line?

/-- The output has not been flushed yet. -/
def Unflushed (log : List (Note Pglogical.Message)) : Prop := .flushed (.ok ()) ∉ log

/-- What was written down while the changes of `written` were printed. -/
structure Tells (commands : String → Prop) (written : List PglogicalChange) (log : List (Note Pglogical.Message)) :
    Prop where
  lines : printed log = written.map line
  advanced : ∀ c ∈ written, c.checkpoint.lsn ≠ .zero
  speech : ∀ i bytes, .sent i bytes ∈ log → Wire.Speech commands bytes

section Logs

variable {commands : String → Prop} {written : List PglogicalChange} {log notes : List (Note Pglogical.Message)}

theorem Tells.append (tells : Tells commands written log) {more : List PglogicalChange}
    (lines : printed notes = more.map line) (advanced : ∀ c ∈ more, c.checkpoint.lsn ≠ .zero)
    (speech : ∀ i bytes, .sent i bytes ∈ notes → Wire.Speech commands bytes) :
    Tells commands (written ++ more) (log ++ notes) where
  lines := by rw [printed, List.filterMap_append, ← printed, tells.lines, ← printed, lines, List.map_append]
  advanced := List.forall_mem_append.mpr ⟨tells.advanced, advanced⟩
  speech i bytes member := (List.mem_append.mp member).elim (tells.speech i bytes) (speech i bytes)

/-- Notes that tell of nothing printed and nothing sent make no difference. -/
theorem Tells.other (tells : Tells commands written log) (unprinted : ∀ n ∈ notes, Note.line? n = none)
    (speech : ∀ i bytes, .sent i bytes ∈ notes → Wire.Speech commands bytes) :
    Tells commands written (log ++ notes) := by
  have nothing : printed notes = [] := List.filterMap_eq_nil_iff.mpr unprinted
  have more : Tells commands (written ++ []) (log ++ notes) := tells.append nothing (by simp) speech
  rwa [List.append_nil] at more

theorem Unflushed.append (before : Unflushed log) (after : Unflushed notes) : Unflushed (log ++ notes) :=
  fun member => (List.mem_append.mp member).elim before after

variable {w w' : Outside Pglogical.Message}

theorem Tells.passes (tells : Tells commands written w.log) (passes : Passes commands w w') :
    Tells commands written w'.log := by
  obtain ⟨notes, log, fit⟩ := passes.told
  rw [log]
  refine tells.other (fun n member => ?_) fun i bytes member => fit _ member
  cases n with
  | printed => exact (fit _ member).elim
  | _ => rfl

theorem Unflushed.passes (before : Unflushed w.log) (passes : Passes commands w w') : Unflushed w'.log := by
  obtain ⟨notes, log, fit⟩ := passes.told
  rw [log]
  exact before.append fun member => fit _ member

theorem tells_filed (tells : Tells commands written log)
    (filed : ∀ n ∈ notes, ∃ step outcome, n = .filed step outcome) :
    Tells commands written (log ++ notes) := by
  refine tells.other (fun n member => ?_) fun i bytes member => ?_
  · obtain ⟨_, _, rfl⟩ := filed n member
    rfl
  · obtain ⟨_, _, same⟩ := filed _ member
    cases same

theorem unflushed_filed (filed : ∀ n ∈ notes, ∃ step outcome, n = .filed step outcome) : Unflushed notes := by
  intro member
  obtain ⟨_, _, same⟩ := filed _ member
  cases same

end Logs

section Moving

/-- What a move of a waiting forwarder comes to, and what is written down of it. -/
inductive Moves (f : Forwarder) : ForwardMove → Forwarder → List (Note Pglogical.Message) → Prop
  | written (c : PglogicalChange) : Moves f (.receive c)
      { f with tracker := f.tracker.commit c.checkpoint, committed := some c.checkpoint } [.printed (line c)]
  | unwritten (c : PglogicalChange) {e} : Moves f (.receive c) { f with phase := .ended (.error e) } []
  | saved {f' notes} : f'.phase = .waiting → f'.committed = f.committed →
      (∀ n ∈ notes, ∃ step outcome, n = .filed step outcome) → Moves f .tick f' notes
  | failed {e} : Moves f .finish { f with phase := .ended (.error e) } [.flushed (.error e)]
  | flushed : Moves f .finish { f with phase := .ended (.ok f.committed) } [.flushed (.ok ())]

variable {f f' : Forwarder} {store : Option Store} {w w' : Outside Pglogical.Message}

theorem receive_inv (waiting : f.phase = .waiting) {c : PglogicalChange}
    (run : (f.move store (.receive c) : Trial _ _) w = some (f', w')) :
    ∃ notes, w'.log = w.log ++ notes ∧ Moves f (.receive c) f' notes := by
  obtain ⟨phase, saves, tracker, committed, saved⟩ := f
  cases waiting
  obtain ⟨y, u, worked, rest⟩ := bind_eq_some.mp run
  obtain ⟨outcome, u', asked, same⟩ := bind_eq_some.mp worked
  cases same
  obtain ⟨r, _, _, answered⟩ := ask_eq_some.mp asked
  cases fault : r.line with
  | some e =>
    rw [fault] at answered
    cases answered
    cases rest
    exact ⟨[], (List.append_nil _).symm, .unwritten c⟩
  | none =>
    rw [fault] at answered
    cases answered
    cases rest
    exact ⟨_, rfl, .written c⟩

theorem finish_inv (waiting : f.phase = .waiting)
    (run : (f.move store .finish : Trial _ _) w = some (f', w')) :
    ∃ notes, w'.log = w.log ++ notes ∧ Moves f .finish f' notes := by
  obtain ⟨phase, saves, tracker, committed, saved⟩ := f
  cases waiting
  obtain ⟨y, u, worked, rest⟩ := bind_eq_some.mp run
  obtain ⟨outcome, u', asked, same⟩ := bind_eq_some.mp worked
  cases same
  obtain ⟨r, _, _, answered⟩ := ask_eq_some.mp asked
  cases flushed : r.flush <;> rw [flushed] at answered <;> cases answered <;> cases rest
  · exact ⟨_, rfl, .failed⟩
  · exact ⟨_, rfl, .flushed⟩

theorem tick_inv (waiting : f.phase = .waiting)
    (run : (f.move store .tick : Trial _ _) w = some (f', w')) :
    ∃ notes, w'.log = w.log ++ notes ∧ Moves f .tick f' notes := by
  unfold Forwarder.move at run
  cases unsaved : f.unsaved? with
  | none =>
    have same : f.apply .tick = some f := by simp [Forwarder.apply, waiting, unsaved]
    rw [same] at run
    obtain ⟨y, u, worked, rest⟩ := bind_eq_some.mp run
    simp only [Forwarder.work?, waiting] at worked
    cases worked
    cases rest
    exact ⟨[], (List.append_nil _).symm, .saved waiting rfl (by simp)⟩
  | some c =>
    have saving : f.apply .tick = some { f with phase := .saving c } := by
      simp [Forwarder.apply, waiting, unsaved]
    rw [saving] at run
    obtain ⟨y, u, worked, rest⟩ := bind_eq_some.mp run
    cases store with
    | none =>
      cases worked
      cases rest
      exact ⟨[], (List.append_nil _).symm, .saved rfl rfl (by simp)⟩
    | some store =>
      obtain ⟨outcome, u', performed, same⟩ := bind_eq_some.mp worked
      obtain ⟨notes, _, log, performs⟩ := save_inv performed
      cases same
      cases rest
      refine ⟨notes, log, .saved ?_ ?_ performs.filed⟩ <;> cases outcome <;> rfl

end Moving

/-- A source of which the program has only the capture, with changes past position zero. -/
structure Feeding (commands : String → Prop) (s : TrialSource) : Prop where
  bare : s.connections = none
  holds : ∀ c ∈ s.capture, Holds commands c.run c.desk
  advanced : ∀ c ∈ s.capture, c.run.Advanced

namespace Feeding

variable {commands : String → Prop} {s s' : TrialSource} {w w' : Outside Pglogical.Message}

theorem settle (feeding : Feeding commands s) (run : (s.settle : Trial _ _) w = some (s', w')) :
    Feeding commands s' ∧ Passes commands w w' := by
  cases latest : s.capture with
  | none =>
    unfold Source.settle at run
    rw [latest] at run
    cases run
    exact ⟨feeding, .refl _⟩
  | some c =>
    obtain ⟨c', rfl, holds, passes, -, becomes, -⟩ := settled_inv latest (feeding.holds c latest) run
    refine ⟨⟨feeding.bare, ?_, ?_⟩, passes⟩ <;> rintro _ ⟨⟩
    · exact holds
    · exact becomes.preserves Feed.Run.Advanced.apply (feeding.advanced c latest)

/-- A change that is received has come past position zero. -/
theorem receive (feeding : Feeding commands s) {c : PglogicalChange}
    (received : s.tryReceive = some (.change c, s')) :
    Feeding commands s' ∧ c.checkpoint.lsn ≠ .zero := by
  obtain ⟨capture, latest, same⟩ := Option.map_eq_some_iff.mp received
  have source : s' = { s with capture := some { capture with run := capture.run.receive.2 } } :=
    (Prod.mk.inj same).2.symm
  have got : capture.run.receive.1 = .change c := (Prod.mk.inj same).1
  obtain ⟨own, rest⟩ := Feed.Run.coming_receive got
  have advanced := feeding.advanced capture latest
  rw [source]
  refine ⟨⟨feeding.bare, ?_, ?_⟩, advanced _ own⟩ <;> rintro _ ⟨⟩
  · rw [Feed.Run.receive_snd]
    exact (feeding.holds capture latest).keep rfl (.inl rfl) rfl rfl
  · exact fun l member => advanced l (rest member)

end Feeding

/-- A program at work that has printed the changes of `written`. -/
structure Underway (commands : String → Prop) (written : List PglogicalChange) (p : Forwarding Nat Nat)
    (log : List (Note Pglogical.Message)) : Prop where
  waiting : p.forwarder.phase = .waiting
  committed : p.forwarder.committed = lastCheckpoint written
  feeding : Feeding commands p.source
  tells : Tells commands written log
  unflushed : Unflushed log

/-- How forwarding the changes of `written` ends. -/
inductive Ends (written : List PglogicalChange) (log : List (Note Pglogical.Message)) :
    Except IoFault (Option Checkpoint) → Prop
  | failed {fault} : Unflushed log → Ends written log (.error fault)
  | exhausted : Unflushed log → Ends written log (.ok (lastCheckpoint written))
  | flushed {earlier} : Unflushed earlier → log = earlier ++ [.flushed (.ok ())] →
      Ends written log (.ok (lastCheckpoint written))

section Forwarding

variable {commands : String → Prop} {written : List PglogicalChange} {p p' : Forwarding Nat Nat}
  {w w' : Outside Pglogical.Message}

/-- What the forwarder chooses to do is open to it, and changes that it takes come from the feed. -/
theorem next_inv {now : Nat} {interrupted : Bool} {move : ForwardMove}
    (chosen : p.next? now interrupted = some (move, p')) :
    p'.forwarder = p.forwarder ∧ p'.store = p.store ∧
      ((move = .finish ∨ move = .tick) ∧ p'.source = p.source ∨
        ∃ c, move = .receive c ∧ p.source.tryReceive = some (.change c, p'.source)) := by
  unfold Forwarding.next? at chosen
  split at chosen
  · cases chosen
    exact ⟨rfl, rfl, .inl ⟨.inl rfl, rfl⟩⟩
  split at chosen
  · cases chosen
    exact ⟨rfl, rfl, .inl ⟨.inr rfl, rfl⟩⟩
  split at chosen
  · rename_i c source received
    cases chosen
    exact ⟨rfl, rfl, .inr ⟨c, rfl, received⟩⟩
  · cases chosen
  · cases chosen
    exact ⟨rfl, rfl, .inl ⟨.inl rfl, rfl⟩⟩

/-- What a round leaves: the program still at work, or the end of it. -/
def Leaves (commands : String → Prop) (w' : Outside Pglogical.Message) :
    Forwarding Nat Nat ⊕ (Except IoFault (Option Checkpoint) × TrialSource) → Prop
  | .inl p => ∃ written, Underway commands written p w'.log
  | .inr (result, s) =>
    ∃ written, Feeding commands s ∧ Tells commands written w'.log ∧ Ends written w'.log result

theorem lastCheckpoint_append (c : PglogicalChange) :
    lastCheckpoint (written ++ [c]) = some c.checkpoint := by
  simp [lastCheckpoint]

/-- After a move the program is still at work, or it has come to its end. -/
theorem Underway.move (underway : Underway commands written p w.log) {move : ForwardMove} {f : Forwarder}
    {notes : List (Note Pglogical.Message)} (moves : Moves p.forwarder move f notes)
    (past : ∀ c, move = .receive c → c.checkpoint.lsn ≠ .zero) (log : w'.log = w.log ++ notes) :
    Leaves commands w' (p.after f) := by
  obtain ⟨waiting, committed, feeding, tells, unflushed⟩ := underway
  have feeding' (tracker : Tracker) : Feeding commands { p.source with tracker } :=
    ⟨feeding.bare, feeding.holds, feeding.advanced⟩
  cases moves with
  | written c =>
    rw [Forwarding.after_waiting]
    · refine ⟨written ++ [c], waiting, (lastCheckpoint_append c).symm, feeding' _, ?_, ?_⟩ <;> rw [log]
      · exact tells.append rfl (by simpa using past c rfl) (by simp)
      · exact unflushed.append (by simp [Unflushed])
    · exact waiting
  | unwritten c =>
    rw [Forwarding.after_ended rfl]
    have same : w'.log = w.log := by rw [log, List.append_nil]
    exact ⟨written, feeding' _, same ▸ tells, .failed (same ▸ unflushed)⟩
  | saved waiting' same filed =>
    rw [Forwarding.after_waiting waiting']
    refine ⟨written, waiting', same.trans committed, feeding' _, ?_, ?_⟩ <;> rw [log]
    · exact tells_filed tells filed
    · exact unflushed.append (unflushed_filed filed)
  | failed =>
    rw [Forwarding.after_ended rfl]
    refine ⟨written, feeding' _, ?_, .failed ?_⟩ <;> rw [log]
    · exact tells.other (by simp [Note.line?]) (by simp)
    · exact unflushed.append (by simp [Unflushed])
  | flushed =>
    rw [Forwarding.after_ended rfl, committed]
    refine ⟨written, feeding' _, ?_, .flushed unflushed log⟩
    rw [log]
    exact tells.other (by simp [Note.line?]) (by simp)

theorem Underway.passes (underway : Underway commands written p w.log) (passes : Passes commands w w')
    (forwarder : p'.forwarder = p.forwarder) (feeding : Feeding commands p'.source) :
    Underway commands written p' w'.log where
  waiting := forwarder ▸ underway.waiting
  committed := forwarder ▸ underway.committed
  feeding := feeding
  tells := underway.tells.passes passes
  unflushed := underway.unflushed.passes passes

theorem round_inv (underway : Underway commands written p w.log)
    {next : Forwarding Nat Nat ⊕ (Except IoFault (Option Checkpoint) × TrialSource)}
    (run : (p.round : Trial _ _) w = some (next, w')) : Leaves commands w' next := by
  obtain ⟨source, u₁, settled, rest⟩ := bind_eq_some.mp run
  obtain ⟨feeding, passes₁⟩ := underway.feeding.settle settled
  obtain ⟨now, u₂, asked, rest⟩ := bind_eq_some.mp rest
  obtain ⟨-, passes₂, -⟩ := (quiet_question fun _ w => w.now : Quiet commands _ _) u₁ now u₂ asked
  obtain ⟨interrupted, u₃, asked', rest⟩ := bind_eq_some.mp rest
  obtain ⟨-, passes₃, -⟩ :=
    (quiet_question fun r _ => r.interrupted : Quiet commands _ _) u₂ interrupted u₃ asked'
  have passes := (passes₁.trans passes₂).trans passes₃
  cases chosen : Forwarding.next? { p with source } now interrupted with
  | none =>
    rw [chosen] at rest
    obtain ⟨_, u₄, waited, rest⟩ := bind_eq_some.mp rest
    obtain ⟨-, passes₄, -⟩ := (quiet_question fun _ _ => () : Quiet commands _ _) u₃ _ u₄ waited
    cases rest
    exact ⟨written, underway.passes (passes.trans passes₄) rfl feeding⟩
  | some x =>
    obtain ⟨move, p'⟩ := x
    rw [chosen] at rest
    obtain ⟨f, u₄, moved, rest⟩ := bind_eq_some.mp rest
    cases rest
    obtain ⟨forwarder, -, kinds⟩ := next_inv chosen
    obtain ⟨feeding', past⟩ : Feeding commands p'.source ∧ ∀ c, move = .receive c → c.checkpoint.lsn ≠ .zero := by
      rcases kinds with ⟨event, same⟩ | ⟨c, rfl, received⟩
      · refine ⟨same ▸ feeding, ?_⟩
        rintro c rfl
        simp at event
      · obtain ⟨feeding', past⟩ := feeding.receive received
        refine ⟨feeding', ?_⟩
        rintro _ ⟨⟩
        exact past
    have underway' : Underway commands written p' u₃.log := underway.passes passes forwarder feeding'
    obtain ⟨notes, log, moves⟩ : ∃ notes, w'.log = u₃.log ++ notes ∧ Moves p'.forwarder move f notes := by
      rcases kinds with ⟨rfl | rfl, -⟩ | ⟨c, rfl, -⟩
      · exact finish_inv underway'.waiting moved
      · exact tick_inv underway'.waiting moved
      · exact receive_inv underway'.waiting moved
    exact underway'.move moves past log

/-- Forwarding ends with the checkpoint of the last line, or with a failure, and flushes last. -/
theorem forwarding_inv {fuel : Nat} (underway : Underway commands written p w.log)
    {result : Except IoFault (Option Checkpoint)} {s : TrialSource}
    (run : (Forwarding.run fuel p : Trial _ _) w = some ((result, s), w')) :
    ∃ written, Feeding commands s ∧ Tells commands written w'.log ∧ Ends written w'.log result := by
  induction fuel generalizing written p w with
  | zero =>
    cases run
    exact ⟨written, underway.feeding, underway.tells, underway.committed ▸ .exhausted underway.unflushed⟩
  | succ fuel ih =>
    rw [Forwarding.run_succ] at run
    obtain ⟨next, u, round, rest⟩ := bind_eq_some.mp run
    have leaves := round_inv underway round
    cases next with
    | inl p' =>
      obtain ⟨written', underway'⟩ := leaves
      exact ih underway' rest
    | inr r =>
      cases rest
      exact leaves

end Forwarding

end Trial

end ChangeFeed
