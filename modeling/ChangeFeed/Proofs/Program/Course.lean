import ChangeFeed.Proofs.Program.Rounds
import Mathlib.Data.List.Basic

/-!
Whole runs of the program with a checkpoint file. Main statement: what a run says fits the checkpoint
that it starts from, and if it saves after its last line, its file reads as the checkpoint of that line.
-/
namespace ChangeFeed.Trial

open Program

/-- The checkpoint has been put in its place after the output was flushed. -/
def Saves (s : Store) (log : List (Note Pglogical.Message)) : Prop :=
  ∃ before after, log = before ++ .flushed (.ok ()) :: after ∧
    .filed (.rename s.draft s.path) (.ok ()) ∈ after

/-- What has come of a program that has printed the changes of `written`. -/
structure Concludes (commands : String → Prop) (store : Option Store) (written : List PglogicalChange)
    (w : Outside Pglogical.Message) : Prop where
  tells : Tells commands written w.log
  saved : ∀ s ∈ store, Saves s w.log →
    ∃ c, lastCheckpoint written = some c ∧ w.volume.read s.path = .ok c.toFile

variable {commands : String → Prop} {store : Option Store} {written : List PglogicalChange}
  {w w' : Outside Pglogical.Message} {exit : Exit}

theorem Tells.concludes (tells : Tells commands written w.log) (unflushed : Unflushed w.log) :
    Concludes commands store written w := by
  refine ⟨tells, fun s _ saves => ?_⟩
  obtain ⟨before, after, log, -⟩ := saves
  exact absurd (by rw [log]; simp) unflushed

theorem tells_nothing (nothing : w.log = []) : Tells commands [] w.log ∧ Unflushed w.log := by
  rw [nothing]
  exact ⟨⟨rfl, by simp, by simp⟩, by simp [Unflushed]⟩

/-- Notes that begin with the only flush of a log are those that follow it. -/
theorem eq_of_flushed {earlier later before after : List (Note Pglogical.Message)} (first : Unflushed earlier)
    (last : Unflushed later)
    (same : earlier ++ .flushed (.ok ()) :: later = before ++ .flushed (.ok ()) :: after) : after = later :=
  ((List.append_cons_inj_of_notMem first last).mp same).2.2.symm

/-- Nothing but files is touched in the final save. -/
theorem saveFinal_inv {committed : Option Checkpoint}
    (run : (saveFinal store committed : Trial _ Unit) w = some ((), w')) :
    ∃ notes, w'.log = w.log ++ notes ∧ (∀ n ∈ notes, ∃ step outcome, n = .filed step outcome) ∧
      ∀ s ∈ store, .filed (.rename s.draft s.path) (.ok ()) ∈ notes →
        ∃ c, committed = some c ∧ w'.volume.read s.path = .ok c.toFile := by
  obtain _ | s := store
  · cases run
    exact ⟨[], (List.append_nil _).symm, by simp, by simp⟩
  obtain _ | c := committed
  · cases run
    exact ⟨[], (List.append_nil _).symm, by simp, by simp⟩
  obtain ⟨result, u, saved, rest⟩ := bind_eq_some.mp run
  cases rest
  obtain ⟨notes, outcome, log, performs⟩ := save_inv saved
  refine ⟨notes, log, performs.filed, ?_⟩
  rintro _ ⟨⟩ renamed
  exact ⟨c, rfl, performs.saved renamed⟩

theorem forward_inv {s : TrialSource} (feeding : Feeding commands s) (tells : Tells commands [] w.log)
    (unflushed : Unflushed w.log) {interval : Nat}
    (run : (forward s store interval : Trial _ _) w = some (exit, w')) :
    ∃ written, Concludes commands store written w' := by
  obtain ⟨now, u₁, asked, rest⟩ := bind_eq_some.mp run
  obtain ⟨-, passes₁, -⟩ := (quiet_question fun _ w => w.now : Quiet commands _ _) w now u₁ asked
  obtain ⟨⟨forwarded, s₁⟩, u₂, done, rest⟩ := bind_eq_some.mp rest
  obtain ⟨written, feeding₁, tells₁, ends⟩ :=
    forwarding_inv ⟨rfl, rfl, feeding, tells.passes passes₁, unflushed.passes passes₁⟩ done
  obtain ⟨⟨result, s₂⟩, u₃, stopped, rest⟩ := bind_eq_some.mp rest
  have bare : ∀ c ∈ s₁.connections, c.replication = none := by
    rw [feeding₁.bare]
    rintro _ ⟨⟩
  obtain ⟨passes₂, -⟩ := stop_inv bare feeding₁.holds stopped
  have tells₂ := tells₁.passes passes₂
  refine ⟨written, ?_⟩
  cases ends with
  | failed unflushed₁ =>
    cases rest
    exact tells₂.concludes (unflushed₁.passes passes₂)
  | exhausted unflushed₁ =>
    obtain ⟨_, u₄, saved, rest⟩ := bind_eq_some.mp rest
    obtain ⟨notes, log, filed, -⟩ := saveFinal_inv saved
    have same : u₄ = w' := by cases result <;> cases rest <;> rfl
    subst same
    have unflushed₂ := (unflushed₁.passes passes₂).append (unflushed_filed filed)
    rw [← log] at unflushed₂
    exact (log ▸ tells_filed tells₂ filed : Tells commands written u₄.log).concludes unflushed₂
  | @flushed earlier unflushed₁ log₁ =>
    obtain ⟨_, u₄, saved, rest⟩ := bind_eq_some.mp rest
    obtain ⟨notes, log, filed, complete⟩ := saveFinal_inv saved
    have same : u₄ = w' := by cases result <;> cases rest <;> rfl
    subst same
    obtain ⟨later, log₂, fit⟩ := passes₂.told
    refine ⟨log ▸ tells_filed tells₂ filed, fun s own saves => ?_⟩
    obtain ⟨before, after, shape, renamed⟩ := saves
    have unflushed₂ : Unflushed (later ++ notes) :=
      Unflushed.append (fun member => fit _ member) (unflushed_filed filed)
    rw [log, log₂, log₁, List.append_assoc, List.append_assoc, List.singleton_append] at shape
    rw [eq_of_flushed unflushed₁ unflushed₂ shape] at renamed
    -- A stop touches no file, so it is the final save that has done it.
    exact complete s own ((List.mem_append.mp renamed).resolve_left fun member => fit _ member)

/-- A feed that has just been started has nothing on its way yet. -/
theorem Fresh.advanced {r : Feed.Run Pglogical.Relations Pglogical.Message} (fresh : Fresh r) : r.Advanced := by
  obtain ⟨decoder, interval, channel, now, rfl, empty⟩ := fresh
  rw [Feed.Run.Advanced, Feed.Run.coming_start decoder interval empty]
  simp

theorem Starts.feeding {s s' : TrialSource} (starts : Starts commands s w .started s' w') :
    Feeding commands s' := by
  cases starts with
  | failed _ _ unstarted => exact absurd rfl unstarted
  | started _ _ _ holds fresh =>
    refine ⟨rfl, ?_, ?_⟩
    · rintro _ ⟨⟩
      exact holds
    · rintro _ ⟨⟩
      exact fresh.advanced

theorem capture_inv {settings : Settings} {start : Checkpoint}
    (may : MayStart commands settings.source.slot start) (nothing : w.log = [])
    (run : (capture settings store start : Trial _ _) w = some (exit, w')) :
    ∃ written, Concludes commands store written w' := by
  obtain ⟨tells, unflushed⟩ : Tells commands [] w.log ∧ Unflushed w.log := tells_nothing nothing
  -- Whatever happens before the program forwards changes prints nothing and touches no file.
  have early {u : Outside Pglogical.Message} (passes : Passes commands w u) : Concludes commands store [] u :=
    (tells.passes passes).concludes (unflushed.passes passes)
  unfold capture at run
  cases created : (Source.create settings.source : Except Error TrialSource) with
  | error e =>
    rw [created] at run
    cases run
    exact ⟨[], early (.refl _)⟩
  | ok source =>
    rw [created] at run
    obtain ⟨-, rfl⟩ := Source.create_eq_ok.mp created
    obtain ⟨⟨prepared, s₁⟩, u₁, sets, rest⟩ := bind_eq_some.mp run
    have sets : SetsUp commands _ _ _ _ _ := setup_inv (by rintro _ ⟨⟩) sets
    cases sets with
    | refused capturing => cases capturing
    | failed _ passes _ =>
      cases rest
      exact ⟨[], early passes⟩
    | @ready k x _ _ passes _ =>
      obtain ⟨⟨outcome, s₂⟩, u₂, starts, rest⟩ := bind_eq_some.mp rest
      have left : ∀ c ∈ some (Connections.mk (some k) (none : Option (Session.Connection Nat))),
          c.control.isSome ∧ c.replication = none := by
        rintro _ ⟨⟩
        exact ⟨rfl, rfl⟩
      have starts := start_inv rfl left may starts
      have passes := passes.trans starts.passes
      cases outcome with
      | started => exact forward_inv starts.feeding (tells.passes passes) (unflushed.passes passes) rest
      | panicked =>
        cases rest
        exact ⟨[], early passes⟩
      | failed e =>
        obtain ⟨⟨result, s₃⟩, u₃, stopped, rest⟩ := bind_eq_some.mp rest
        have idle : s₂.capture = none := starts.capture_eq nofun
        have passes' : Passes commands u₂ u₃ :=
          (stop_inv (starts.left fun c member => (left c member).2) (by rw [idle]; rintro _ ⟨⟩) stopped).1
        cases rest
        exact ⟨[], early (passes.trans passes')⟩

end ChangeFeed.Trial
