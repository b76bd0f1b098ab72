import ChangeFeed.Proofs.Feed.Stopping
import Mathlib.Data.List.DropRight

/-!
When the feed reports, in a time that passes only while everybody waits. Main statements: no frame
is taken later than an interval after the latest report; a heartbeat that asks for a report gets one
at once; and there is no report without a reason, so that their number is bounded by the time that
has passed.
-/
namespace ChangeFeed.Feed

variable {δ μ : Type}

/-- Time passes only while the task waits, and then not past the time at which it goes on by itself;
the transport takes a report in no time. -/
def Step.timely (x : Step δ μ) : Bool :=
  match x.act, x.before.run.phase with
  | .wait duration, .checking | .wait duration, .reporting _ => duration == 0
  | .wait duration, _ => x.before.run.deadline?.all (x.before.now + duration ≤ ·)
  | _, _ => true

def Timely (steps : List (Step δ μ)) : Prop := ∀ x ∈ steps, x.timely = true

instance (steps : List (Step δ μ)) : Decidable (Timely steps) :=
  inferInstanceAs (Decidable (∀ x ∈ steps, x.timely = true))

theorem Timely.left {a b : List (Step δ μ)} (timely : Timely (a ++ b)) : Timely a :=
  fun x member => timely x (List.mem_append_left _ member)

theorem Timely.right {a b : List (Step δ μ)} (timely : Timely (a ++ b)) : Timely b :=
  fun x member => timely x (List.mem_append_right _ member)

/-- A report is made in the step. -/
def Step.tells (x : Step δ μ) : Bool := x.events.any (·.reported?.isSome)

/-- A heartbeat that asks for a report is taken in the step. -/
def Step.asks (x : Step δ μ) : Bool := x.frame?.bind Frame.heartbeat? == some true

/-- The time of the latest report, or `start` if there was none. -/
def lastTold (start : Nat) (steps : List (Step δ μ)) : Nat :=
  steps.foldl (fun time x => if x.tells then x.before.now else time) start

def sinceReport (steps : List (Step δ μ)) : List (Step δ μ) := steps.rtakeWhile (!·.tells)

theorem Step.tells_iff {x : Step δ μ} : x.tells = true ↔ ∃ u, .reported u ∈ x.events := by
  simp only [tells, List.any_eq_true]
  constructor
  · rintro ⟨e, member, told⟩
    cases e with
    | reported u => exact ⟨u, member⟩
    | _ => cases told
  · rintro ⟨u, member⟩
    exact ⟨_, member, rfl⟩

theorem Run.due_eq {now interval time : Nat} (due : Run.due? now interval = some time) :
    time = now + interval := by
  unfold Run.due? at due
  split at due <;> cases due
  rfl

section Telling

variable {start : Nat} {steps : List (Step δ μ)} {x : Step δ μ}

@[simp] theorem lastTold_nil : lastTold start ([] : List (Step δ μ)) = start := rfl

@[simp] theorem lastTold_append_singleton :
    lastTold start (steps ++ [x]) = if x.tells then x.before.now else lastTold start steps := by
  simp [lastTold]

@[simp] theorem sinceReport_append_singleton :
    sinceReport (steps ++ [x]) = if x.tells then [] else sinceReport steps ++ [x] := by
  rw [sinceReport, List.rtakeWhile_concat]
  cases x.tells <;> rfl

theorem lastTold_le {bound : Nat} (begun : start ≤ bound)
    (early : ∀ x ∈ steps, x.before.now ≤ bound) : lastTold start steps ≤ bound := by
  induction steps using List.reverseRecOn with
  | nil => exact begun
  | append_singleton steps x ih =>
    rw [lastTold_append_singleton]
    split
    · exact early x (by simp)
    · exact ih fun y member => early y (List.mem_append_left _ member)

end Telling

/-- How the time of the next report stands, the latest one having been made at `last`; `asked` means
that a heartbeat has asked for one since. -/
inductive Punctual (last interval : Nat) (asked : Prop) (s : Situation δ μ) : Prop
  | regular : s.run.phase = .checking → s.run.nextReport = last + interval →
      Punctual last interval asked s
  | hurried : s.run.phase = .checking → s.run.nextReport ≤ s.now →
      asked ∨ s.run.life.stopRequested = true → Punctual last interval asked s
  | reporting {u} : s.run.phase = .reporting u → last = s.now → Punctual last interval asked s
  | listening : s.run.phase = .listening → s.run.nextReport = last + interval →
      s.now ≤ s.run.nextReport → Punctual last interval asked s
  | refreshing {l m ignored} : s.run.phase = .refreshing l m ignored →
      s.run.nextReport = last + interval → Punctual last interval asked s
  | offering {c} : s.run.phase = .offering c → s.run.nextReport = last + interval →
      Punctual last interval asked s
  | idle : s.run.phase.working = false → Punctual last interval asked s

section Punctuality

variable {s s' : Situation δ μ} {act : Act} {events : List (Event μ)} {steps : List (Step δ μ)}
  {last interval : Nat} {asked : Prop}

namespace Punctual

theorem imp {asked' : Prop} (punctual : Punctual last interval asked s) (more : asked → asked') :
    Punctual last interval asked' s := by
  cases punctual with
  | regular phase next => exact .regular phase next
  | hurried phase late reason => exact .hurried phase late (reason.imp_left more)
  | reporting phase now => exact .reporting phase now
  | listening phase next early => exact .listening phase next early
  | refreshing phase next => exact .refreshing phase next
  | offering phase next => exact .offering phase next
  | idle finished => exact .idle finished

theorem next_of_listening (punctual : Punctual last interval asked s)
    (phase : s.run.phase = .listening) :
    s.run.nextReport = last + interval ∧ s.now ≤ s.run.nextReport := by
  cases punctual <;> simp_all [Phase.working]

theorem next_of_refreshing {l : Lsn} {m : μ} {ignored : Bool}
    (punctual : Punctual last interval asked s)
    (phase : s.run.phase = .refreshing l m ignored) : s.run.nextReport = last + interval := by
  cases punctual <;> simp_all [Phase.working]

theorem next_of_offering {c : Change μ} (punctual : Punctual last interval asked s)
    (phase : s.run.phase = .offering c) : s.run.nextReport = last + interval := by
  cases punctual <;> simp_all [Phase.working]

theorem now_of_reporting {u : StatusUpdate} (punctual : Punctual last interval asked s)
    (phase : s.run.phase = .reporting u) : last = s.now := by
  cases punctual <;> simp_all [Phase.working]

/-- Why the time of a report has come. -/
theorem due (punctual : Punctual last interval asked s) (phase : s.run.phase = .checking)
    (late : s.run.nextReport ≤ s.now) :
    last + interval ≤ s.now ∨ asked ∨ s.run.life.stopRequested = true := by
  cases punctual with
  | regular _ next => exact Or.inl (next ▸ late)
  | hurried _ _ reason => exact Or.inr reason
  | idle finished => rw [phase] at finished; cases finished
  | _ => simp_all

theorem next_of_early (punctual : Punctual last interval asked s) (phase : s.run.phase = .checking)
    (early : s.now < s.run.nextReport) : s.run.nextReport = last + interval := by
  cases punctual with
  | regular _ next => exact next
  | hurried _ late => omega
  | idle finished => rw [phase] at finished; cases finished
  | _ => simp_all

/-- What others do while no time passes leaves the task where it stands. -/
theorem keep (punctual : Punctual last interval asked s) (phase : s'.run.phase = s.run.phase)
    (next : s'.run.nextReport = s.run.nextReport) (now : s'.now = s.now)
    (stop : s.run.life.stopRequested = true → s'.run.life.stopRequested = true) :
    Punctual last interval asked s' := by
  cases punctual with
  | regular own due => exact .regular (phase.trans own) (next.trans due)
  | hurried own late reason =>
    exact .hurried (phase.trans own) (by rw [next, now]; exact late) (reason.imp_right stop)
  | reporting own same => exact .reporting (phase.trans own) (same.trans now.symm)
  | listening own due early =>
    exact .listening (phase.trans own) (next.trans due) (by rw [next, now]; exact early)
  | refreshing own due => exact .refreshing (phase.trans own) (next.trans due)
  | offering own due => exact .offering (phase.trans own) (next.trans due)
  | idle finished => exact .idle (phase ▸ finished)

theorem wait {duration : Nat} (punctual : Punctual last interval asked s)
    (timely : Step.timely ⟨s, .wait duration, events, s'⟩ = true) :
    Punctual last interval asked { s with now := s.now + duration } := by
  cases punctual with
  | regular phase next => exact .regular phase next
  | hurried phase late reason => exact .hurried phase (Nat.le_add_right_of_le late) reason
  | reporting phase now =>
    simp only [Step.timely, phase, beq_iff_eq] at timely
    exact .reporting phase (by rw [timely]; exact now)
  | listening phase next early =>
    simp only [Step.timely, Run.deadline?, phase, Option.all_some, decide_eq_true_eq] at timely
    exact .listening phase next timely
  | refreshing phase next => exact .refreshing phase next
  | offering phase next => exact .offering phase next
  | idle finished => exact .idle finished

variable [Decoder δ μ]

theorem take {frame : Except Error Frame} {wallClock : Int} {r' : Run δ μ}
    (punctual : Punctual last interval asked s) (phase : s.run.phase = .listening)
    (takes : Run.Takes s.run s.now frame r' events) :
    Punctual last interval
      (asked ∨ Step.asks ⟨s, .move (.take frame) wallClock, events, { s with run := r' }⟩ = true)
      { s with run := r' } := by
  obtain ⟨next, -⟩ := punctual.next_of_listening phase
  cases takes with
  | answer _ heartbeat =>
    refine .hurried rfl (Nat.le_refl _) (Or.inl (Or.inr ?_))
    simp [Step.asks, Step.frame?, heartbeat]
  | ignore | filter | skip => exact .regular rfl next
  | refresh => exact .refreshing rfl next
  | forward => exact .offering rfl next
  | _ => exact .idle rfl

theorem move {m : Move} {wallClock : Int} {r' : Run δ μ} (punctual : Punctual last interval asked s)
    (own : s.run.interval = interval) (makes : Run.Makes s.run (s.view wallClock) m r' events)
    (quiet : Step.tells ⟨s, .move m wallClock, events, { s with run := r' }⟩ = false) :
    Punctual last interval
      (asked ∨ Step.asks ⟨s, .move m wallClock, events, { s with run := r' }⟩ = true)
      { s with run := r' } := by
  cases makes with
  | due => simp [Step.tells, Event.reported?] at quiet
  | early phase early => exact .listening rfl (punctual.next_of_early phase early) early.le
  | goOn phase _ due =>
    -- The transport took the report in no time: the time was reckoned from the report itself.
    have now := punctual.now_of_reporting phase
    have next := Run.due_eq due
    rw [own, ← show last = (s.view wallClock).now from now] at next
    exact .listening rfl next (by rw [← now]; exact next ▸ Nat.le_add_right ..)
  | heed _ stop => exact .hurried rfl (Nat.le_refl _) (Or.inr stop)
  | take phase _ takes => exact punctual.take phase takes
  | expire phase => exact .regular rfl (punctual.next_of_listening phase).1
  | refreshSkip phase => exact .regular rfl (punctual.next_of_refreshing phase)
  | refreshForward phase => exact .offering rfl (punctual.next_of_refreshing phase)
  | deliver phase => exact .regular rfl (punctual.next_of_offering phase)
  | abandon _ _ _ stop => exact .hurried rfl (Nat.le_refl _) (Or.inr stop)
  | _ => exact .idle rfl

theorem step (punctual : Punctual last interval asked s) (own : s.run.interval = interval)
    (leads : Leads s act s' events) (timely : Step.timely ⟨s, act, events, s'⟩ = true) :
    Punctual (if Step.tells ⟨s, act, events, s'⟩ then s.now else last) interval
      (Step.tells ⟨s, act, events, s'⟩ = false ∧ (asked ∨ Step.asks ⟨s, act, events, s'⟩ = true))
      s' := by
  cases tells : Step.tells ⟨s, act, events, s'⟩ with
  | true =>
    obtain ⟨u, reported⟩ := Step.tells_iff.mp tells
    obtain ⟨wallClock, rfl, phase, -⟩ := leads.report_eq reported
    cases leads
    exact .reporting phase rfl
  | false =>
    suffices next : Punctual last interval (asked ∨ Step.asks ⟨s, act, events, s'⟩ = true) s' from
      next.imp fun reason => ⟨rfl, reason⟩
    cases leads with
    | move applied => exact punctual.move own (Run.makes_of_apply applied) tells
    | wait => exact (punctual.wait timely).imp Or.inl
    | receive =>
      refine (punctual.imp Or.inl).keep ?_ ?_ rfl ?_ <;> rw [Run.receive_snd]
      exact id
    | requestStop =>
      exact (punctual.imp Or.inl).keep rfl rfl rfl fun _ => s.run.stopRequested_requestStop
    | _ => exact (punctual.imp Or.inl).keep rfl rfl rfl id

end Punctual

end Punctuality

section Runs

variable [Decoder δ μ] {s s' first : Situation δ μ} {act : Act} {events : List (Event μ)}
  {steps : List (Step δ μ)}

/-- A heartbeat has asked for a report since the latest one. -/
def Pressed (steps : List (Step δ μ)) : Prop := ∃ y ∈ sinceReport steps, y.asks = true

theorem Leads.interval_eq (leads : Leads s act s' events) : s'.run.interval = s.run.interval := by
  cases leads with
  | move applied =>
    cases Run.makes_of_apply applied with
    | take _ _ takes => cases takes <;> rfl
    | _ => rfl
  | receive => rw [Run.receive_snd]
  | _ => rfl

theorem Reach.interval_eq (reach : Reach first steps s) : s.run.interval = first.run.interval := by
  induction reach with
  | start => rfl
  | next _ leads ih => exact leads.interval_eq.trans ih

theorem Reach.punctual (reach : Reach first steps s) (timely : Timely steps)
    (begun : Punctual first.now first.run.interval False first) :
    Punctual (lastTold first.now steps) first.run.interval (Pressed steps) s := by
  induction reach with
  | start => exact begun.imp nofun
  | @next steps s act s' events previous leads ih =>
    have punctual := ih timely.left
    have next := punctual.step previous.interval_eq leads (timely _ (by simp))
    rw [lastTold_append_singleton]
    refine next.imp fun ⟨quiet, reason⟩ => ?_
    rw [Pressed, sinceReport_append_singleton, quiet]
    rcases reason with ⟨y, member, asks⟩ | asks
    · exact ⟨y, by simp [member], asks⟩
    · exact ⟨_, by simp, asks⟩

omit [Decoder δ μ] in
theorem Punctual.start (decoder : δ) (interval capacity now : Nat) (tracker : Tracker) :
    let first : Situation δ μ := .start decoder interval capacity now tracker
    Punctual first.now first.run.interval False first := by
  intro first
  cases due : Run.due? now interval with
  | none =>
    have phase : first.run.phase = .ended := by
      simp [first, Situation.start, Run.start, Run.schedule, Run.spawn, due, Run.panic]
    exact .idle (by rw [phase]; rfl)
  | some time =>
    have begun : first.run.phase = .checking ∧ first.run.nextReport = time ∧
        first.run.interval = interval := by
      simp [first, Situation.start, Run.start, Run.schedule, Run.spawn, due]
    refine .regular begun.1 ?_
    rw [begun.2.1, begun.2.2]
    exact Run.due_eq due

/-- How many reports there have been, for what reasons: `q` of them because an interval had passed,
the others because of heartbeats, and the last one perhaps because of a request to stop. -/
inductive Tally (start interval : Nat) (steps : List (Step δ μ)) (s : Situation δ μ) : Prop
  | going {q} : steps.countP Step.tells + (sinceReport steps).countP Step.asks ≤
        q + steps.countP Step.asks →
      start + q * interval ≤ lastTold start steps → Tally start interval steps s
  | leaving {q} : steps.countP Step.tells ≤ q + steps.countP Step.asks + 1 →
      start + q * interval ≤ lastTold start steps → s.run.life.stopRequested = true →
      s.run.phase.working = false ∨ s.run.phase.isReporting = true → Tally start interval steps s

theorem Leads.tells_eq (leads : Leads s act s' events)
    (tells : Step.tells ⟨s, act, events, s'⟩ = true) :
    s.run.phase = .checking ∧ s.run.nextReport ≤ s.now ∧ s'.run.phase.isReporting = true ∧
      s'.run.life = s.run.life ∧ Step.asks ⟨s, act, events, s'⟩ = false := by
  obtain ⟨u, reported⟩ := Step.tells_iff.mp tells
  obtain ⟨wallClock, rfl, phase, -⟩ := leads.report_eq reported
  cases leads with
  | move applied =>
    cases Run.makes_of_apply applied with
    | due checking late => exact ⟨checking, late, rfl, rfl, rfl⟩
    | early => cases reported

/-- A task that has reported after a request to stop makes no other report. -/
theorem Leads.leaving (leads : Leads s act s' events) (stop : s.run.life.stopRequested = true)
    (leaving : s.run.phase.working = false ∨ s.run.phase.isReporting = true) :
    Step.tells ⟨s, act, events, s'⟩ = false ∧
      (s'.run.phase.working = false ∨ s'.run.phase.isReporting = true) := by
  constructor
  · cases tells : Step.tells ⟨s, act, events, s'⟩ with
    | false => rfl
    | true =>
      obtain ⟨phase, -⟩ := leads.tells_eq tells
      rw [phase] at leaving
      simp [Phase.working, Phase.isReporting] at leaving
  · cases leads with
    | move applied =>
      cases Run.makes_of_apply applied with
      | unreported | leave | breakOff | close | release | publish => exact Or.inl rfl
      | goOn _ running => rw [stop] at running; cases running
      | _ => simp_all [Phase.working, Phase.isReporting]
    | receive => rw [Run.receive_snd]; exact leaving
    | _ => exact leaving

theorem Leads.now_le (leads : Leads s act s' events) : s.now ≤ s'.now := by
  cases leads with
  | wait => exact Nat.le_add_right ..
  | _ => exact Nat.le_refl _

theorem Reach.now_le (reach : Reach first steps s) :
    first.now ≤ s.now ∧ ∀ x ∈ steps, x.before.now ≤ s.now := by
  induction reach with
  | start => exact ⟨Nat.le_refl _, by simp⟩
  | next _ leads ih =>
    obtain ⟨begun, earlier⟩ := ih
    have later := leads.now_le
    refine ⟨begun.trans later, fun x member => ?_⟩
    rcases List.mem_append.mp member with old | new
    · exact (earlier x old).trans later
    · rw [List.mem_singleton.mp new]; exact later

theorem Tally.step {start interval : Nat} (tally : Tally start interval steps s)
    (punctual : Punctual (lastTold start steps) interval (Pressed steps) s)
    (past : lastTold start steps ≤ s.now) (leads : Leads s act s' events) :
    Tally start interval (steps ++ [⟨s, act, events, s'⟩]) s' := by
  cases tells : Step.tells ⟨s, act, events, s'⟩ with
  | false =>
    have told : [(⟨s, act, events, s'⟩ : Step δ μ)].countP Step.tells = 0 := by simp [tells]
    have last : lastTold start (steps ++ [⟨s, act, events, s'⟩]) = lastTold start steps := by
      simp [tells]
    have since : sinceReport (steps ++ [⟨s, act, events, s'⟩]) =
        sinceReport steps ++ [⟨s, act, events, s'⟩] := by simp [tells]
    cases tally with
    | @going q few passed =>
      refine .going (q := q) ?_ (by rw [last]; exact passed)
      rw [since, List.countP_append, List.countP_append, List.countP_append, told]
      omega
    | @leaving q few passed stop leaving =>
      refine .leaving (q := q) ?_ (by rw [last]; exact passed) (leads.stop_stays stop)
        (leads.leaving stop leaving).2
      rw [List.countP_append, List.countP_append, told]
      omega
  | true =>
    obtain ⟨phase, late, reporting, life, silent⟩ := leads.tells_eq tells
    have told : [(⟨s, act, events, s'⟩ : Step δ μ)].countP Step.tells = 1 := by simp [tells]
    have asks : [(⟨s, act, events, s'⟩ : Step δ μ)].countP Step.asks = 0 := by simp [silent]
    have last : lastTold start (steps ++ [⟨s, act, events, s'⟩]) = s.now := by simp [tells]
    have since : sinceReport (steps ++ [⟨s, act, events, s'⟩]) = [] := by simp [tells]
    cases tally with
    | leaving _ _ stop leaving => rw [(leads.leaving stop leaving).1] at tells; cases tells
    | @going q few passed =>
      -- A report for an interval adds one to `q`; one that was asked for uses up a heartbeat since the
      -- report before; one for a stop is the last.
      rcases punctual.due phase late with interval | ⟨y, member, pressed⟩ | stop
      · refine .going (q := q + 1) ?_ ?_
        · rw [since, List.countP_append, List.countP_append, told, asks, List.countP_nil]
          omega
        · rw [last, Nat.add_mul]
          omega
      · have one : 0 < (sinceReport steps).countP Step.asks :=
          List.countP_pos_iff.mpr ⟨y, member, pressed⟩
        refine .going (q := q) ?_ (by rw [last]; omega)
        rw [since, List.countP_append, List.countP_append, told, asks, List.countP_nil]
        omega
      · refine .leaving (q := q) ?_ (by rw [last]; omega) (life ▸ stop) (Or.inr reporting)
        rw [List.countP_append, List.countP_append, told, asks]
        omega

theorem Reach.tally (reach : Reach first steps s) (timely : Timely steps)
    (begun : Punctual first.now first.run.interval False first) :
    Tally first.now first.run.interval steps s := by
  induction reach with
  | start => exact .going (q := 0) (by simp [sinceReport]) (by simp)
  | next previous leads ih =>
    obtain ⟨first, early⟩ := previous.now_le
    exact (ih timely.left).step (previous.punctual timely.left begun) (lastTold_le first early) leads

theorem Reach.reports_le (reach : Reach first steps s) (timely : Timely steps)
    (begun : Punctual first.now first.run.interval False first) (positive : 0 < first.run.interval)
    {time : Nat} (within : ∀ x ∈ steps, x.before.now ≤ first.now + time) :
    steps.countP Step.tells ≤ time / first.run.interval + steps.countP Step.asks + 1 := by
  have last : lastTold first.now steps ≤ first.now + time :=
    lastTold_le (Nat.le_add_right ..) within
  have few {q : Nat} (passed : first.now + q * first.run.interval ≤ lastTold first.now steps) :
      q ≤ time / first.run.interval := by
    rw [Nat.le_div_iff_mul_le positive]
    omega
  cases reach.tally timely begun with
  | going counted passed => have := few passed; omega
  | leaving counted passed => have := few passed; omega

/-- Up to any time a history is a history. -/
theorem Reach.until (reach : Reach first steps s) (bound : Nat) :
    ∃ earlier later, steps = earlier ++ later ∧ (∀ x ∈ earlier, x.before.now ≤ bound) ∧
      ∀ x ∈ later, bound < x.before.now := by
  induction reach with
  | start => exact ⟨[], [], rfl, by simp, by simp⟩
  | @next steps s act s' events previous leads ih =>
    obtain ⟨earlier, later, rfl, early, late⟩ := ih
    obtain ⟨-, past⟩ := previous.now_le
    by_cases now : s.now ≤ bound
    · have nothing : later = [] := by
        refine List.eq_nil_iff_forall_not_mem.mpr fun x member => ?_
        have := late x member
        have := past x (List.mem_append_right _ member)
        omega
      refine ⟨earlier ++ [⟨s, act, events, s'⟩], [], by simp [nothing], ?_, by simp⟩
      intro x member
      rcases List.mem_append.mp member with old | new
      · exact early x old
      · rw [List.mem_singleton.mp new]; exact now
    · refine ⟨earlier, later ++ [⟨s, act, events, s'⟩], by simp, early, ?_⟩
      intro x member
      rcases List.mem_append.mp member with old | new
      · exact late x old
      · rw [List.mem_singleton.mp new]; exact Nat.lt_of_not_le now

/-- While the task is about to look at the clock, no time passes, and nothing but the clock decides
what it does. -/
theorem Reach.checking {between : List (Step δ μ)} (reach : Reach first between s)
    (timely : Timely between) (still : ∀ z ∈ between, z.isMove = false)
    (phase : first.run.phase = .checking) :
    s.run.phase = .checking ∧ s.run.nextReport = first.run.nextReport ∧ s.now = first.now := by
  induction reach with
  | start => exact ⟨phase, rfl, rfl⟩
  | @next steps s act s' events previous leads ih =>
    obtain ⟨checking, next, now⟩ := ih timely.left fun x member =>
      still x (List.mem_append_left _ member)
    have own := timely ⟨s, act, events, s'⟩ (by simp)
    have passive := still ⟨s, act, events, s'⟩ (by simp)
    cases leads with
    | move => cases passive
    | wait =>
      simp only [Step.timely, checking, beq_iff_eq] at own
      exact ⟨checking, next, by rw [own]; exact now⟩
    | receive => rw [Run.receive_snd]; exact ⟨checking, next, now⟩
    | _ => exact ⟨checking, next, now⟩

theorem Leads.heartbeat {reply : Bool} (leads : Leads s act s' events)
    (beats : (Step.frame? ⟨s, act, events, s'⟩).bind Frame.heartbeat? = some reply) :
    s.run.phase = .listening ∧ s.run.life.stopRequested = false ∧ events = [] ∧
      s' = { s with
        run := if reply then s.run.hurry s.now else { s.run with phase := .checking } } := by
  obtain ⟨frame, read, heartbeat⟩ := Option.bind_eq_some_iff.mp beats
  obtain ⟨wallClock, rfl⟩ := Step.frame?_eq_some.mp read
  have content := Frame.content_of_heartbeat heartbeat
  cases leads with
  | move applied =>
    cases Run.makes_of_apply applied with
    | take phase _ takes =>
      cases takes <;> simp_all [Situation.view]

/-- A heartbeat that asks for nothing comes to the same as none: before the time of the next report
the task goes back to where it was, and at that time it goes on as it would have without it. -/
theorem Leads.unasked {wallClock : Int} (leads : Leads s act s' events)
    (beats : (Step.frame? ⟨s, act, events, s'⟩).bind Frame.heartbeat? = some false) :
    events = [] ∧ s' = { s with run := { s.run with phase := .checking } } ∧
      (s.now < s.run.nextReport →
        s'.run.apply (s'.view wallClock) .check = some (s.run, [])) ∧
      (s.run.nextReport ≤ s.now →
        s.run.apply (s.view wallClock) .expire = some (s'.run, [])) := by
  obtain ⟨phase, running, silent, after⟩ := leads.heartbeat beats
  subst after
  refine ⟨silent, rfl, fun early => ?_, fun late => ?_⟩
  · have back : { s.run with phase := .listening } = s.run := by rw [← phase]
    simp [Run.apply, Situation.view, Nat.not_le.mpr early, back]
  · simp [Run.apply, phase, running, Situation.view, late]

theorem Punctual.now_of_take {last interval : Nat} {asked : Prop} {frame : Except Error Frame}
    {wallClock : Int} (punctual : Punctual last interval asked s)
    (leads : Leads s (.move (.take frame) wallClock) s' events) : s.now ≤ last + interval := by
  cases leads with
  | move applied =>
    cases Run.makes_of_apply applied with
    | take phase =>
      obtain ⟨next, early⟩ := punctual.next_of_listening phase
      exact next ▸ early

theorem Punctual.reason {last interval : Nat} {asked : Prop} {u : StatusUpdate}
    (punctual : Punctual last interval asked s) (leads : Leads s act s' events)
    (reported : .reported u ∈ events) :
    last + interval ≤ s.now ∨ asked ∨ s.run.life.stopRequested = true := by
  obtain ⟨phase, late, -⟩ := leads.tells_eq (Step.tells_iff.mpr ⟨u, reported⟩)
  exact punctual.due phase late

/-- What comes next after a heartbeat that asks for a report. -/
theorem Reach.answers_at_once {x y : Step δ μ} {between rest : List (Step δ μ)}
    (reach : Reach first (x :: (between ++ y :: rest)) s)
    (timely : Timely (x :: (between ++ y :: rest))) (asks : x.asks = true)
    (still : ∀ z ∈ between, z.isMove = false) (moves : y.isMove = true) :
    (∃ wallClock, y.act = .move .check wallClock) ∧ y.before.now = x.before.now ∧
      ∃ u, y.events = [.reported u] ∧ y.after.run.phase = .reporting u := by
  rw [← List.nil_append (x :: _)] at reach
  obtain ⟨-, asked, later⟩ := reach.at_step
  obtain ⟨phase, -, -, after⟩ := asked.heartbeat (by simpa [Step.asks] using asks)
  obtain ⟨upTo, leads, -⟩ := later.at_step
  have calm : Timely between := fun z member => timely z (by simp [member])
  obtain ⟨checking, next, now⟩ := upTo.checking calm still (by rw [after]; rfl)
  have due : y.before.run.nextReport = x.before.now := by rw [next, after]; rfl
  have same : y.before.now = x.before.now := by rw [now, after]
  obtain ⟨before, act, events, result⟩ := y
  dsimp only at *
  cases leads with
  | move applied =>
    cases Run.makes_of_apply applied with
    | due => exact ⟨⟨_, rfl⟩, same, _, rfl, rfl⟩
    | early _ early =>
      rw [due, ← same] at early
      exact absurd early (Nat.lt_irrefl _)
    | take listening => rw [checking] at listening; cases listening
    | _ => simp_all
  | _ => cases moves

theorem Reach.reports_within (reach : Reach first steps s) (timely : Timely steps)
    (begun : Punctual first.now first.run.interval False first) (positive : 0 < first.run.interval)
    (time : Nat) :
    (steps.filter (·.before.now ≤ first.now + time)).countP Step.tells ≤
      time / first.run.interval +
        (steps.filter (·.before.now ≤ first.now + time)).countP Step.asks + 1 := by
  obtain ⟨earlier, later, rfl, early, late⟩ := reach.until (first.now + time)
  obtain ⟨middle, front, -⟩ := reach.split
  have within : (earlier ++ later).filter (·.before.now ≤ first.now + time) = earlier := by
    rw [List.filter_append, List.filter_eq_self.mpr (by simpa using early),
      List.filter_eq_nil_iff.mpr (by simpa using late), List.append_nil]
  rw [within]
  exact front.reports_le timely.left begun positive early

/-- No frame is taken later than an interval after the latest report, or after the start. After a
heartbeat that asks for a report the next move is to make one, at the same time. A report is made
only if an interval has passed since the one before, a heartbeat has asked for one since, or a stop
was requested; so their number up to any time is bounded. A heartbeat that asks for nothing changes
no time. -/
theorem Reach.reports_on_schedule {decoder : δ} {interval capacity now : Nat} {tracker : Tracker}
    (reach : Reach (.start decoder interval capacity now tracker) steps s) (positive : 0 < interval)
    (timely : Timely steps) :
    (∀ earlier x later frame wallClock, steps = earlier ++ x :: later →
        x.act = .move (.take frame) wallClock → x.before.now ≤ lastTold now earlier + interval) ∧
      (∀ earlier x between y rest, steps = earlier ++ x :: (between ++ y :: rest) → x.asks = true →
        (∀ z ∈ between, z.isMove = false) → y.isMove = true →
        (∃ wallClock, y.act = .move .check wallClock) ∧ y.before.now = x.before.now ∧
          ∃ u, y.events = [.reported u] ∧ y.after.run.phase = .reporting u) ∧
      (∀ earlier x later u, steps = earlier ++ x :: later → .reported u ∈ x.events →
        lastTold now earlier + interval ≤ x.before.now ∨ Pressed earlier ∨
          x.before.run.life.stopRequested = true) ∧
      (∀ time, let within := steps.filter (·.before.now ≤ now + time)
        within.countP Step.tells ≤ time / interval + within.countP Step.asks + 1) ∧
      ∀ x ∈ steps, x.frame?.bind Frame.heartbeat? = some false → ∀ wallClock,
        x.events = [] ∧ x.after = { x.before with run := { x.before.run with phase := .checking } } ∧
          (x.before.now < x.before.run.nextReport →
            x.after.run.apply (x.after.view wallClock) .check = some (x.before.run, [])) ∧
          (x.before.run.nextReport ≤ x.before.now →
            x.before.run.apply (x.before.view wallClock) .expire = some (x.after.run, [])) := by
  have own := Situation.start_interval (μ := μ) decoder interval capacity now tracker
  have begun := Punctual.start (μ := μ) decoder interval capacity now tracker
  have punctual {earlier later : List (Step δ μ)} {x : Step δ μ}
      (whole : steps = earlier ++ x :: later) :
      Punctual (lastTold now earlier) interval (Pressed earlier) x.before ∧
        Leads x.before x.act x.after x.events := by
    subst whole
    obtain ⟨before, leads, -⟩ := reach.at_step
    have front := before.punctual timely.left begun
    rw [own] at front
    exact ⟨front, leads⟩
  refine ⟨?_, ?_, ?_, ?_, ?_⟩
  · intro earlier x later frame wallClock whole act
    obtain ⟨front, leads⟩ := punctual whole
    rw [act] at leads
    exact front.now_of_take leads
  · rintro earlier x between y rest rfl asks still moves
    obtain ⟨middle, -, back⟩ := reach.split
    exact back.answers_at_once timely.right asks still moves
  · intro earlier x later u whole reported
    obtain ⟨front, leads⟩ := punctual whole
    exact front.reason leads reported
  · intro time
    have bound := reach.reports_within timely begun (by rw [own]; exact positive) time
    rw [own] at bound
    exact bound
  · intro x member beats wallClock
    obtain ⟨earlier, later, rfl⟩ := List.append_of_mem member
    exact reach.at_step.2.1.unasked beats

/-- A heartbeat asks for a report, and it is made at once; the next one is made when its time comes.
-/
theorem reports_on_heartbeat :
    let beat : Frame := .copyData (StreamMessage.layout (.keepalive .zero 0 true))
    let first : Situation Pglogical.Relations Pglogical.Message := .start .empty 5 1 0 ⟨.zero⟩
    let steps := history first
      [.move .check 0, .wait 2, .move (.take (.ok beat)) 0, .move .check 0,
        .move (.report (.ok ())) 0, .wait 5, .move .expire 0, .move .check 0, .move (.report (.ok ())) 0]
    let within := steps.filter (·.before.now ≤ 0 + 7)
    Timely steps ∧ within.countP Step.tells = 2 ∧
      within.countP Step.tells ≤ 7 / 5 + within.countP Step.asks + 1 := by
  intro beat first steps within
  obtain ⟨s, reach⟩ : ∃ s, Reach first steps s := reach_history _ _
  have timely : Timely steps := by decide +kernel
  exact ⟨timely, by decide +kernel, (reach.reports_on_schedule (by decide) timely).2.2.2.1 7⟩

end Runs

end ChangeFeed.Feed
