import ChangeFeed.Pglogical.Frame
import ChangeFeed.Proofs.Feed.Keeping
import Mathlib.Order.MinMax
import Mathlib.Order.Nat

/-!
What a report tells the server. Main statement: as long as records follow one another in the log and
the consumer confirms only what it has received, no report reaches the end of a record that was kept
and not confirmed.
-/
namespace ChangeFeed.Feed

variable {δ μ : Type}

/-- The consumer confirms only checkpoints of changes that it has received. -/
def Honest (steps : List (Step δ μ)) : Prop :=
  ∀ earlier x later c, steps = earlier ++ x :: later → x.act = .commit c →
    ∃ d ∈ received earlier, d.checkpoint = c

theorem honest_iff_get {steps : List (Step δ μ)} : Honest steps ↔
    ∀ i : Fin steps.length, ∀ c ∈ (steps.get i).commit?,
      ∃ d ∈ received (steps.take i), d.checkpoint = c := by
  constructor
  · intro honest i c made
    exact honest _ (steps.get i) (steps.drop (i + 1)) c (by simp) (Step.commit?_eq_some.mp made)
  · rintro all earlier x later c rfl act
    have own := all ⟨earlier.length, by simp⟩ c (by simp [Step.commit?_eq_some, act])
    simpa using own

instance (steps : List (Step δ μ)) : Decidable (Honest steps) := decidable_of_iff' _ honest_iff_get

theorem honest_append_singleton {steps : List (Step δ μ)} {x : Step δ μ} :
    Honest (steps ++ [x]) ↔
      Honest steps ∧ ∀ c, x.act = .commit c → ∃ d ∈ received steps, d.checkpoint = c := by
  constructor
  · intro honest
    exact ⟨fun earlier y later c told => honest earlier y (later ++ [x]) c (by simp [told]),
      fun c => honest steps x [] c rfl⟩
  · rintro ⟨honest, last⟩ earlier y later c told act
    rcases List.eq_nil_or_concat later with rfl | ⟨rest, z, rfl⟩
    · obtain ⟨rfl, same⟩ := List.append_inj' told rfl
      cases same
      exact last c act
    · have told' : steps ++ [x] = (earlier ++ y :: rest) ++ [z] := by simpa using told
      obtain ⟨rfl, -⟩ := List.append_inj' told' rfl
      exact honest earlier y rest c rfl act

theorem Honest.front {earlier later : List (Step δ μ)} (honest : Honest (earlier ++ later)) :
    Honest earlier := by
  rintro before x after c rfl act
  exact honest before x (after ++ later) c (by simp) act

theorem pairwise_recordEnds {earlier later : List (Step δ μ)}
    (increasing : (recordEnds (earlier ++ later)).Pairwise (· < ·)) :
    (recordEnds earlier).Pairwise (· < ·) := by
  rw [recordEnds_append, List.pairwise_append] at increasing
  exact increasing.1

/-- Holds of the positions that a report is computed from. -/
def Situation.Within (s : Situation δ μ) (P : Nat → Prop) : Prop :=
  P s.run.ledger.reported.offset ∧ P s.run.ledger.skipped.offset ∧ P s.tracker.committed.offset

theorem Situation.Within.mono {s : Situation δ μ} {P Q : Nat → Prop} (within : s.Within P)
    (h : ∀ x, P x → Q x) : s.Within Q :=
  ⟨h _ within.1, h _ within.2.1, h _ within.2.2⟩

theorem Ledger.candidate_eq (g : Ledger) (acked : Lsn) :
    g.candidate acked = acked ∨ g.candidate acked = g.skipped ∧ g.forwarded ≤ acked := by
  unfold candidate
  split
  · rename_i passed; exact Or.inr ⟨rfl, passed.1⟩
  · exact Or.inl rfl

theorem Ledger.reported_report (g : Ledger) (acked : Lsn) :
    (g.report acked).reported.offset = max g.reported.offset (g.candidate acked).offset :=
  Lsn.offset_max _ _

/-- How the positions of a feed stand to the records it has taken and to what was confirmed, if the
tracker began at `initial`. -/
structure Accounted (initial : Nat) (steps : List (Step δ μ)) (s : Situation δ μ) : Prop where
  within : s.Within fun x => x ≤ initial ∨ ∃ e ∈ recordEnds steps, x ≤ e
  pending : ∀ l m ignored, s.run.phase = .refreshing l m ignored → l.offset ∈ recordEnds steps ∧
    (s.Within fun x => x ≤ initial ∨ x < l.offset) ∧
      ∀ c ∈ kept steps, c.checkpoint.lsn.offset < l.offset
  ends : ∀ c ∈ kept steps, c.checkpoint.lsn.offset ∈ recordEnds steps
  forwarded : ∀ c ∈ kept steps, c.checkpoint.lsn.offset ≤ s.run.ledger.forwarded.offset
  committed : s.tracker.committed.offset = initial ∨ ∃ k ∈ commits steps, k.lsn = s.tracker.committed
  confirmed : ∀ c ∈ kept steps, initial < c.checkpoint.lsn.offset →
    c.checkpoint.lsn.offset ≤ s.run.ledger.reported.offset →
      ∃ k ∈ commits steps, c.checkpoint.lsn.offset ≤ k.lsn.offset

namespace Accounted

variable {initial : Nat} {steps : List (Step δ μ)} {s s' : Situation δ μ} {x : Step δ μ}

theorem within_more (acc : Accounted initial steps s) (x : Step δ μ) :
    s.Within fun p => p ≤ initial ∨ ∃ e ∈ recordEnds (steps ++ [x]), p ≤ e := by
  refine acc.within.mono fun p => Or.imp_right ?_
  rintro ⟨e, member, bound⟩
  exact ⟨e, by simp [member], bound⟩

theorem committed_more (acc : Accounted initial steps s) (tracker : s'.tracker = s.tracker)
    (x : Step δ μ) : s'.tracker.committed.offset = initial ∨
      ∃ k ∈ commits (steps ++ [x]), k.lsn = s'.tracker.committed := by
  rw [tracker]
  exact acc.committed.imp_right fun ⟨k, member, equal⟩ => ⟨k, by simp [member], equal⟩

/-- A step in which no change is made of a record. What was reported before is accounted for already. -/
theorem unkept (acc : Accounted initial steps s) (none : x.kept? = none)
    (forwarded : s'.run.ledger.forwarded = s.run.ledger.forwarded)
    (within : s'.Within fun p => p ≤ initial ∨ ∃ e ∈ recordEnds (steps ++ [x]), p ≤ e)
    (pending : ∀ l m ignored, s'.run.phase = .refreshing l m ignored →
      l.offset ∈ recordEnds (steps ++ [x]) ∧ (s'.Within fun p => p ≤ initial ∨ p < l.offset) ∧
        ∀ c ∈ kept steps, c.checkpoint.lsn.offset < l.offset)
    (committed : s'.tracker.committed.offset = initial ∨
      ∃ k ∈ commits (steps ++ [x]), k.lsn = s'.tracker.committed)
    (confirmed : ∀ c ∈ kept steps, initial < c.checkpoint.lsn.offset →
      s.run.ledger.reported.offset < c.checkpoint.lsn.offset →
        c.checkpoint.lsn.offset ≤ s'.run.ledger.reported.offset →
          ∃ k ∈ commits (steps ++ [x]), c.checkpoint.lsn.offset ≤ k.lsn.offset) :
    Accounted initial (steps ++ [x]) s' := by
  have same : kept (steps ++ [x]) = kept steps := by simp [kept, none]
  refine ⟨within, by rwa [same], ?_, ?_, committed, ?_⟩
  · intro c member
    rw [same] at member
    simp [acc.ends c member]
  · rw [same, forwarded]; exact acc.forwarded
  · intro c member fresh reaches
    rw [same] at member
    by_cases before : c.checkpoint.lsn.offset ≤ s.run.ledger.reported.offset
    · obtain ⟨k, made, bound⟩ := acc.confirmed c member fresh before
      exact ⟨k, by simp [made], bound⟩
    · exact confirmed c member fresh (by omega) reaches

theorem quiet (acc : Accounted initial steps s) (none : x.kept? = none)
    (ledger : s'.run.ledger = s.run.ledger) (tracker : s'.tracker = s.tracker)
    (phase : s'.run.phase = s.run.phase ∨ ∀ l m ignored, s'.run.phase ≠ .refreshing l m ignored) :
    Accounted initial (steps ++ [x]) s' := by
  refine acc.unkept none (by rw [ledger]) ?_ ?_ (acc.committed_more tracker x) ?_
  · simpa only [Situation.Within, ledger, tracker] using acc.within_more x
  · intro l m ignored now
    rcases phase with equal | other
    · obtain ⟨taken, within, before⟩ := acc.pending l m ignored (equal ▸ now)
      refine ⟨by simp [taken], ?_, before⟩
      simpa only [Situation.Within, ledger, tracker] using within
    · exact absurd now (other l m ignored)
  · rw [ledger]
    intro c _ _ above reaches
    omega

theorem report (acc : Accounted initial steps s) (none : x.kept? = none)
    (ledger : s'.run.ledger = s.run.ledger.report s.tracker.committed)
    (tracker : s'.tracker = s.tracker)
    (phase : ∀ l m ignored, s'.run.phase ≠ .refreshing l m ignored) :
    Accounted initial (steps ++ [x]) s' := by
  have candidate := s.run.ledger.candidate_eq s.tracker.committed
  have reports := s.run.ledger.reported_report s.tracker.committed
  obtain ⟨reported, skipped, committed⟩ := acc.within_more x
  refine acc.unkept none (by rw [ledger]; rfl) ?_ ?_ (acc.committed_more tracker x) ?_
  · rw [Situation.Within, ledger, tracker, reports]
    refine ⟨max_rec' (fun p => p ≤ initial ∨ ∃ e ∈ recordEnds (steps ++ [x]), p ≤ e) reported ?_,
      skipped, committed⟩
    rcases candidate with equal | ⟨equal, _⟩
    · rw [equal]; exact committed
    · rw [equal]; exact skipped
  · intro l m ignored now
    exact absurd now (phase l m ignored)
  · rw [ledger, reports]
    intro c member fresh above reaches
    -- The report is the consumer's position, or one that needs everything handed on confirmed.
    have passed : c.checkpoint.lsn.offset ≤ s.tracker.committed.offset := by
      rcases candidate with equal | ⟨_, all⟩
      · rw [equal] at reaches; omega
      · exact Nat.le_trans (acc.forwarded c member) all
    rcases acc.committed with first | ⟨k, made, equal⟩
    · omega
    · exact ⟨k, by simp [made], by rw [equal]; exact passed⟩

theorem skip (acc : Accounted initial steps s) {l : Lsn} (none : x.kept? = none)
    (ledger : s'.run.ledger = s.run.ledger.skip l) (tracker : s'.tracker = s.tracker)
    (taken : l.offset ∈ recordEnds (steps ++ [x]))
    (phase : ∀ l m ignored, s'.run.phase ≠ .refreshing l m ignored) :
    Accounted initial (steps ++ [x]) s' := by
  obtain ⟨reported, skipped, committed⟩ := acc.within_more x
  refine acc.unkept none (by rw [ledger]; rfl) ?_ ?_ (acc.committed_more tracker x) ?_
  · rw [Situation.Within, ledger, tracker, Ledger.skip, Lsn.offset_max]
    exact ⟨reported, max_rec' (fun p => p ≤ initial ∨ ∃ e ∈ recordEnds (steps ++ [x]), p ≤ e)
      skipped (Or.inr ⟨_, taken, Nat.le_refl _⟩), committed⟩
  · intro l m ignored now
    exact absurd now (phase l m ignored)
  · rw [ledger]
    intro c _ _ above reaches
    exact absurd reaches (Nat.not_le.mpr above)

/-- A record is taken that has to wait for a refresh; it ends behind all records before it. -/
theorem await (acc : Accounted initial steps s) {l : Lsn} {m : μ} {ignored : Bool}
    (none : x.kept? = none) (ledger : s'.run.ledger = s.run.ledger)
    (tracker : s'.tracker = s.tracker) (phase : s'.run.phase = .refreshing l m ignored)
    (taken : l.offset ∈ recordEnds (steps ++ [x])) (last : ∀ e ∈ recordEnds steps, e < l.offset) :
    Accounted initial (steps ++ [x]) s' := by
  refine acc.unkept none (by rw [ledger]) ?_ ?_ (acc.committed_more tracker x) ?_
  · simpa only [Situation.Within, ledger, tracker] using acc.within_more x
  · intro k n other now
    rw [phase] at now
    cases now
    refine ⟨taken, ?_, fun c member => last _ (acc.ends c member)⟩
    have within := acc.within.mono fun p => Or.imp_right fun ⟨e, member, bound⟩ =>
      Nat.lt_of_le_of_lt bound (last e member)
    simpa only [Situation.Within, ledger, tracker] using within
  · rw [ledger]
    intro c _ _ above reaches
    omega

theorem commit (acc : Accounted initial steps s) {c : Checkpoint} {d : Change μ}
    (none : x.kept? = none) (made : x.commit? = some c) (member : d ∈ kept steps)
    (own : d.checkpoint = c) (run : s'.run = s.run) (tracker : s'.tracker = s.tracker.commit c) :
    Accounted initial (steps ++ [x]) s' := by
  have taken := acc.ends d member
  obtain ⟨reported, skipped, _⟩ := acc.within_more x
  have position : s'.tracker.committed = d.checkpoint.lsn := by rw [tracker, own]; rfl
  refine acc.unkept none (by rw [run]) ?_ ?_ ?_ ?_
  · rw [Situation.Within, run, position]
    exact ⟨reported, skipped, Or.inr ⟨_, by simp [taken], Nat.le_refl _⟩⟩
  · intro l m ignored now
    rw [run] at now
    obtain ⟨ends, within, before⟩ := acc.pending l m ignored now
    refine ⟨by simp [ends], ?_, before⟩
    rw [Situation.Within, run, position]
    exact ⟨within.1, within.2.1, Or.inr (before d member)⟩
  · exact Or.inr ⟨c, by simp [commits, made], by rw [position, own]⟩
  · rw [run]
    intro e _ _ above reaches
    omega

theorem keep (acc : Accounted initial steps s) {c : Change μ} (made : x.kept? = some c)
    (ledger : s'.run.ledger = s.run.ledger.forward c.checkpoint.lsn)
    (tracker : s'.tracker = s.tracker)
    (taken : c.checkpoint.lsn.offset ∈ recordEnds (steps ++ [x]))
    (behind : s.Within fun p => p ≤ initial ∨ p < c.checkpoint.lsn.offset)
    (last : ∀ d ∈ kept steps, d.checkpoint.lsn.offset < c.checkpoint.lsn.offset)
    (phase : ∀ l m ignored, s'.run.phase ≠ .refreshing l m ignored) :
    Accounted initial (steps ++ [x]) s' := by
  have grown : kept (steps ++ [x]) = kept steps ++ [c] := by simp [kept, made]
  constructor
  · rw [Situation.Within, ledger, tracker]; exact acc.within_more x
  · intro l m ignored now
    exact absurd now (phase l m ignored)
  · rw [grown]
    intro d member
    rcases List.mem_append.mp member with old | new
    · simp [acc.ends d old]
    · cases List.mem_singleton.mp new; exact taken
  · rw [grown, ledger]
    intro d member
    rcases List.mem_append.mp member with old | new
    · exact Nat.le_of_lt (last d old)
    · cases List.mem_singleton.mp new; exact Nat.le_refl _
  · exact acc.committed_more tracker x
  · rw [grown, ledger]
    intro d member fresh reaches
    have reported : d.checkpoint.lsn.offset ≤ s.run.ledger.reported.offset := reaches
    rcases List.mem_append.mp member with old | new
    · obtain ⟨k, made, bound⟩ := acc.confirmed d old fresh reported
      exact ⟨k, by simp [made], bound⟩
    · cases List.mem_singleton.mp new
      rcases behind.1 with low | below <;> omega

section Steps

variable [Decoder δ μ] {act : Act} {events : List (Event μ)}

/-- A change that is made now lies behind all that was done before. -/
theorem behind (acc : Accounted initial steps s) (leads : Leads s act s' events)
    (increasing : (recordEnds (steps ++ [⟨s, act, events, s'⟩])).Pairwise (· < ·)) {c : Change μ}
    (made : Step.kept? ⟨s, act, events, s'⟩ = some c) :
    c.checkpoint.lsn.offset ∈ recordEnds (steps ++ [⟨s, act, events, s'⟩]) ∧
      (s.Within fun p => p ≤ initial ∨ p < c.checkpoint.lsn.offset) ∧
        ∀ d ∈ kept steps, d.checkpoint.lsn.offset < c.checkpoint.lsn.offset := by
  obtain ⟨-, -, -, ⟨frame, wallClock, rfl, ends⟩ | phase⟩ := leads.kept made
  · have grown : recordEnds (steps ++ [⟨s, .move (.take (.ok frame)) wallClock, events, s'⟩]) =
        recordEnds steps ++ [c.checkpoint.lsn.offset] := recordEnds_of_frame rfl ends
    rw [grown, List.pairwise_append] at increasing
    have last : ∀ e ∈ recordEnds steps, e < c.checkpoint.lsn.offset :=
      fun e member => increasing.2.2 e member _ (List.mem_singleton_self _)
    refine ⟨by simp [grown], ?_, fun d member => last _ (acc.ends d member)⟩
    exact acc.within.mono fun p => Or.imp_right fun ⟨e, member, bound⟩ =>
      Nat.lt_of_le_of_lt bound (last e member)
  · obtain ⟨taken, within, before⟩ := acc.pending _ _ _ phase
    exact ⟨by simp [taken], within, before⟩

theorem take (acc : Accounted initial steps s) {frame : Except Error Frame} {run : Run δ μ}
    {wallClock : Int} (takes : Run.Takes s.run s.now frame run events)
    (increasing : (recordEnds
      (steps ++ [⟨s, .move (.take frame) wallClock, events, { s with run }⟩])).Pairwise (· < ·))
    (none : Step.kept? ⟨s, .move (.take frame) wallClock, events, { s with run }⟩ = none)
    (idle : s.run.phase = .listening) :
    Accounted initial (steps ++ [⟨s, .move (.take frame) wallClock, events, { s with run }⟩])
      { s with run } := by
  cases takes with
  | filter carries ends _ =>
    refine acc.skip none rfl rfl ?_ (by simp [Run.skip])
    rw [recordEnds_of_frame rfl (Run.recordEnd_of_advance carries ends)]
    simp
  | skip carries ends _ _ =>
    refine acc.skip none rfl rfl ?_ (by simp [Run.skip])
    rw [recordEnds_of_frame rfl (Run.recordEnd_of_advance carries ends)]
    simp
  | refresh carries ends _ _ =>
    have taken := Run.recordEnd_of_advance carries ends
    rw [recordEnds_of_frame rfl taken, List.pairwise_append] at increasing
    exact acc.await none rfl rfl rfl (by rw [recordEnds_of_frame rfl taken]; simp)
      fun e member => increasing.2.2 e member _ (List.mem_singleton_self _)
  | forward => rw [Step.kept?, idle] at none; cases none
  | _ => exact acc.quiet none rfl rfl (Or.inr (by simp [Run.conclude, Run.hurry]))

theorem step (acc : Accounted initial steps s) (leads : Leads s act s' events)
    (increasing : (recordEnds (steps ++ [⟨s, act, events, s'⟩])).Pairwise (· < ·))
    (honest : ∀ c, act = .commit c → ∃ d ∈ kept steps, d.checkpoint = c) :
    Accounted initial (steps ++ [⟨s, act, events, s'⟩]) s' := by
  cases made : Step.kept? ⟨s, act, events, s'⟩ with
  | some c =>
    obtain ⟨phase, ledger, tracker, -⟩ := leads.kept made
    obtain ⟨taken, within, last⟩ := acc.behind leads increasing made
    exact acc.keep made ledger tracker taken within last (by simp [phase])
  | none =>
    cases leads with
    | move h =>
      cases Run.makes_of_apply h with
      | due => exact acc.report made rfl rfl (by simp)
      | take phase _ takes => exact acc.take takes increasing made phase
      | refreshSkip phase =>
        obtain ⟨taken, -, -⟩ := acc.pending _ _ _ phase
        exact acc.skip made rfl rfl (by simp [taken]) (by simp [Run.skip])
      | refreshForward phase => rw [Step.kept?, phase] at made; cases made
      | _ => exact acc.quiet made rfl rfl (Or.inr (by simp [Run.conclude, Run.hurry, Run.panic]))
    | receive =>
      rw [Run.receive_snd] at *
      exact acc.quiet made rfl rfl (Or.inl rfl)
    | commit =>
      obtain ⟨d, member, own⟩ := honest _ rfl
      exact acc.commit made rfl member own rfl rfl
    | _ => exact acc.quiet made rfl rfl (Or.inl rfl)

end Steps

theorem start {decoder : δ} {interval capacity now : Nat} {tracker : Tracker} :
    Accounted tracker.committed.offset []
      (.start decoder interval capacity now tracker : Situation δ μ) := by
  have phase := Situation.start_phase (μ := μ) decoder interval capacity now tracker
  constructor
  · simp only [Situation.Within, Situation.start_ledger]
    exact ⟨Or.inl (Nat.zero_le _), Or.inl (Nat.zero_le _), Or.inl (Nat.le_refl _)⟩
  · intro l m ignored now
    rcases phase with equal | equal <;> rw [equal] at now <;> cases now
  · simp [kept]
  · simp [kept]
  · exact Or.inl rfl
  · simp [kept]

end Accounted

section Reports

variable [Decoder δ μ]

theorem Leads.reported_le {s s' : Situation δ μ} {act : Act} {events : List (Event μ)}
    (leads : Leads s act s' events) :
    s.run.ledger.reported.offset ≤ s'.run.ledger.reported.offset := by
  cases leads with
  | move h =>
    cases Run.makes_of_apply h with
    | due => exact s.run.ledger.reported_le_report _
    | take _ _ takes => cases takes <;> exact Nat.le_refl _
    | _ => exact Nat.le_refl _
  | receive => rw [Run.receive_snd]
  | _ => exact Nat.le_refl _

theorem Reach.reported_le {first s : Situation δ μ} {steps : List (Step δ μ)}
    (reach : Reach first steps s) :
    first.run.ledger.reported.offset ≤ s.run.ledger.reported.offset := by
  induction reach with
  | start => exact Nat.le_refl _
  | next _ leads ih => exact Nat.le_trans ih leads.reported_le

theorem Reach.accounted {decoder : δ} {interval capacity now : Nat} {tracker : Tracker}
    {s : Situation δ μ} {steps : List (Step δ μ)}
    (reach : Reach (.start decoder interval capacity now tracker) steps s)
    (increasing : (recordEnds steps).Pairwise (· < ·)) (honest : Honest steps) :
    Accounted tracker.committed.offset steps s := by
  induction reach with
  | start => exact .start
  | @next steps s act s' events previous leads ih =>
    obtain ⟨honest, last⟩ := honest_append_singleton.mp honest
    refine (ih (pairwise_recordEnds increasing) honest).step leads increasing ?_
    intro c made
    obtain ⟨d, member, own⟩ := last c made
    exact ⟨d, previous.received_kept (by simp) (Situation.start_offered ..) d member, own⟩

/-- No report reaches the end of a record that was kept and that the consumer has not confirmed before
the report's position was computed. Kept are the records of the changes on the channel, of those
received, and of those given up for a stop; each ends where its change says. -/
theorem Reach.reports_confirmed {decoder : δ} {interval capacity now : Nat} {tracker : Tracker}
    {s : Situation δ μ} {steps : List (Step δ μ)}
    (reach : Reach (.start decoder interval capacity now tracker) steps s)
    (increasing : (recordEnds steps).Pairwise (· < ·)) (honest : Honest steps) :
    (∀ c ∈ sent steps ++ dropped steps, c ∈ kept steps) ∧
      (∀ c ∈ kept steps, c.checkpoint.lsn.offset ∈ recordEnds steps) ∧
        ∀ earlier x later u, steps = earlier ++ x :: later → .reported u ∈ x.events →
          ∀ c ∈ kept steps, tracker.committed < c.checkpoint.lsn →
            (c.checkpoint.lsn ≤ u.write ∨ c.checkpoint.lsn ≤ u.flush ∨ c.checkpoint.lsn ≤ u.apply) →
              ∃ k ∈ commits earlier, c.checkpoint.lsn ≤ k.lsn := by
  refine ⟨?_, (reach.accounted increasing honest).ends, ?_⟩
  · intro c member
    rw [reach.kept_eq (Situation.start_offered ..)]
    exact List.mem_append_left _ member
  rintro earlier x later u rfl reported c member fresh reaches
  obtain ⟨before, leads, after⟩ := reach.at_step
  obtain ⟨wallClock, act, phase, -, rfl⟩ := leads.report_eq reported
  have reaches : c.checkpoint.lsn.offset ≤ x.after.run.ledger.reported.offset := by
    rcases reaches with h | h | h <;> exact h
  have upTo : Reach (.start decoder interval capacity now tracker) (earlier ++ [x]) x.after :=
    .next before leads
  rw [List.append_cons] at reach increasing honest member
  rw [kept_append, List.mem_append] at member
  rcases member with old | new
  · -- A change made before the report is among the accounts at that time.
    have acc := upTo.accounted (pairwise_recordEnds increasing) honest.front
    obtain ⟨k, made, bound⟩ := acc.confirmed c old fresh reaches
    exact ⟨k, by simpa [commits, Step.commit?, act] using made, bound⟩
  · -- One made after it lies behind everything reported so far.
    obtain ⟨y, told, made⟩ := mem_kept.mp new
    obtain ⟨between, rest, rfl⟩ := List.append_of_mem told
    rw [← List.append_assoc] at reach increasing honest
    obtain ⟨toY, leadsY, -⟩ := reach.at_step
    rw [List.append_cons] at increasing honest
    have acc := toY.accounted (pairwise_recordEnds (pairwise_recordEnds increasing)) honest.front.front
    obtain ⟨-, ⟨behind, -, -⟩, -⟩ := acc.behind leadsY (pairwise_recordEnds increasing) made
    have grows := after.at_step.1.reported_le
    have fresh : tracker.committed.offset < c.checkpoint.lsn.offset := fresh
    rcases behind with low | below <;> omega

/-- One record is taken, received and confirmed, and then reported. -/
theorem reports_confirmed_once_received :
    let first : Situation Pglogical.Relations _ := .start .empty 5 1 0 ⟨.zero⟩
    let steps := history first
      [.move .check 0, .move (.take (.ok (commitFrame ⟨10, by decide⟩))) 0, .move .deliver 0, .receive,
        .commit ⟨⟨11, by decide⟩, .epoch⟩, .wait 5, .move .check 0]
    (recordEnds steps).Pairwise (· < ·) ∧ Honest steps ∧
      (reports steps).map StatusUpdate.flush = [⟨11, by decide⟩] ∧
        ∀ earlier x later u, steps = earlier ++ x :: later → .reported u ∈ x.events →
          ∀ c ∈ kept steps, Lsn.zero < c.checkpoint.lsn → c.checkpoint.lsn ≤ u.flush →
            ∃ k ∈ commits earlier, c.checkpoint.lsn ≤ k.lsn := by
  intro first steps
  have increasing : (recordEnds steps).Pairwise (· < ·) := by decide +kernel
  have honest : Honest steps := by decide +kernel
  obtain ⟨s, reach⟩ : ∃ s, Reach first steps s := reach_history _ _
  refine ⟨increasing, honest, by decide +kernel, ?_⟩
  intro earlier x later u told reported c member fresh reaches
  exact (reach.reports_confirmed increasing honest).2.2 earlier x later u told reported c member
    fresh (Or.inr (Or.inl reaches))

end Reports

end ChangeFeed.Feed
