import ChangeFeed.Proofs.Feed.Acknowledgment
import ChangeFeed.Proofs.Feed.Stopping

/-!
How far the reports come. Main statement: the reported positions never fall, and once the consumer has
confirmed the last change that was made of a record, the next report tells the end of the last record,
so records that were dropped hold nothing back.
-/
namespace ChangeFeed.Feed

variable {δ μ : Type}

/-- The end of the furthest record that was handed on or dropped. -/
def Ledger.top (g : Ledger) : Nat := max g.forwarded.offset g.skipped.offset

theorem Ledger.top_skip (g : Ledger) (l : Lsn) : (g.skip l).top = max g.top l.offset := by
  simp only [top, skip, Lsn.offset_max]
  omega

theorem Ledger.top_forward {g : Ledger} {l : Lsn} (behind : g.top ≤ l.offset) :
    (g.forward l).top = l.offset := by
  simp only [top, forward] at *
  omega

/-- A consumer that has confirmed all that was handed on stands for the records that were dropped as well. -/
theorem Ledger.candidate_of_passed {g : Ledger} {acked : Lsn} (passed : g.forwarded ≤ acked) :
    (g.candidate acked).offset = max acked.offset g.skipped.offset := by
  unfold candidate
  split
  · rename_i ahead
    have less : acked.offset < g.skipped.offset := ahead.2
    omega
  · rename_i level
    have less : g.skipped.offset ≤ acked.offset :=
      Nat.not_lt.mp fun ahead => level ⟨passed, ahead⟩
    omega

/-- A consumer that stands at the last record handed on stands for all records that were dropped. -/
theorem Ledger.candidate_of_forwarded {g : Ledger} {acked : Lsn}
    (all : g.forwarded.offset = acked.offset) : (g.candidate acked).offset = g.top := by
  rw [candidate_of_passed (Nat.le_of_eq all), top, all]

/-- A consumer that stands where it began stands for all records as long as none was handed on. -/
theorem Ledger.candidate_of_unforwarded {g : Ledger} {acked : Lsn} (none : g.forwarded.offset = 0) :
    (g.candidate acked).offset = max acked.offset g.top := by
  have passed : g.forwarded ≤ acked := by
    show g.forwarded.offset ≤ acked.offset
    omega
  rw [candidate_of_passed passed, top, none, Nat.zero_max]

section Reports

variable [Decoder δ μ] {first s s' : Situation δ μ} {steps : List (Step δ μ)} {act : Act}
  {events : List (Event μ)}

omit [Decoder δ μ] in
theorem mem_reports_singleton {x : Step δ μ} {u : StatusUpdate} :
    u ∈ reports [x] ↔ .reported u ∈ x.events := by
  rw [reports_singleton, List.mem_filterMap]
  constructor
  · rintro ⟨event, member, told⟩
    cases event <;> cases told
    exact member
  · exact fun member => ⟨_, member, rfl⟩

/-- What was reported lies behind the highest position reported. -/
theorem Reach.reports_le_reported (reach : Reach first steps s) :
    ∀ u ∈ reports steps, ∃ l wallClock, u = .acknowledge l wallClock ∧
      l.offset ≤ s.run.ledger.reported.offset := by
  induction reach with
  | start => simp [reports, Feed.events]
  | @next steps s act s' events previous leads ih =>
    intro u member
    rw [reports_append, List.mem_append, mem_reports_singleton] at member
    rcases member with old | new
    · obtain ⟨l, wallClock, same, bound⟩ := ih u old
      exact ⟨l, wallClock, same, Nat.le_trans bound leads.reported_le⟩
    · obtain ⟨wallClock, -, -, -, same⟩ := leads.report_eq new
      exact ⟨_, wallClock, same, Nat.le_refl _⟩

/-- A step makes at most one report, with the highest position reported so far. -/
theorem Leads.reports_singleton (leads : Leads s act s' events) :
    reports [⟨s, act, events, s'⟩] = [] ∨
      ∃ wallClock, reports [⟨s, act, events, s'⟩] =
        [.acknowledge s'.run.ledger.reported wallClock] := by
  rw [Feed.reports_singleton]
  cases leads with
  | move h =>
    cases Run.makes_of_apply h with
    | due => exact Or.inr ⟨_, rfl⟩
    | take _ _ takes => cases takes <;> exact Or.inl rfl
    | _ => exact Or.inl rfl
  | _ => exact Or.inl rfl

theorem Reach.reports_pairwise (reach : Reach first steps s) :
    (reports steps).Pairwise fun u v => u.write ≤ v.write ∧ u.flush ≤ v.flush ∧ u.apply ≤ v.apply := by
  induction reach with
  | start => simp [reports, Feed.events]
  | @next steps s act s' events previous leads ih =>
    rw [reports_append]
    rcases leads.reports_singleton with none | ⟨wallClock, one⟩
    · simpa only [none, List.append_nil] using ih
    · rw [one, List.pairwise_append]
      refine ⟨ih, List.pairwise_singleton _ _, ?_⟩
      intro u member v new
      obtain ⟨l, _, rfl, bound⟩ := previous.reports_le_reported u member
      cases List.mem_singleton.mp new
      have grows : l.offset ≤ s'.run.ledger.reported.offset := Nat.le_trans bound leads.reported_le
      exact ⟨grows, grows, grows⟩

theorem Leads.report_checking {u : StatusUpdate} (leads : Leads s act s' events)
    (reported : .reported u ∈ events) : s.run.phase = .checking := by
  cases leads with
  | move h =>
    cases Run.makes_of_apply h with
    | due phase => exact phase
    | take _ _ takes => cases takes <;> simp at reported
    | _ => simp at reported
  | _ => cases reported

theorem Leads.forwarded_stays (leads : Leads s act s' events)
    (none : Step.kept? ⟨s, act, events, s'⟩ = none) :
    s'.run.ledger.forwarded = s.run.ledger.forwarded := by
  cases leads with
  | move h =>
    cases Run.makes_of_apply h with
    | take phase _ takes =>
      cases takes with
      | forward => rw [Step.kept?, phase] at none; cases none
      | _ => rfl
    | refreshForward phase => rw [Step.kept?, phase] at none; cases none
    | _ => rfl
  | receive => rw [Run.receive_snd]
  | _ => rfl

/-- The ledger's mark of what was handed on is the end of the last change that was made. -/
theorem Reach.forwarded_eq (reach : Reach first steps s) (fresh : first.run.ledger = .fresh) :
    s.run.ledger.forwarded.offset = ((kept steps).getLast?.map (·.checkpoint.lsn.offset)).getD 0 := by
  induction reach with
  | start => rw [fresh]; rfl
  | @next steps s act s' events previous leads ih =>
    rw [kept_append, kept_singleton]
    cases made : Step.kept? ⟨s, act, events, s'⟩ with
    | some c =>
      obtain ⟨-, ledger, -⟩ := leads.kept made
      simp [ledger, Ledger.forward]
    | none =>
      rw [leads.forwarded_stays made]
      simpa using ih

end Reports

/-- Where the last of the records ends. -/
def lastEnd? (steps : List (Step δ μ)) : Option Nat := (recordEnds steps).getLast?

theorem lastEnd?_of_frame {steps : List (Step δ μ)} {x : Step δ μ} {frame : Frame} {e : Nat}
    (taken : x.frame? = some frame) (ends : frame.recordEnd? = some e) :
    lastEnd? (steps ++ [x]) = some e := by
  rw [lastEnd?, recordEnds_of_frame taken ends, List.getLast?_concat]

theorem lastEnd?_of_none {steps : List (Step δ μ)} {x : Step δ μ}
    (none : ∀ frame, x.frame? = some frame → frame.recordEnd? = none) :
    lastEnd? (steps ++ [x]) = lastEnd? steps := by
  have nothing : recordEnds [x] = [] := by
    cases taken : x.frame? with
    | none => simp [recordEnds, taken]
    | some frame => simp [recordEnds, taken, none frame taken]
  rw [lastEnd?, recordEnds_append, nothing, List.append_nil, lastEnd?]

/-- The last of increasing ends bounds them all. -/
theorem le_lastEnd? {steps : List (Step δ μ)} {e : Nat}
    (increasing : (recordEnds steps).Pairwise (· < ·)) (member : e ∈ recordEnds steps) :
    e ≤ (lastEnd? steps).getD 0 := by
  unfold lastEnd?
  obtain ⟨front, last, all⟩ : ∃ front last, recordEnds steps = front ++ [last] :=
    ⟨_, _, (List.dropLast_concat_getLast (List.ne_nil_of_mem member)).symm⟩
  rw [all] at increasing member ⊢
  rw [List.getLast?_concat, Option.getD_some]
  rcases List.mem_append.mp member with old | new
  · exact Nat.le_of_lt ((List.pairwise_append.mp increasing).2.2 e old last (by simp))
  · exact Nat.le_of_eq (List.mem_singleton.mp new)

theorem lastEnd?_le {steps : List (Step δ μ)} {x : Step δ μ} {frame : Frame} {e : Nat}
    (taken : x.frame? = some frame) (ends : frame.recordEnd? = some e)
    (increasing : (recordEnds (steps ++ [x])).Pairwise (· < ·)) : (lastEnd? steps).getD 0 ≤ e := by
  rw [recordEnds_of_frame taken ends, List.pairwise_append] at increasing
  cases last : lastEnd? steps with
  | none => exact Nat.zero_le e
  | some d =>
    exact Nat.le_of_lt (increasing.2.2 d (List.mem_of_getLast? last) e (List.mem_singleton_self e))

/-- The ledger stands at the end of the last record, unless that record is still in hands or the work is
over. -/
inductive Level (steps : List (Step δ μ)) (r : Run δ μ) : Prop
  | settled : (∀ l m ignored, r.phase ≠ .refreshing l m ignored) →
      r.ledger.top = (lastEnd? steps).getD 0 → Level steps r
  | pending {l m ignored} : r.phase = .refreshing l m ignored → lastEnd? steps = some l.offset →
      r.ledger.top ≤ l.offset → Level steps r
  | done : r.phase.working = false → Level steps r

namespace Level

variable {s s' : Situation δ μ} {r r' : Run δ μ} {steps : List (Step δ μ)} {x : Step δ μ} {act : Act}
  {events : List (Event μ)}

theorem top_eq (level : Level steps r) (working : r.phase.working = true)
    (settled : ∀ l m ignored, r.phase ≠ .refreshing l m ignored) :
    r.ledger.top = (lastEnd? steps).getD 0 := by
  cases level with
  | settled _ top => exact top
  | pending phase => exact absurd phase (settled _ _ _)
  | done finished => rw [working] at finished; cases finished

theorem waiting {l : Lsn} {m : μ} {ignored : Bool} (level : Level steps r)
    (phase : r.phase = .refreshing l m ignored) :
    lastEnd? steps = some l.offset ∧ r.ledger.top ≤ l.offset := by
  cases level with
  | settled settled => exact absurd phase (settled _ _ _)
  | pending other last top => rw [phase] at other; cases other; exact ⟨last, top⟩
  | done finished => rw [phase] at finished; cases finished

/-- A step that neither takes a record nor does away with one. -/
theorem quiet (level : Level steps r) (none : ∀ frame, x.frame? = some frame → frame.recordEnd? = none)
    (top : r'.ledger.top = r.ledger.top)
    (phase : r'.phase = r.phase ∨ r.phase.working = true ∧
      (∀ l m ignored, r.phase ≠ .refreshing l m ignored) ∧
        ∀ l m ignored, r'.phase ≠ .refreshing l m ignored) : Level (steps ++ [x]) r' := by
  have last : lastEnd? (steps ++ [x]) = lastEnd? steps := lastEnd?_of_none none
  rcases phase with same | ⟨working, before, after⟩
  · cases level with
    | settled settled top' => exact .settled (by rwa [same]) (by rw [top, top', last])
    | pending phase ends behind => exact .pending (same.trans phase) (by rw [last, ends]) (by rwa [top])
    | done finished => exact .done (by rwa [same])
  · exact .settled after (by rw [top, last, level.top_eq working before])

theorem raised {l : Lsn} (settled : ∀ l m ignored, r.phase ≠ .refreshing l m ignored)
    (ends : lastEnd? steps = some l.offset) (top : r.ledger.top = l.offset) : Level steps r :=
  .settled settled (by rw [top, ends, Option.getD_some])

section Steps

variable [Decoder δ μ]

theorem take {frame : Except Error Frame} {wallClock : Int} (level : Level steps s.run)
    (idle : s.run.phase = .listening) (takes : Run.Takes s.run s.now frame r events)
    (increasing : (recordEnds
      (steps ++ [⟨s, .move (.take frame) wallClock, events, { s with run := r }⟩])).Pairwise (· < ·)) :
    Level (steps ++ [⟨s, .move (.take frame) wallClock, events, { s with run := r }⟩]) r := by
  have working : s.run.phase.working = true := by rw [idle]; rfl
  have settled : ∀ l m ignored, s.run.phase ≠ .refreshing l m ignored := by simp [idle]
  have top := level.top_eq working settled
  cases takes with
  | @filter _ _ _ l _ carries ends _ | @skip _ _ _ l _ _ carries ends _ _ =>
    have ends := Run.recordEnd_of_advance carries ends
    have behind : s.run.ledger.top ≤ l.offset := top.trans_le (lastEnd?_le rfl ends increasing)
    refine raised (by simp [Run.skip]) (lastEnd?_of_frame rfl ends) ?_
    exact (s.run.ledger.top_skip l).trans (max_eq_right behind)
  | forward carries ends _ _ =>
    have ends := Run.recordEnd_of_advance carries ends
    have behind := top.trans_le (lastEnd?_le rfl ends increasing)
    exact raised (by simp [Run.forward]) (lastEnd?_of_frame rfl ends) (Ledger.top_forward behind)
  | refresh carries ends _ _ =>
    have ends := Run.recordEnd_of_advance carries ends
    have behind := top.trans_le (lastEnd?_le rfl ends increasing)
    exact .pending rfl (lastEnd?_of_frame rfl ends) behind
  | answer carries | ignore carries =>
    refine level.quiet ?_ rfl (Or.inr ⟨working, settled, by simp [Run.hurry]⟩)
    rintro _ ⟨⟩
    simp [Frame.recordEnd?, carries]
  | _ => exact .done rfl

theorem step (level : Level steps s.run) (leads : Leads s act s' events)
    (increasing : (recordEnds (steps ++ [⟨s, act, events, s'⟩])).Pairwise (· < ·)) :
    Level (steps ++ [⟨s, act, events, s'⟩]) s'.run := by
  cases leads with
  | move h =>
    cases Run.makes_of_apply h with
    | take phase _ takes => exact level.take phase takes increasing
    | @refreshSkip l _ phase =>
      obtain ⟨last, top⟩ := level.waiting phase
      refine raised (by simp [Run.skip]) ((lastEnd?_of_none (by rintro _ ⟨⟩)).trans last) ?_
      exact (s.run.ledger.top_skip l).trans (max_eq_right top)
    | refreshForward phase =>
      obtain ⟨last, top⟩ := level.waiting phase
      exact raised (by simp [Run.forward]) ((lastEnd?_of_none (by rintro _ ⟨⟩)).trans last)
        (Ledger.top_forward top)
    | unreported | leave | breakOff | unrefreshed | lose | close | release | publish => exact .done rfl
    | _ => exact level.quiet (by rintro _ ⟨⟩) rfl (Or.inr (by simp [*, Phase.working, Run.hurry]))
  | receive =>
    rw [Run.receive_snd] at *
    exact level.quiet (by rintro _ ⟨⟩) rfl (Or.inl rfl)
  | _ => exact level.quiet (by rintro _ ⟨⟩) rfl (Or.inl rfl)

end Steps

end Level

section Progress

variable [Decoder δ μ] {decoder : δ} {interval capacity now : Nat} {tracker : Tracker}
  {s : Situation δ μ} {steps : List (Step δ μ)}

theorem Reach.level (reach : Reach (.start decoder interval capacity now tracker) steps s)
    (increasing : (recordEnds steps).Pairwise (· < ·)) : Level steps s.run := by
  induction reach with
  | start =>
    rcases Situation.start_phase (μ := μ) decoder interval capacity now tracker with phase | phase
    · exact .settled (by simp [phase]) (by rw [Situation.start_ledger]; rfl)
    · exact .done (by rw [phase]; rfl)
  | next _ leads ih => exact (ih (pairwise_recordEnds increasing)).step leads increasing

/-- The consumer has confirmed the last change that was made of a record, if there is one. -/
def CaughtUp (steps : List (Step δ μ)) : Prop :=
  kept steps = [] ∨ (commits steps).getLast? = (kept steps).getLast?.map (·.checkpoint)

instance (steps : List (Step δ μ)) : Decidable (CaughtUp steps) :=
  inferInstanceAs (Decidable (_ ∨ _))

omit [Decoder δ μ] in
theorem committed_of_last (tracker : Tracker) {checkpoints : List Checkpoint} {c : Checkpoint}
    (last : checkpoints.getLast? = some c) :
    (checkpoints.foldl Tracker.commit tracker).committed = c.lsn := by
  obtain ⟨front, rfl⟩ := List.getLast?_eq_some_iff.mp last
  rw [List.foldl_append]
  rfl

/-- A consumer that confirms only what it has received, and has received nothing, stands where it
began. -/
theorem Reach.committed_of_unkept {first : Situation δ μ} (reach : Reach first steps s)
    (empty : first.run.channel.buffer = []) (idle : first.run.phase.offered? = none)
    (honest : Honest steps) (none : kept steps = []) : s.tracker = first.tracker := by
  have silent : commits steps = [] := by
    refine List.filterMap_eq_nil_iff.mpr fun x member => ?_
    obtain ⟨earlier, later, rfl⟩ := List.append_of_mem member
    cases made : x.commit? with
    | none => rfl
    | some c =>
      obtain ⟨d, member, -⟩ := honest _ _ _ c rfl (Step.commit?_eq_some.mp made)
      have taken := reach.at_step.1.received_kept empty idle d member
      rw [kept_append, List.append_eq_nil_iff] at none
      rw [none.1] at taken
      cases taken
  rw [reach.tracker_eq, silent]
  rfl

/-- The position that a report would stand for, once the consumer has caught up. -/
theorem Reach.candidate_of_caughtUp
    (reach : Reach (.start decoder interval capacity now tracker) steps s) (honest : Honest steps)
    (fresh : ∀ c ∈ kept steps, tracker.committed.offset < c.checkpoint.lsn.offset)
    (caughtUp : CaughtUp steps) :
    (s.run.ledger.candidate s.tracker.committed).offset =
      max tracker.committed.offset s.run.ledger.top := by
  have forwarded := reach.forwarded_eq (Situation.start_ledger ..)
  by_cases none : kept steps = []
  · have same := reach.committed_of_unkept (Situation.start_buffer ..) (Situation.start_offered ..)
      honest none
    rw [none] at forwarded
    rw [Ledger.candidate_of_unforwarded forwarded, same]
    rfl
  · have latest := caughtUp.resolve_left none
    obtain ⟨c, last⟩ := Option.ne_none_iff_exists'.mp (mt List.getLast?_eq_none_iff.mp none)
    rw [last, Option.map_some] at latest
    have committed : s.tracker.committed = c.checkpoint.lsn := by
      rw [reach.tracker_eq]
      exact committed_of_last _ latest
    have behind := fresh c (List.mem_of_getLast? last)
    have forwarded : s.run.ledger.forwarded.offset = c.checkpoint.lsn.offset := by
      rw [forwarded, last]
      rfl
    have below : s.run.ledger.forwarded.offset ≤ s.run.ledger.top := le_max_left _ _
    rw [Ledger.candidate_of_forwarded (by rw [committed, forwarded])]
    omega

/-- The reported positions never fall. If the records end one behind the other and behind the position
that the consumer began at, and the consumer confirms only what it has received, then each report that
is made when it has caught up tells exactly where the last record ended, whether a change was made of
it or it was dropped, or the first position if there was none. -/
theorem Reach.reports_advance
    (reach : Reach (.start decoder interval capacity now tracker) steps s) :
    ((reports steps).Pairwise fun u v =>
        u.write ≤ v.write ∧ u.flush ≤ v.flush ∧ u.apply ≤ v.apply) ∧
      ((recordEnds steps).Pairwise (· < ·) → (∀ e ∈ recordEnds steps, tracker.committed.offset < e) →
        Honest steps → ∀ earlier x later u, steps = earlier ++ x :: later → .reported u ∈ x.events →
          CaughtUp earlier →
            u.write = u.flush ∧ u.apply = u.flush ∧
              u.flush.offset = (recordEnds earlier).getLast?.getD tracker.committed.offset) := by
  refine ⟨reach.reports_pairwise, ?_⟩
  rintro increasing fresh honest earlier x later u rfl reported caughtUp
  obtain ⟨before, leads, -⟩ := reach.at_step
  have increasing := pairwise_recordEnds increasing
  have fresh : ∀ e ∈ recordEnds earlier, tracker.committed.offset < e :=
    fun e member => fresh e (by simp [member])
  obtain ⟨wallClock, act, -, ledger, rfl⟩ := leads.report_eq reported
  have checking : x.before.run.phase = .checking := leads.report_checking reported
  refine ⟨rfl, rfl, ?_⟩
  have top := (before.level increasing).top_eq (by rw [checking]; rfl) (by simp [checking])
  have accounted := before.accounted increasing honest.front
  have candidate := before.candidate_of_caughtUp honest.front
    (fun c member => fresh _ (accounted.ends c member)) caughtUp
  have reports := x.before.run.ledger.reported_report x.before.tracker.committed
  show x.after.run.ledger.reported.offset = (lastEnd? earlier).getD tracker.committed.offset
  rw [ledger, reports, candidate, top]
  cases last : lastEnd? earlier with
  | none =>
    have nothing : recordEnds earlier = [] := List.getLast?_eq_none_iff.mp last
    have reported : x.before.run.ledger.reported.offset ≤ tracker.committed.offset := by
      simpa [nothing] using accounted.within.1
    simp only [Option.getD_none]
    omega
  | some e =>
    have ahead := fresh e (List.mem_of_getLast? last)
    have reported : x.before.run.ledger.reported.offset ≤ e := by
      rcases accounted.within.1 with low | ⟨d, member, bound⟩
      · omega
      · have bounded := le_lastEnd? increasing member
        rw [last, Option.getD_some] at bounded
        omega
    simp only [Option.getD_some]
    omega

/-- A record is confirmed and the next one is dropped; the next report tells the end of the latter. -/
theorem reports_advance_past_dropped :
    let first : Situation Pglogical.Relations Pglogical.Message := .start .empty 5 1 0 ⟨.zero⟩
    let steps := history first
      [.move .check 0, .move (.take (.ok (commitFrame ⟨10, by decide⟩))) 0, .move .deliver 0, .receive,
        .commit ⟨⟨11, by decide⟩, .epoch⟩, .move .check 0,
        .move (.take (.ok (.copyData (StreamMessage.layout
          (.record ⟨20, by decide⟩ ⟨20, by decide⟩ 0 [0x4f]))))) 0, .wait 5, .move .check 0]
    recordEnds steps = [11, 21] ∧ Honest steps ∧
      ∃ u, reports steps = [u] ∧ (u.write = u.flush ∧ u.apply = u.flush ∧ u.flush.offset = 21) := by
  intro first steps
  have ends : recordEnds steps = [11, 21] := by decide +kernel
  have honest : Honest steps := by decide +kernel
  obtain ⟨s, reach⟩ : ∃ s, Reach first steps s := reach_history _ _
  have single : (steps.drop 8).length = 1 := by decide +kernel
  obtain ⟨x, last⟩ := List.length_eq_one_iff.mp single
  have told : steps = steps.take 8 ++ [x] := by rw [← last, List.take_append_drop]
  have one : reports steps = [.acknowledge ⟨21, by decide⟩ 0] := by decide +kernel
  refine ⟨ends, honest, _, one, ?_⟩
  have increasing : (recordEnds steps).Pairwise (· < ·) := by rw [ends]; decide
  have fresh : ∀ e ∈ recordEnds steps, Lsn.zero.offset < e := by rw [ends]; decide
  have caughtUp : CaughtUp (steps.take 8) := by decide +kernel
  have reported : .reported (.acknowledge ⟨21, by decide⟩ 0) ∈ x.events := by
    rw [← mem_reports_singleton, ← last]
    decide +kernel
  have ended : (recordEnds (steps.take 8)).getLast?.getD 0 = 21 := by decide +kernel
  obtain ⟨write, apply, flush⟩ :=
    reach.reports_advance.2 increasing fresh honest _ _ _ _ told reported caughtUp
  exact ⟨write, apply, flush.trans ended⟩

end Progress

end ChangeFeed.Feed
