import ChangeFeed.Proofs.Feed.Acknowledgment

/-!
In which order changes are handed on. Main statement: their positions are ends of records, in the order
in which the records were taken, so they do not fall if no record ends before an earlier one, and then
no change is acknowledged by what was confirmed before it. It is not enough that no record begins
before an earlier one.
-/
namespace ChangeFeed

/-- Where the record of a frame begins. -/
def Frame.recordStart? (frame : Frame) : Option Nat :=
  match frame.content with
  | .ok (some (start, _)) => some start.offset
  | _ => none

namespace Feed

variable {δ μ : Type}

def recordStarts (steps : List (Step δ μ)) : List Nat := (frames steps).filterMap Frame.recordStart?

/-- Where changes end. -/
def positions (changes : List (Change μ)) : List Nat := changes.map (·.checkpoint.lsn.offset)

@[simp] theorem positions_append (a b : List (Change μ)) :
    positions (a ++ b) = positions a ++ positions b := List.map_append

/-- Where the record ends whose message waits for new metadata. -/
def Phase.pending : Phase μ → List Nat
  | .refreshing l _ _ => [l.offset]
  | _ => []

theorem recordEnds_singleton {x : Step δ μ} {frame : Frame} {e : Nat} (taken : x.frame? = some frame)
    (ends : frame.recordEnd? = some e) : recordEnds [x] = [e] := by
  simp [recordEnds, taken, ends]

variable [Decoder δ μ] {first s s' : Situation δ μ} {steps : List (Step δ μ)}

/-- A change that is made in a step, and one that may be made later, is of a record taken in it or
before. -/
theorem Leads.in_order {act : Act} {events : List (Event μ)} (leads : Leads s act s' events) :
    (positions (Feed.kept [⟨s, act, events, s'⟩]) ++ s'.run.phase.pending).Sublist
      (s.run.phase.pending ++ recordEnds [⟨s, act, events, s'⟩]) := by
  rw [kept_singleton]
  cases leads with
  | move h =>
    cases Run.makes_of_apply h with
    | take phase _ takes =>
      cases takes with
      | forward carries ends | refresh carries ends =>
        have taken := Run.recordEnd_of_advance carries ends
        rw [Step.kept?, phase, recordEnds_singleton rfl taken]
        exact List.Sublist.refl _
      | _ => rw [Step.kept?_of_after rfl]; exact List.nil_sublist _
    | refreshForward phase =>
      rw [Step.kept?, phase]
      exact List.sublist_append_left _ _
    | _ => rw [Step.kept?_of_after rfl]; exact List.nil_sublist _
  | receive =>
    rw [Run.receive_snd, Step.kept?_of_same rfl]
    exact List.sublist_append_left _ _
  | _ =>
    rw [Step.kept?_of_same rfl]
    exact List.sublist_append_left _ _

/-- Changes are made in the order in which their records are taken, and end where those end. -/
theorem Reach.in_order (reach : Reach first steps s) :
    (positions (Feed.kept steps) ++ s.run.phase.pending).Sublist
      (first.run.phase.pending ++ recordEnds steps) := by
  induction reach with
  | start => simp [kept, positions, recordEnds, frames]
  | @next steps s act s' events previous leads ih =>
    have last := leads.in_order.append_left (positions (kept steps))
    have earlier := ih.append_right (recordEnds [⟨s, act, events, s'⟩])
    rw [List.append_assoc] at earlier
    simpa only [kept_append, positions_append, recordEnds_append, List.append_assoc] using
      last.trans earlier

/-- What goes onto the channel are the first changes that were made. -/
theorem Reach.sent_begins (reach : Reach first steps s) (idle : first.run.phase.offered? = none) :
    sent steps <+: Feed.kept steps :=
  ⟨_, by rw [reach.kept_eq idle, List.append_assoc]⟩

section Order

variable {decoder : δ} {interval capacity now : Nat} {tracker : Tracker}

theorem Reach.positions_sublist (reach : Reach (.start decoder interval capacity now tracker) steps s) :
    (positions (Feed.kept steps)).Sublist (recordEnds steps) := by
  have none : (Situation.start decoder interval capacity now tracker :
      Situation δ μ).run.phase.pending = [] := by
    rcases Situation.start_phase (μ := μ) decoder interval capacity now tracker with phase | phase <;>
      rw [phase] <;> rfl
  have ordered := reach.in_order
  rw [none, List.nil_append] at ordered
  exact (List.sublist_append_left _ _).trans ordered

/-- A change made after a report is of a record taken after it. -/
theorem Reach.mem_recordEnds_of_reporting {u : StatusUpdate} {c : Change μ} (reach : Reach first steps s)
    (reporting : first.run.phase = .reporting u) (made : c ∈ Feed.kept steps) :
    c.checkpoint.lsn.offset ∈ recordEnds steps := by
  have ordered := reach.in_order
  rw [reporting] at ordered
  exact ordered.subset (List.mem_append_left _ (List.mem_map_of_mem made))

omit [Decoder δ μ] in
theorem Honest.mem_received (honest : Honest steps) {k : Checkpoint} (confirmed : k ∈ commits steps) :
    ∃ c ∈ received steps, c.checkpoint = k := by
  obtain ⟨x, member, made⟩ := List.mem_filterMap.mp confirmed
  obtain ⟨earlier, later, rfl⟩ := List.append_of_mem member
  obtain ⟨c, taken, own⟩ := honest _ _ _ k rfl (Step.commit?_eq_some.mp made)
  exact ⟨c, by simp [taken], own⟩

omit [Decoder δ μ] in
/-- One of several changes in order that lies as far as another comes no earlier. -/
theorem mem_of_position_le {before after : List (Change μ)} {c d : Change μ}
    (rising : (positions (before ++ c :: after)).Pairwise (· < ·)) (member : d ∈ before ++ c :: after)
    (reaches : c.checkpoint.lsn.offset ≤ d.checkpoint.lsn.offset) : d ∈ c :: after := by
  rcases List.mem_append.mp member with early | late
  · rw [positions_append, List.pairwise_append] at rising
    have below := rising.2.2 _ (List.mem_map_of_mem early) c.checkpoint.lsn.offset (by simp [positions])
    omega
  · exact late

/-- A change that is made after a report lies behind what was reported. -/
theorem Accounted.reported_lt {initial : Nat} {later : List (Step δ μ)} {middle : Situation δ μ}
    {u : StatusUpdate} {c : Change μ} (acc : Accounted initial steps middle)
    (back : Reach middle later s) (reporting : middle.run.phase = .reporting u)
    (rising : (recordEnds (steps ++ later)).Pairwise (· < ·)) (made : c ∈ Feed.kept later)
    (fresh : initial < c.checkpoint.lsn.offset) :
    middle.run.ledger.reported.offset < c.checkpoint.lsn.offset := by
  rw [recordEnds_append, List.pairwise_append] at rising
  rcases acc.within.1 with low | ⟨e, member, bound⟩
  · omega
  · exact bound.trans_lt (rising.2.2 e member _ (back.mem_recordEnds_of_reporting reporting made))

/-- Changes are handed on in the order of their records, and each ends where its record ends. So their
positions do not fall if those of the records do not; and if the records end one behind the other, a
change is acknowledged only after it, or one that was made later, has been confirmed. -/
theorem Reach.sent_in_order (reach : Reach (.start decoder interval capacity now tracker) steps s) :
    sent steps <+: Feed.kept steps ∧ (positions (Feed.kept steps)).Sublist (recordEnds steps) ∧
      ((recordEnds steps).Pairwise (· ≤ ·) → (positions (sent steps)).Pairwise (· ≤ ·)) ∧
        ((recordEnds steps).Pairwise (· < ·) → Honest steps →
          ∀ earlier x later u, steps = earlier ++ x :: later → .reported u ∈ x.events →
            ∀ before c after, Feed.kept steps = before ++ c :: after →
              tracker.committed < c.checkpoint.lsn → c.checkpoint.lsn ≤ u.flush →
                ∃ d ∈ c :: after, d.checkpoint ∈ commits earlier) := by
  have ordered := reach.positions_sublist
  have begun := reach.sent_begins (Situation.start_offered ..)
  refine ⟨begun, ordered, fun rising => ?_, ?_⟩
  · have sent := begun.sublist.map (·.checkpoint.lsn.offset)
    exact rising.sublist (sent.trans ordered)
  rintro rising honest earlier x later u rfl reported before c after made fresh reaches
  have apart := made ▸ rising.sublist ordered
  obtain ⟨front, leads, back⟩ := reach.at_step
  obtain ⟨wallClock, act, reporting, -, rfl⟩ := leads.report_eq reported
  have told : Reach _ (earlier ++ [x]) x.after := .next front leads
  rw [List.append_cons] at rising honest
  have acc := told.accounted (pairwise_recordEnds rising) honest.front
  have member : c ∈ Feed.kept (earlier ++ [x]) ++ Feed.kept later := by
    rw [← kept_append, ← List.append_cons, made]
    simp
  rcases List.mem_append.mp member with old | new
  · obtain ⟨k, confirmed, bound⟩ := acc.confirmed c old fresh reaches
    have confirmed : k ∈ commits earlier := by simpa [commits, Step.commit?, act] using confirmed
    obtain ⟨d, received, rfl⟩ := honest.front.front.mem_received confirmed
    have kept := front.received_kept (Situation.start_buffer ..) (Situation.start_offered ..) d received
    have all : d ∈ before ++ c :: after := by rw [← made, kept_append]; simp [kept]
    exact ⟨d, mem_of_position_le apart all bound, confirmed⟩
  · have behind := acc.reported_lt back reporting rising new fresh
    have reaches : c.checkpoint.lsn.offset ≤ x.after.run.ledger.reported.offset := reaches
    omega

/-- Two changes are on the channel, and the first one is received and confirmed: the second is not
acknowledged. -/
theorem sent_in_order_of_two :
    let first : Situation Pglogical.Relations Pglogical.Message := .start .empty 5 2 0 ⟨.zero⟩
    let steps := history first
      [.move .check 0, .move (.take (.ok (commitFrame ⟨10, by decide⟩))) 0, .move .deliver 0,
        .move .check 0, .move (.take (.ok (commitFrame ⟨20, by decide⟩))) 0, .move .deliver 0, .receive,
        .commit ⟨⟨11, by decide⟩, .epoch⟩, .wait 5, .move .check 0]
    (recordEnds steps).Pairwise (· < ·) ∧ Honest steps ∧
      (reports steps).map StatusUpdate.flush = [⟨11, by decide⟩] ∧
        (positions (sent steps)).Pairwise (· ≤ ·) ∧
          ∀ earlier x later u, steps = earlier ++ x :: later → .reported u ∈ x.events →
            ∀ before c after, kept steps = before ++ c :: after → Lsn.zero < c.checkpoint.lsn →
              c.checkpoint.lsn ≤ u.flush → ∃ d ∈ c :: after, d.checkpoint ∈ commits earlier := by
  intro first steps
  have rising : (recordEnds steps).Pairwise (· < ·) := by decide +kernel
  have honest : Honest steps := by decide +kernel
  obtain ⟨s, reach⟩ : ∃ s, Reach first steps s := reach_history _ _
  obtain ⟨-, -, ordered, acknowledged⟩ := reach.sent_in_order
  exact ⟨rising, honest, by decide +kernel, ordered (rising.imp Nat.le_of_lt), acknowledged rising honest⟩

/-- It is not enough that the records begin in order: the first one here ends behind the second, and once
its change is confirmed, the second change is acknowledged although nobody has received it. -/
theorem sent_out_of_order :
    let first : Situation Pglogical.Relations Pglogical.Message := .start .empty 5 2 0 ⟨.zero⟩
    let steps := history first
      [.move .check 0,
        .move (.take (.ok (.copyData (StreamMessage.layout
          (.record ⟨100, by decide⟩ ⟨100, by decide⟩ 0 (0x43 :: List.replicate 19 0)))))) 0,
        .move .deliver 0, .move .check 0, .move (.take (.ok (commitFrame ⟨110, by decide⟩))) 0,
        .move .deliver 0, .receive, .commit ⟨⟨120, by decide⟩, .epoch⟩, .wait 5, .move .check 0]
    (∃ s, Reach first steps s) ∧ Honest steps ∧ (recordStarts steps).Pairwise (· ≤ ·) ∧
      ¬(positions (sent steps)).Pairwise (· ≤ ·) ∧ positions (sent steps) = [120, 111] ∧
        positions (received steps) = [120] ∧
          (reports steps).map StatusUpdate.flush = [⟨120, by decide⟩] :=
  ⟨reach_history _ _, by decide +kernel, by decide +kernel, by decide +kernel, by decide +kernel,
    by decide +kernel, by decide +kernel⟩

end Order

end Feed

end ChangeFeed
