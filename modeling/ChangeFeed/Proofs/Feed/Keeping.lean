import ChangeFeed.Proofs.Feed.History

/-!
Where the changes go that are made of records. Main statement: each is on the channel, waits for room
on it, or was given up, and only the last one can have been given up.
-/
namespace ChangeFeed.Feed

variable {δ μ : Type}

/-- The result of the work, once it is over. -/
def Run.outcome? (r : Run δ μ) : Option (Except Error Unit) :=
  match r.phase with
  | .closing result | .releasing result | .publishing result => some result
  | .ended =>
    match r.life.ending with
    | some (.returned result) => some result
    | _ => none
  | _ => none

/-- No more frames are taken, and no change of the frames before is on its way. -/
structure Run.Spent (r : Run δ μ) : Prop where
  idle : r.phase.offered? = none
  settled : ∀ l m ignored, r.phase ≠ .refreshing l m ignored
  finished : r.life.stopRequested = true ∨ r.channel.hasReceiver = false ∧ r.outcome?.isSome

variable [Decoder δ μ]

theorem Run.Makes.offered_stays {r r' : Run δ μ} {v : View} {m : Move} {events : List (Event μ)}
    {c d : Change μ} (makes : Run.Makes r v m r' events) (before : r.phase.offered? = some c)
    (after : r'.phase.offered? = some d) : d = c := by
  cases makes <;> simp_all [Run.conclude, Run.hurry]

theorem Leads.offered_stays {s s' : Situation δ μ} {act : Act} {events : List (Event μ)}
    {c d : Change μ} (leads : Leads s act s' events) (before : s.run.phase.offered? = some c)
    (after : s'.run.phase.offered? = some d) : d = c := by
  cases leads with
  | move h => exact (Run.makes_of_apply h).offered_stays before after
  | receive => simp_all [Run.receive_snd]
  | _ => simp_all [Run.dropReceiver, Run.requestStop]

theorem Leads.refreshing_origin {s s' : Situation δ μ} {act : Act} {events : List (Event μ)} {l : Lsn}
    {m : μ} {ignored : Bool} (leads : Leads s act s' events)
    (unread : Step.frame? ⟨s, act, events, s'⟩ = none)
    (waiting : s'.run.phase = .refreshing l m ignored) : s.run.phase = .refreshing l m ignored := by
  cases leads with
  | move h =>
    cases Run.makes_of_apply h with
    | take _ _ takes => cases takes <;> simp_all [Step.frame?, Run.conclude]
    | _ => simp_all [Run.conclude, Run.hurry, Run.panic, Run.skip, Run.forward]
  | receive => rw [Run.receive_snd] at waiting; exact waiting
  | _ => exact waiting

/-- Whatever waits for the consumer, or for room, was made of a record. -/
theorem Reach.buffer_kept {first s : Situation δ μ} {steps : List (Step δ μ)}
    (reach : Reach first steps s) (empty : first.run.channel.buffer = [])
    (idle : first.run.phase.offered? = none) :
    (∀ c ∈ s.run.channel.buffer, c ∈ kept steps) ∧
      ∀ c, s.run.phase.offered? = some c → c ∈ kept steps := by
  induction reach with
  | start => exact ⟨by simp [empty], by rw [idle]; simp⟩
  | @next steps s act s' events previous leads ih =>
    obtain ⟨buffered, offered⟩ := ih
    have keep : ∀ {c}, c ∈ kept steps → c ∈ kept (steps ++ [⟨s, act, events, s'⟩]) :=
      fun member => by simp [member]
    constructor
    · intro c member
      cases leads with
      | move h =>
        cases Run.makes_of_apply h with
        | deliver phase =>
          rcases List.mem_append.mp member with old | new
          · exact keep (buffered c old)
          · exact keep (offered c (by simp_all))
        | take _ _ takes => cases takes <;> exact keep (buffered c member)
        | _ => exact keep (buffered c member)
      | receive =>
        simp only [Run.receive_snd] at member
        split at member
        · exact keep (buffered c (List.mem_of_mem_tail member))
        · exact keep (buffered c member)
      | dropReceiver => simp [Run.dropReceiver] at member
      | _ => exact keep (buffered c member)
    · intro c now
      cases earlier : s.run.phase.offered? with
      | some d =>
        cases leads.offered_stays earlier now
        exact keep (offered c earlier)
      | none =>
        have new : Step.kept? ⟨s, act, events, s'⟩ = some c := by rw [Step.kept?, earlier, now]
        simp [kept, new]

/-- The consumer receives nothing but changes that were made of records. -/
theorem Reach.received_kept {first s : Situation δ μ} {steps : List (Step δ μ)}
    (reach : Reach first steps s) (empty : first.run.channel.buffer = [])
    (idle : first.run.phase.offered? = none) : ∀ c ∈ received steps, c ∈ kept steps := by
  induction reach with
  | start => simp [received]
  | @next steps s act s' events previous leads ih =>
    intro c member
    rw [received_append, List.mem_append] at member
    rw [kept_append, List.mem_append]
    rcases member with old | new
    · exact Or.inl (ih c old)
    · left
      cases act <;> simp [received, Step.received?] at new
      split at new
      · rename_i found
        cases new
        obtain ⟨_, rest, buffer⟩ := Run.receive_fst found
        exact (previous.buffer_kept empty idle).1 _ (by simp [buffer])
      · cases new

/-- Where a change comes from: the record of the frame just taken, or one whose refresh has ended. -/
theorem Leads.kept {s s' : Situation δ μ} {act : Act} {events : List (Event μ)} {c : Change μ}
    (leads : Leads s act s' events) (made : Step.kept? ⟨s, act, events, s'⟩ = some c) :
    s'.run.phase = .offering c ∧ s'.run.ledger = s.run.ledger.forward c.checkpoint.lsn ∧
      s'.tracker = s.tracker ∧
        ((∃ frame wallClock, act = .move (.take (.ok frame)) wallClock ∧
            frame.recordEnd? = some c.checkpoint.lsn.offset) ∨
          s.run.phase = .refreshing c.checkpoint.lsn c.message false) := by
  cases leads with
  | move h =>
    cases Run.makes_of_apply h with
    | take phase _ takes =>
      cases takes with
      | @forward frame _ _ l m _ t carries ends _ _ =>
        have own : c = ⟨⟨l, t⟩, m⟩ := by
          rw [Step.kept?, phase] at made; exact (Option.some.inj made).symm
        subst own
        exact ⟨rfl, rfl, rfl, Or.inl ⟨frame, _, rfl, Run.recordEnd_of_advance carries ends⟩⟩
      | _ => rw [Step.kept?_of_after rfl] at made; cases made
    | @refreshForward l m phase =>
      have own : c = ⟨⟨l, s.run.commitTime⟩, m⟩ := by
        rw [Step.kept?, phase] at made; exact (Option.some.inj made).symm
      subst own
      exact ⟨rfl, rfl, rfl, Or.inr phase⟩
    | _ => rw [Step.kept?_of_after rfl] at made; cases made
  | receive => rw [Run.receive_snd, Step.kept?_of_same rfl] at made; cases made
  | _ => rw [Step.kept?_of_same rfl] at made; cases made

/-- A change is made, put on the channel or given up, and meanwhile it waits for room. -/
theorem Leads.account {s s' : Situation δ μ} {act : Act} {events : List (Event μ)}
    (leads : Leads s act s' events) :
    s.run.phase.offered?.toList ++ Feed.kept [⟨s, act, events, s'⟩] =
      sent [⟨s, act, events, s'⟩] ++ dropped [⟨s, act, events, s'⟩] ++ s'.run.phase.offered?.toList := by
  rw [kept_singleton, sent_singleton, dropped_singleton]
  cases leads with
  | move h =>
    cases Run.makes_of_apply h with
    | take phase _ takes =>
      rw [Step.kept?, phase]
      cases takes <;> rfl
    | _ => simp only [Step.kept?, Step.dropped?, *]; rfl
  | receive => rw [Run.receive_snd, Step.kept?_of_same rfl]; simp [Step.dropped?]
  | _ =>
    rw [Step.kept?_of_same rfl]
    simp [Step.dropped?, Run.dropReceiver, Run.requestStop]

theorem Run.Makes.outcome_stays {r r' : Run δ μ} {v : View} {m : Move} {events : List (Event μ)}
    {result : Except Error Unit} (makes : Run.Makes r v m r' events)
    (before : r.outcome? = some result) : r'.outcome? = some result := by
  cases makes <;> simp_all [outcome?, Lifecycle.finish]

theorem Leads.outcome_stays {s s' : Situation δ μ} {act : Act} {events : List (Event μ)}
    {result : Except Error Unit} (leads : Leads s act s' events)
    (before : s.run.outcome? = some result) : s'.run.outcome? = some result := by
  cases leads with
  | move h => exact (Run.makes_of_apply h).outcome_stays before
  | receive => rw [Run.receive_snd]; exact before
  | requestStop =>
    simp only [Run.requestStop, Lifecycle.requestStop]
    split <;> exact before
  | _ => exact before

theorem Leads.stop_stays {s s' : Situation δ μ} {act : Act} {events : List (Event μ)}
    (leads : Leads s act s' events) (before : s.run.life.stopRequested = true) :
    s'.run.life.stopRequested = true := by
  cases leads with
  | move h =>
    cases Run.makes_of_apply h with
    | take _ _ takes => cases takes <;> exact before
    | publish => rfl
    | _ => exact before
  | receive => rw [Run.receive_snd]; exact before
  | requestStop =>
    simp only [Run.requestStop, Lifecycle.requestStop]
    split <;> simp_all [Lifecycle.stopRequested]
  | _ => exact before

theorem Leads.receiver_stays_gone {s s' : Situation δ μ} {act : Act} {events : List (Event μ)}
    (leads : Leads s act s' events) (before : s.run.channel.hasReceiver = false) :
    s'.run.channel.hasReceiver = false := by
  cases leads with
  | move h =>
    cases Run.makes_of_apply h with
    | take _ _ takes => cases takes <;> exact before
    | _ => exact before
  | receive => rw [Run.receive_snd]; exact before
  | dropReceiver => rfl
  | _ => exact before

theorem Leads.spent {s s' : Situation δ μ} {act : Act} {events : List (Event μ)}
    (leads : Leads s act s' events) (spent : s.run.Spent) : s'.run.Spent := by
  obtain ⟨idle, settled, finished⟩ := spent
  have finished' : s'.run.life.stopRequested = true ∨
      s'.run.channel.hasReceiver = false ∧ s'.run.outcome?.isSome := by
    refine finished.imp leads.stop_stays fun ⟨gone, done⟩ => ⟨leads.receiver_stays_gone gone, ?_⟩
    obtain ⟨result, done⟩ := Option.isSome_iff_exists.mp done
    rw [leads.outcome_stays done, Option.isSome_some]
  have quiet : s'.run.phase.offered? = none ∧ ∀ l m ignored, s'.run.phase ≠ .refreshing l m ignored := by
    cases leads with
    | move h =>
      cases Run.makes_of_apply h with
      | take phase running =>
        -- A frame is taken only by a task that nobody has asked to stop and whose work goes on.
        simp [Run.outcome?, phase, running] at finished
      | refreshSkip phase => exact absurd phase (settled _ _ _)
      | refreshForward phase => exact absurd phase (settled _ _ _)
      | _ => exact ⟨rfl, by simp [Run.conclude, Run.hurry, Run.panic]⟩
    | receive => rw [Run.receive_snd]; exact ⟨idle, settled⟩
    | _ => exact ⟨idle, settled⟩
  exact ⟨quiet.1, quiet.2, finished'⟩

theorem Leads.spent_of_dropped {s s' : Situation δ μ} {act : Act} {events : List (Event μ)}
    {c : Change μ} (leads : Leads s act s' events)
    (lost : Step.dropped? ⟨s, act, events, s'⟩ = some c) : s'.run.Spent := by
  cases leads with
  | move h =>
    cases Run.makes_of_apply h with
    | abandon _ _ _ stop => exact ⟨rfl, by simp [Run.hurry], Or.inl stop⟩
    | lose _ gone => exact ⟨rfl, by simp [Run.conclude], Or.inr ⟨gone, rfl⟩⟩
    | _ => cases lost
  | _ => cases lost

/-- Every change made of a record is or was on the channel, or is the one that still waits for room or
was given up; the same holds of one that waited from the start. -/
theorem Reach.account {first s : Situation δ μ} {steps : List (Step δ μ)}
    (reach : Reach first steps s) :
    first.run.phase.offered?.toList ++ Feed.kept steps =
        sent steps ++ dropped steps ++ s.run.phase.offered?.toList ∧
      (dropped steps = [] ∨ (dropped steps).length = 1 ∧ s.run.Spent) := by
  induction reach with
  | start => simp [Feed.kept, sent, events, dropped]
  | @next steps s act s' events previous leads ih =>
    obtain ⟨made, few⟩ := ih
    have account := leads.account
    rw [kept_append, ← List.append_assoc, made, List.append_assoc, account, sent_append, dropped_append]
    rcases few with none | ⟨one, spent⟩
    · refine ⟨by simp [none], ?_⟩
      rw [none, List.nil_append, dropped_singleton]
      cases lost : Step.dropped? ⟨s, act, events, s'⟩ with
      | none => exact Or.inl rfl
      | some c => exact Or.inr ⟨rfl, leads.spent_of_dropped lost⟩
    · have next := leads.spent spent
      rw [spent.idle, next.idle, kept_singleton, Step.kept?_of_after next.idle] at account
      simp only [Option.toList_none, List.append_nil] at account
      obtain ⟨unsent, undropped⟩ := List.append_eq_nil_iff.mp account.symm
      rw [unsent, undropped, next.idle]
      exact ⟨by simp, Or.inr ⟨by simpa using one, next⟩⟩

theorem Reach.kept_eq {first s : Situation δ μ} {steps : List (Step δ μ)}
    (reach : Reach first steps s) (idle : first.run.phase.offered? = none) :
    Feed.kept steps = sent steps ++ dropped steps ++ s.run.phase.offered?.toList := by
  simpa [idle] using reach.account.1

end ChangeFeed.Feed
