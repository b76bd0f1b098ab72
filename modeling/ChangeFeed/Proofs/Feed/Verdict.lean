import ChangeFeed.Proofs.Feed.Output
import ChangeFeed.Proofs.Feed.Refreshing

/-!
What the result of a feed tells of its end. Main statement: a feed returns without an error only if it was
asked to stop or its receiver has gone, as long as the transport does not say so itself; and whatever
fails is the result that it returns.
-/
namespace ChangeFeed.Feed

variable {δ μ : Type}

/-- Nobody wants more of the feed: the controller asks it to stop, or the consumer goes away. -/
def Step.dismisses (x : Step δ μ) : Bool :=
  match x.act with
  | .requestStop | .dropReceiver => true
  | _ => false

/-- The task can see that nobody wants more of it. A task that has ended has stopped in any case. -/
def Run.Dismissed (r : Run δ μ) : Prop :=
  r.life.stopRequested = true ∧ r.phase ≠ .ended ∨ r.channel.hasReceiver = false

variable [Decoder δ μ] {first s s' : Situation δ μ} {act : Act} {events : List (Event μ)}
  {steps : List (Step δ μ)}

theorem Leads.dismissed_origin (leads : Leads s act s' events) (dismissed : s'.run.Dismissed) :
    s.run.Dismissed ∨ Step.dismisses ⟨s, act, events, s'⟩ = true := by
  cases leads with
  | requestStop | dropReceiver => exact Or.inr rfl
  | receive => rw [Run.receive_snd] at dismissed; exact Or.inl dismissed
  | move h =>
    refine Or.inl ?_
    cases Run.makes_of_apply h with
    | take phase _ takes =>
      rcases dismissed with ⟨stop, -⟩ | gone
      · exact Or.inl ⟨by cases takes <;> exact stop, by simp [phase]⟩
      · exact Or.inr (by cases takes <;> exact gone)
    | publish => exact dismissed.imp (fun ⟨_, going⟩ => absurd rfl going) id
    | breakOff => exact dismissed.imp (fun ⟨_, going⟩ => absurd rfl going) id
    | _ =>
      rcases dismissed with ⟨stop, -⟩ | gone
      · exact Or.inl ⟨stop, by simp [*]⟩
      · exact Or.inr gone
  | _ => exact Or.inl dismissed

theorem Reach.dismissed_origin (reach : Reach first steps s) (dismissed : s.run.Dismissed) :
    first.run.Dismissed ∨ ∃ x ∈ steps, x.dismisses = true := by
  induction reach with
  | start => exact Or.inl dismissed
  | next _ leads ih =>
    rcases leads.dismissed_origin dismissed with before | now
    · exact (ih before).imp_right fun ⟨x, member, dismisses⟩ =>
        ⟨x, List.mem_append_left _ member, dismisses⟩
    · exact Or.inr ⟨_, List.mem_append_right _ (List.mem_singleton_self _), now⟩

/-- Where it comes from that a task ends its work without an error. -/
theorem Leads.ok_origin (leads : Leads s act s' events) (ok : s'.run.outcome? = some (.ok ())) :
    s.run.outcome? = some (.ok ()) ∨ s.run.Dismissed ∨
      Step.failure? ⟨s, act, events, s'⟩ = some .shutdown := by
  have shutdown {r : Run δ μ} {e : Error} (ok : (r.conclude e).outcome? = some (.ok ())) :
      e = .shutdown := by
    by_contra other
    rw [r.outcome?_conclude other] at ok
    cases ok
  cases leads with
  | move h =>
    cases Run.makes_of_apply h with
    | take _ _ takes =>
      cases takes with
      | lost => cases shutdown ok; exact Or.inr (Or.inr rfl)
      | refused carries => exact absurd (shutdown ok) (Frame.content_ne_shutdown carries)
      | undecoded => exact absurd (shutdown ok) (Run.decodeError_ne_shutdown _)
      | _ => cases ok
    | unreported => cases shutdown ok; exact Or.inr (Or.inr rfl)
    | leave phase stop => exact Or.inr (Or.inl (Or.inl ⟨stop, by simp [phase]⟩))
    | lose _ gone => exact Or.inr (Or.inl (Or.inr gone))
    | close phase | release phase => exact Or.inl (by rw [Run.outcome?, phase]; exact ok)
    | publish phase => exact Or.inl (by rw [Run.outcome?, phase]; exact ok)
    | _ => cases ok
  | receive => rw [Run.receive_snd] at ok; exact Or.inl ok
  | requestStop =>
    simp only [Run.requestStop, Lifecycle.requestStop] at ok
    split at ok <;> exact Or.inl ok
  | _ => exact Or.inl ok

theorem Reach.ok_origin (reach : Reach first steps s) (ok : s.run.outcome? = some (.ok ())) :
    first.run.outcome? = some (.ok ()) ∨ first.run.Dismissed ∨ (∃ x ∈ steps, x.dismisses = true) ∨
      .shutdown ∈ failures steps := by
  induction reach with
  | start => exact Or.inl ok
  | @next steps s act s' events previous leads ih =>
    have more : (∃ x ∈ steps, x.dismisses = true) →
        ∃ x ∈ steps ++ [⟨s, act, events, s'⟩], x.dismisses = true :=
      fun ⟨x, member, dismisses⟩ => ⟨x, List.mem_append_left _ member, dismisses⟩
    rcases leads.ok_origin ok with before | dismissed | transport
    · refine (ih before).imp_right (Or.imp_right (Or.imp more fun transport => ?_))
      rw [failures_append]
      exact List.mem_append_left _ transport
    · exact Or.inr ((previous.dismissed_origin dismissed).imp_right fun here => Or.inl (more here))
    · exact Or.inr (Or.inr (Or.inr (by simp [transport])))

theorem Leads.ended_origin (leads : Leads s act s' events) (ended : s'.run.phase = .ended) :
    s.run.phase = .ended ∧ s'.run.life.ending = s.run.life.ending ∨ s'.run.life.ending.isSome := by
  cases leads with
  | move h =>
    cases Run.makes_of_apply h with
    | take _ _ takes => cases takes <;> cases ended
    | breakOff | publish => exact Or.inr rfl
    | _ => cases ended
  | receive => rw [Run.receive_snd] at *; exact Or.inl ⟨ended, rfl⟩
  | requestStop =>
    refine Or.inl ⟨ended, ?_⟩
    simp only [Run.requestStop, Lifecycle.requestStop]
    split <;> rfl
  | _ => exact Or.inl ⟨ended, rfl⟩

/-- A task that is over has left word of how it ended. -/
theorem Reach.ending_of_ended (reach : Reach first steps s)
    (told : first.run.phase = .ended → first.run.life.ending.isSome) (ended : s.run.phase = .ended) :
    s.run.life.ending.isSome := by
  induction reach with
  | start => exact told ended
  | next _ leads ih =>
    rcases leads.ended_origin ended with ⟨before, same⟩ | now
    · rw [same]; exact ih before
    · exact now

theorem Leads.outcome_of_failure {e : Error} (leads : Leads s act s' events)
    (fails : Step.failure? ⟨s, act, events, s'⟩ = some e) (honest : e ≠ .shutdown) :
    s'.run.outcome? = some (.error e) := by
  cases leads with
  | move h =>
    cases Run.makes_of_apply h with
    | take _ _ takes =>
      cases takes with
      | lost => cases fails; exact Run.outcome?_conclude _ honest
      | _ => cases fails
    | unreported => cases fails; exact Run.outcome?_conclude _ honest
    | _ => cases fails
  | _ => cases fails

theorem Leads.outcome_of_undecoded {data : Bytes} {e : Error} (leads : Leads s act s' events)
    (decoded : .decoded data ∈ events) (fails : (Decoder.decode s.run.decoder data).1 = .error e) :
    s'.run.outcome? = some (.error (Run.decodeError e)) := by
  cases leads with
  | move h =>
    cases Run.makes_of_apply h with
    | take _ _ takes =>
      cases takes with
      | undecoded _ _ decodes =>
        cases List.mem_singleton.mp decoded
        rw [decodes] at fails
        cases fails
        exact Run.outcome?_conclude _ (Run.decodeError_ne_shutdown e)
      | _ => simp_all
    | _ => simp at decoded
  | _ => cases decoded

section Verdict

variable {decoder : δ} {interval capacity now : Nat} {tracker : Tracker}

omit [Decoder δ μ] in
/-- At first nobody has dismissed the task, it has no result, and if it has ended that was told. -/
theorem Situation.start_undismissed (decoder : δ) (interval capacity now : Nat) (tracker : Tracker) :
    let r := (start decoder interval capacity now tracker : Situation δ μ).run
    ¬r.Dismissed ∧ r.outcome? = none ∧ (r.phase = .ended → r.life.ending.isSome) := by
  unfold Situation.start
  rcases Run.start_eq decoder interval ⟨capacity, [], true, true⟩ now with ⟨_, _, begun⟩ | ⟨_, begun⟩ <;>
    rw [begun]
  · exact ⟨by simp [Run.Dismissed, Run.spawn, Lifecycle.started, Lifecycle.stopRequested], rfl, nofun⟩
  · exact ⟨by simp [Run.Dismissed, Run.panic, Run.spawn], rfl, fun _ => rfl⟩

/-- Unless the transport says that the receiver has gone, a task returns without an error only after it was
asked to stop or its receiver was dropped, and a task that ends otherwise hands an error to whoever waits
for it. What the transport, a refresh or the decoder fails with is the result: the first as it is, the
others as failures of their kind, whatever they are. -/
theorem Reach.surfaces_failures (reach : Reach (.start decoder interval capacity now tracker) steps s)
    (honest : .shutdown ∉ failures steps) :
    (s.run.outcome? = some (.ok ()) → ∃ x ∈ steps, x.dismisses = true) ∧
      (s.run.phase = .ended → (∀ x ∈ steps, x.dismisses = false) →
        ∃ ending e, s.run.life.ending = some ending ∧ ending.result = .error e) ∧
      ∀ x ∈ steps, ∀ e,
        (x.failure? = some e → s.run.outcome? = some (.error e)) ∧
        (x.refreshed? = some (.error e) → s.run.outcome? = some (.error (.schemaRefresh e))) ∧
        ∀ data, .decoded data ∈ x.events → (Decoder.decode x.before.run.decoder data).1 = .error e →
          s.run.outcome? = some (.error (Run.decodeError e)) := by
  obtain ⟨undismissed, working, told⟩ :=
    Situation.start_undismissed (μ := μ) decoder interval capacity now tracker
  have origin (ok : s.run.outcome? = some (.ok ())) : ∃ x ∈ steps, x.dismisses = true := by
    rcases reach.ok_origin ok with before | before | dismissed | transport
    · rw [working] at before; cases before
    · exact absurd before undismissed
    · exact dismissed
    · exact absurd transport honest
  refine ⟨origin, fun ended wanted => ?_, fun x member e => ?_⟩
  · obtain ⟨ending, known⟩ := Option.isSome_iff_exists.mp (reach.ending_of_ended told ended)
    cases ending with
    | panicked task message => exact ⟨_, _, known, rfl⟩
    | returned result =>
      cases result with
      | error e => exact ⟨_, e, known, rfl⟩
      | ok =>
        obtain ⟨x, member, dismisses⟩ := origin (by rw [Run.outcome?, ended, known])
        rw [wanted x member] at dismisses
        cases dismisses
  · obtain ⟨earlier, later, rfl⟩ := List.append_of_mem member
    obtain ⟨-, leads, back⟩ := reach.at_step
    -- A result that is there stays to the end.
    have lasts {result : Except Error Unit} (now : x.after.run.outcome? = some result) :
        s.run.outcome? = some result := (back.cleans_up now).2.1
    refine ⟨fun fails => lasts (leads.outcome_of_failure fails ?_), fun fails => lasts ?_,
      fun data decoded fails => lasts (leads.outcome_of_undecoded decoded fails)⟩
    · rintro rfl
      exact honest (List.mem_filterMap.mpr ⟨x, member, fails⟩)
    · rw [Run.outcome?, (leads.unrefreshed fails).2]

/-- The transport fails while nobody has asked for a stop. -/
theorem surfaces_lost_connection :
    let first : Situation Pglogical.Relations Pglogical.Message := .start .empty 5 1 0 ⟨.zero⟩
    let steps := history first
      [.move .check 0, .move (.take (.ok (commitFrame ⟨10, by decide⟩))) 0, .move .deliver 0,
        .move .check 0, .move (.take (.error (.connection .closedByServer))) 0, .move .close 0]
    .shutdown ∉ failures steps ∧ ∃ s, Reach first steps s ∧
      s.run.outcome? = some (.error (.connection .closedByServer)) := by
  intro first steps
  have honest : .shutdown ∉ failures steps := by decide +kernel
  obtain ⟨s, reach⟩ : ∃ s, Reach first steps s := reach_history _ _
  have long : 4 < steps.length := by decide +kernel
  have fails : steps[4]?.bind Step.failure? = some (.connection .closedByServer) := by decide +kernel
  rw [List.getElem?_eq_getElem long] at fails
  obtain ⟨-, -, surfaces⟩ := reach.surfaces_failures honest
  exact ⟨honest, s, reach, (surfaces _ (List.getElem_mem long) _).1 fails⟩

/-- A transport that fails by saying that the receiver has gone ends the task without an error, although
nobody has asked it to stop and its receiver is there. -/
theorem swallows_shutdown :
    let first : Situation Pglogical.Relations Pglogical.Message := .start .empty 5 1 0 ⟨.zero⟩
    let steps := history first
      [.move .check 0, .move (.take (.error .shutdown)) 0, .move .close 0, .move .release 0,
        .move .publish 0]
    (∃ s, Reach first steps s) ∧ (∀ x ∈ steps, x.dismisses = false) ∧
      failures steps = [.shutdown] ∧
        steps.getLast?.map (·.after.run.life.ending matches some (.returned (.ok ()))) = some true :=
  ⟨reach_history _ _, by decide +kernel, by decide +kernel, by decide +kernel⟩

end Verdict

end ChangeFeed.Feed
