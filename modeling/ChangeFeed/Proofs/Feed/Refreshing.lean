import ChangeFeed.Proofs.Feed.Stopping
import ChangeFeed.Rehearsal.TextDecoder

/-!
Loading metadata anew. Main statements: this comes right after each message that asks for it and at
no other time; until it is over the message is neither sent nor skipped and nothing else is decoded;
and if it fails, the task ends with this failure and nothing more is decoded, sent or reported.
-/
namespace ChangeFeed.Feed

variable {δ μ : Type}

section Order

variable [Decoder δ μ] {decoder : δ} {a b : List (Event μ)}

/-- What an event makes of the decoder, a refresh when it has come to its end. -/
def Event.alter (decoder : δ) : Event μ → δ
  | .decoded data => (Decoder.decode decoder data).2
  | .refreshed => Decoder.refreshed decoder
  | _ => decoder

/-- The decoder after everything that was decoded and loaded. -/
def decoderAfter (decoder : δ) (seen : List (Event μ)) : δ := seen.foldl Event.alter decoder

/-- The decoder of a task when the refresh that it may be waiting for has come to its end. -/
def Run.awaited (r : Run δ μ) : δ :=
  match r.phase with
  | .refreshing _ _ _ => Decoder.refreshed r.decoder
  | _ => r.decoder

/-- Decoding gives a message after which the metadata has to be loaded anew. -/
def Alters (d : δ) (data : Bytes) : Prop :=
  ∃ m ignored, (Decoder.decode d data).1 = .ok (some m) ∧ Decoder.classOf δ m = .change ignored true

/-- A refresh is the very next event after each message that asks for it, and there is no other. -/
structure Heralded (decoder : δ) (seen : List (Event μ)) : Prop where
  next : ∀ earlier data later, seen = earlier ++ .decoded data :: later →
    (later.head? = some .refreshed ↔ Alters (decoderAfter decoder earlier) data)
  origin : ∀ earlier later, seen = earlier ++ .refreshed :: later →
    ∃ before data, earlier = before ++ [.decoded data]

theorem decoderAfter_append :
    decoderAfter decoder (a ++ b) = decoderAfter (decoderAfter decoder a) b := by
  simp [decoderAfter]

@[simp] theorem decoderAfter_nil : decoderAfter decoder ([] : List (Event μ)) = decoder := rfl

@[simp] theorem decoderAfter_decoded {data : Bytes} :
    decoderAfter decoder (.decoded data :: a) = decoderAfter (Decoder.decode decoder data).2 a :=
  rfl

@[simp] theorem decoderAfter_refreshed :
    decoderAfter decoder (.refreshed :: a) = decoderAfter (Decoder.refreshed decoder) a := rfl

omit [Decoder δ μ] in
/-- An event of a whole is one of its first or one of its second part. -/
theorem split_of_append {earlier later : List (Event μ)} {e : Event μ}
    (whole : a ++ b = earlier ++ e :: later) :
    (∃ middle, earlier = a ++ middle ∧ b = middle ++ e :: later) ∨
      ∃ middle, a = earlier ++ e :: middle ∧ later = middle ++ b := by
  rcases List.append_eq_append_iff.mp whole with ⟨middle, front, back⟩ | ⟨middle, front, back⟩
  · exact Or.inl ⟨middle, front, back⟩
  · cases middle with
    | nil => exact Or.inl ⟨[], by simpa using front.symm, back.symm⟩
    | cons first middle =>
      obtain ⟨rfl, rest⟩ := List.cons.inj back
      exact Or.inr ⟨middle, front, rest⟩

omit [Decoder δ μ] in
theorem split_of_singleton {earlier later : List (Event μ)} {d e : Event μ}
    (whole : [d] = earlier ++ e :: later) : earlier = [] ∧ e = d ∧ later = [] := by
  cases earlier with
  | nil => exact ⟨rfl, (List.cons.inj whole).1.symm, (List.cons.inj whole).2.symm⟩
  | cons => simp at whole

namespace Heralded

theorem append (front : Heralded decoder a) (back : Heralded (decoderAfter decoder a) b)
    (fresh : b.head? ≠ some .refreshed) : Heralded decoder (a ++ b) := by
  constructor
  · intro earlier data later whole
    rcases split_of_append whole with ⟨middle, rfl, rest⟩ | ⟨middle, rfl, rfl⟩
    · rw [decoderAfter_append]
      exact back.next middle data later rest
    · rw [← front.next earlier data middle rfl]
      cases middle with
      | nil => simpa using fresh
      | cons => rfl
  · intro earlier later whole
    rcases split_of_append whole with ⟨middle, rfl, rest⟩ | ⟨middle, rfl, rfl⟩
    · obtain ⟨before, data, rfl⟩ := back.origin middle later rest
      exact ⟨a ++ before, data, (List.append_assoc ..).symm⟩
    · exact front.origin earlier middle rfl

theorem nil : Heralded decoder ([] : List (Event μ)) := ⟨by simp, by simp⟩

theorem other {e : Event μ} (undecoded : ∀ data, e ≠ .decoded data) (unrefreshed : e ≠ .refreshed) :
    Heralded decoder [e] := by
  constructor
  · intro earlier data later whole
    exact absurd (split_of_singleton whole).2.1.symm (undecoded data)
  · intro earlier later whole
    exact absurd (split_of_singleton whole).2.1.symm unrefreshed

theorem decoded {data : Bytes} (plain : ¬ Alters decoder data) :
    Heralded decoder [.decoded data] := by
  constructor
  · intro earlier other later whole
    obtain ⟨rfl, same, rfl⟩ := split_of_singleton whole
    cases same
    simpa using plain
  · intro earlier later whole
    cases (split_of_singleton whole).2.1

theorem refreshed {data : Bytes} (alters : Alters decoder data) :
    Heralded decoder [.decoded data, .refreshed] := by
  constructor
  · intro earlier other later whole
    cases earlier with
    | nil =>
      cases whole
      simpa using alters
    | cons _ earlier => cases (split_of_singleton (List.cons.inj whole).2).2.1
  · intro earlier later whole
    cases earlier with
    | nil => cases whole
    | cons first earlier =>
      obtain ⟨rfl, rest⟩ := List.cons.inj whole
      obtain ⟨rfl, -, -⟩ := split_of_singleton rest
      exact ⟨[], data, rfl⟩

end Heralded

theorem alters_iff {d d' : δ} {data : Bytes} {outcome : Except Error (Option μ)}
    (gives : Decoder.decode d data = (outcome, d')) :
    Alters d data ↔
      ∃ m ignored, outcome = .ok (some m) ∧ Decoder.classOf δ m = .change ignored true := by
  rw [Alters, gives]

/-- What taking a frame shows, and what it makes of the decoder. -/
theorem Run.Takes.heralded {r r' : Run δ μ} {now : Nat} {frame : Except Error Frame}
    {events : List (Event μ)} (takes : Run.Takes r now frame r' events) :
    Heralded r.decoder events ∧ events.head? ≠ some .refreshed ∧
      r'.awaited = decoderAfter r.decoder events := by
  cases takes with
  | lost | refused | overflow | answer | ignore => exact ⟨.nil, by simp, rfl⟩
  | undecoded _ _ decoded | filter _ _ decoded =>
    exact ⟨.decoded (by simp [alters_iff decoded]), by simp, by simp [decoded]; rfl⟩
  | undated _ _ decoded cls | skip _ _ decoded cls =>
    exact ⟨.decoded (by simp [alters_iff decoded, cls]), by simp, by simp [decoded]; rfl⟩
  | refresh _ _ decoded cls =>
    exact ⟨.refreshed (by simp [alters_iff decoded, cls]), by simp, by simp [decoded]; rfl⟩
  | forward _ _ decoded forwards =>
    refine ⟨.decoded ?_, by simp, by simp [decoded]; rfl⟩
    rw [alters_iff decoded]
    rintro ⟨m, ignored, same, cls⟩
    cases same
    cases forwards <;> simp_all

theorem Leads.heralded {s s' : Situation δ μ} {act : Act} {events : List (Event μ)}
    (leads : Leads s act s' events) (own : s.run.phase.working = true → s.run.awaited = decoder) :
    Heralded decoder events ∧ events.head? ≠ some .refreshed ∧
      (s'.run.phase.working = true → s'.run.awaited = decoderAfter decoder events) := by
  cases leads with
  | move h =>
    cases Run.makes_of_apply h with
    | take phase _ takes =>
      have same : s.run.decoder = decoder := by simpa [Run.awaited, phase, Phase.working] using own
      obtain ⟨heralded, fresh, after⟩ := takes.heralded
      rw [same] at heralded after
      exact ⟨heralded, fresh, fun _ => after⟩
    | due phase | deliver phase =>
      refine ⟨.other (by simp) (by simp), by simp, fun _ => ?_⟩
      simpa [Run.awaited, phase, Phase.working, decoderAfter, Event.alter] using own
    | close => exact ⟨.other (by simp) (by simp), by simp, by rintro ⟨⟩⟩
    | refreshSkip phase | refreshForward phase | early phase | goOn phase | heed phase | expire phase
    | abandon phase =>
      refine ⟨.nil, by simp, fun _ => ?_⟩
      simpa [Run.awaited, phase, Phase.working, Run.skip, Run.forward, Run.hurry] using own
    | _ => exact ⟨.nil, by simp, by rintro ⟨⟩⟩
  | receive => rw [Run.receive_snd]; exact ⟨.nil, by simp, own⟩
  | _ => exact ⟨.nil, by simp, own⟩

theorem Reach.heralded {first s : Situation δ μ} {steps : List (Step δ μ)}
    (reach : Reach first steps s) :
    Heralded first.run.awaited (events steps) ∧
      (s.run.phase.working = true → s.run.awaited = decoderAfter first.run.awaited (events steps)) := by
  induction reach with
  | start => exact ⟨.nil, fun _ => rfl⟩
  | next previous leads ih =>
    obtain ⟨heralded, decoder⟩ := ih
    -- The step decodes with what the decoder has become by all that was decoded and loaded before.
    obtain ⟨back, fresh, decoder'⟩ := leads.heralded decoder
    rw [events_append, decoderAfter_append]
    exact ⟨heralded.append (by simpa [events] using back) (by simpa [events] using fresh),
      by simpa [events] using decoder'⟩

end Order

section Answer

variable [Decoder δ μ] {s s' : Situation δ μ} {act : Act} {events : List (Event μ)}
  {steps : List (Step δ μ)} {l : Lsn} {m : μ} {ignored : Bool} {ledger : Ledger}

omit [Decoder δ μ] in
/-- The refresh for `m` is not over, `steps` being all that has happened since it began: `m` is
neither sent nor skipped, and nothing else is decoded, sent or reported. -/
structure Pending (l : Lsn) (m : μ) (ignored : Bool) (ledger : Ledger) (steps : List (Step δ μ))
    (s : Situation δ μ) : Prop where
  phase : s.run.phase = .refreshing l m ignored
  ledger : s.run.ledger = ledger
  unanswered : refreshes steps = []
  silent : Feed.events steps = []

/-- What the task does once the refresh for `m` is over. -/
def Run.resume (r : Run δ μ) (l : Lsn) (m : μ) (ignored : Bool) : Except Error Unit → Run δ μ
  | .error e => r.conclude (.schemaRefresh e)
  | .ok _ =>
    let r := { r with decoder := Decoder.refreshed r.decoder }
    if ignored then r.skip l else r.forward l m

/-- How far the refresh for `m` has come, `steps` being all that has happened since it began. -/
inductive Refreshing (l : Lsn) (m : μ) (ignored : Bool) (ledger : Ledger) (steps : List (Step δ μ))
    (s : Situation δ μ) : Prop
  | pending : Pending l m ignored ledger steps s → Refreshing l m ignored ledger steps s
  | answered {between y rest outcome} : steps = between ++ y :: rest →
      Pending l m ignored ledger between y.before → y.refreshed? = some outcome → y.events = [] →
      y.after.run = y.before.run.resume l m ignored outcome →
      Refreshing l m ignored ledger steps s

theorem Leads.of_refreshing (leads : Leads s act s' events)
    (phase : s.run.phase = .refreshing l m ignored) : events = [] ∧
      match Step.refreshed? ⟨s, act, events, s'⟩ with
      | some outcome => s'.run = s.run.resume l m ignored outcome
      | none => s'.run.phase = s.run.phase ∧ s'.run.ledger = s.run.ledger := by
  cases leads with
  | move h =>
    cases Run.makes_of_apply h with
    | unrefreshed own => rw [phase] at own; cases own; exact ⟨rfl, rfl⟩
    | refreshSkip own => rw [phase] at own; cases own; exact ⟨rfl, rfl⟩
    | refreshForward own => rw [phase] at own; cases own; exact ⟨rfl, rfl⟩
    | _ => simp_all
  | receive => rw [Run.receive_snd]; exact ⟨rfl, rfl, rfl⟩
  | _ => exact ⟨rfl, rfl, rfl⟩

theorem Refreshing.step (refreshing : Refreshing l m ignored ledger steps s)
    (leads : Leads s act s' events) :
    Refreshing l m ignored ledger (steps ++ [⟨s, act, events, s'⟩]) s' := by
  cases refreshing with
  | pending pending =>
    obtain ⟨silent, next⟩ := leads.of_refreshing pending.phase
    cases answer : Step.refreshed? ⟨s, act, events, s'⟩ with
    | some outcome =>
      rw [answer] at next
      exact .answered rfl pending answer silent next
    | none =>
      rw [answer] at next
      refine .pending ⟨next.1.trans pending.phase, next.2.trans pending.ledger, ?_, ?_⟩
      · rw [refreshes_append, pending.unanswered, refreshes_singleton, answer]; rfl
      · rw [events_append, pending.silent, silent]; rfl
  | answered all pending answer silent next =>
    exact .answered (by rw [all, List.append_assoc, List.cons_append]) pending answer silent next

theorem Reach.refreshing {first : Situation δ μ} (reach : Reach first steps s)
    (phase : first.run.phase = .refreshing l m ignored) :
    Refreshing l m ignored first.run.ledger steps s := by
  induction reach with
  | start => exact .pending ⟨phase, rfl, rfl, rfl⟩
  | next _ leads ih => exact ih.step leads

theorem Leads.refreshing (leads : Leads s act s' events) (refreshed : .refreshed ∈ events) :
    ∃ data d l m ignored, events = [.decoded data, .refreshed] ∧ s.run.phase = .listening ∧
      Decoder.decode s.run.decoder data = (.ok (some m), d) ∧
      Decoder.classOf δ m = .change ignored true ∧
      s'.run = { s.run with decoder := d, phase := .refreshing l m ignored } ∧
      (recordEnds [⟨s, act, events, s'⟩]) = [l.offset] := by
  cases leads with
  | move h =>
    cases Run.makes_of_apply h with
    | take phase _ takes =>
      cases takes with
      | @refresh frame _ _ l m d ignored carries ends decoded cls =>
        refine ⟨_, d, l, m, ignored, rfl, phase, decoded, cls, rfl, ?_⟩
        simp [recordEnds, Step.frame?, Run.recordEnd_of_advance carries ends]
      | _ => simp at refreshed
    | _ => simp at refreshed
  | _ => simp at refreshed

end Answer

section Failure

variable [Decoder δ μ] {s s' : Situation δ μ} {act : Act} {events : List (Event μ)}
  {steps : List (Step δ μ)} {result : Except Error Unit}

theorem Leads.cleans_up (leads : Leads s act s' events) (finished : s.run.outcome? = some result) :
    (∀ e ∈ events, e = .closed) ∧
      [(⟨s, act, events, s'⟩ : Step δ μ)].countP Step.isMove + s'.run.phase.remaining =
        s.run.phase.remaining := by
  cases leads with
  | move h =>
    cases Run.makes_of_apply h with
    | close phase | release phase | publish phase =>
      exact ⟨by simp, by rw [phase]; rfl⟩
    | _ => simp_all [Run.outcome?]
  | receive => rw [Run.receive_snd]; exact ⟨by simp, Nat.zero_add _⟩
  | _ => exact ⟨by simp, Nat.zero_add _⟩

theorem Reach.cleans_up {first : Situation δ μ} (reach : Reach first steps s)
    (finished : first.run.outcome? = some result) :
    (∀ e ∈ Feed.events steps, e = .closed) ∧ s.run.outcome? = some result ∧
      steps.countP Step.isMove + s.run.phase.remaining = first.run.phase.remaining := by
  induction reach with
  | start => exact ⟨by simp [Feed.events], finished, Nat.zero_add _⟩
  | next _ leads ih =>
    obtain ⟨silent, outcome, moves⟩ := ih
    obtain ⟨quiet, move⟩ := leads.cleans_up outcome
    refine ⟨?_, leads.outcome_stays outcome, ?_⟩
    · intro e member
      rw [events_append, List.mem_append] at member
      rcases member with earlier | now
      · exact silent e earlier
      · exact quiet e (by simpa [Feed.events] using now)
    · rw [List.countP_append]
      omega

theorem Leads.unrefreshed {e : Error} (leads : Leads s act s' events)
    (failed : Step.refreshed? ⟨s, act, events, s'⟩ = some (.error e)) :
    events = [] ∧ s'.run.phase = .closing (.error (.schemaRefresh e)) := by
  obtain ⟨wallClock, rfl⟩ := Step.refreshed?_eq_some.mp failed
  cases leads with
  | move h =>
    cases Run.makes_of_apply h with
    | unrefreshed => exact ⟨rfl, by simp [Run.conclude]⟩

end Failure

end ChangeFeed.Feed
