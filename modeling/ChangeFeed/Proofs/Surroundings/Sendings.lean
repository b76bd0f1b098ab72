import ChangeFeed.Proofs.Surroundings.Calls

/-!
What is sent in a call, as far as it is told by the notes that the call adds. Main statements: receiving
the next frame of a stream sends nothing, a report sends what was unsent with the update behind it, and
closing sends what was unsent with the goodbye behind it.
-/
namespace ChangeFeed.Trial

open Session Wire

variable {μ α β : Type} {allowed : Bytes → Prop}

/-- A log grows, and nothing is sent meanwhile but what is allowed. -/
def Adds (allowed : Bytes → Prop) (before after : List (Note μ)) : Prop :=
  ∃ notes, after = before ++ notes ∧ ∀ i bytes, .sent i bytes ∈ notes → allowed bytes

theorem Adds.refl (log : List (Note μ)) : Adds allowed log log :=
  ⟨[], (List.append_nil log).symm, nofun⟩

theorem Adds.trans {a b c : List (Note μ)} (first : Adds allowed a b) (second : Adds allowed b c) :
    Adds allowed a c := by
  obtain ⟨notes, rfl, fine⟩ := first
  obtain ⟨notes', rfl, fine'⟩ := second
  refine ⟨notes ++ notes', List.append_assoc .., fun i bytes sent => ?_⟩
  exact (List.mem_append.mp sent).elim (fine i bytes) (fine' i bytes)

theorem Adds.single {log : List (Note μ)} {n : Note μ} (fine : ∀ i bytes, n = .sent i bytes → allowed bytes) :
    Adds allowed log (log ++ [n]) :=
  ⟨[n], rfl, fun i bytes sent => fine i bytes (List.mem_singleton.mp sent).symm⟩

/-- A call that sends nothing but what is allowed, and whose result is as said. -/
def Sends (allowed : Bytes → Prop) (x : Trial μ α) (Q : α → Prop) : Prop :=
  ∀ w a w', x w = some (a, w') → Q a ∧ Adds allowed w.log w'.log

namespace Sends

variable {x : Trial μ α} {f : α → Trial μ β} {Q : α → Prop} {R : β → Prop}

theorem pure {a : α} (q : Q a) : Sends allowed (Pure.pure a : Trial μ α) Q := by
  rintro w _ _ ⟨⟩
  exact ⟨q, .refl _⟩

theorem bind (first : Sends allowed x Q) (second : ∀ a, Q a → Sends allowed (f a) R) :
    Sends allowed (x >>= f) R := by
  intro w b w' run
  obtain ⟨a, v, run, run'⟩ := bind_eq_some.mp run
  obtain ⟨q, adds⟩ := first w a v run
  obtain ⟨r, adds'⟩ := second a q v b w' run'
  exact ⟨r, adds.trans adds'⟩

theorem mono {S : α → Prop} (sends : Sends allowed x Q) (weaker : ∀ a, Q a → S a) : Sends allowed x S :=
  fun w a w' run => (sends w a w' run).imp_left (weaker a)

theorem map {g : α → β} (sends : Sends allowed x Q) (result : ∀ a, Q a → R (g a)) :
    Sends allowed (g <$> x) R := by
  rw [map_eq_pure_bind]
  exact sends.bind fun a q => .pure (result a q)

end Sends

section Requests

theorem sends_ask {answer : Reply → Outside μ → α × Outside μ}
    (answers : ∀ r w, Adds allowed w.log (answer r w).2.log) : Sends allowed (ask answer) fun _ => True := by
  intro w a w' run
  obtain ⟨r, rest, -, same⟩ := ask_eq_some.mp run
  have own := answers r { w with replies := rest, now := w.now + r.duration }
  rw [same] at own
  exact ⟨trivial, own⟩

theorem sends_question (answer : Reply → Outside μ → α) :
    Sends allowed (ask fun r w => (answer r w, w) : Trial μ α) fun _ => True :=
  sends_ask fun _ _ => .refl _

theorem send_sends (i : Nat) {bytes : Bytes} (fine : allowed bytes) :
    Sends allowed (Network.send i bytes : Trial μ (Except IoFault Unit)) fun _ => True := by
  refine sends_ask fun _ _ => .single fun i' bytes' same => ?_
  cases same
  exact fine

theorem shut_sends (i : Nat) :
    Sends allowed (Network.shut i : Trial μ (Except IoFault Unit)) fun _ => True :=
  sends_ask fun _ _ => .single nofun

theorem release_sends (k : Nat) :
    Sends allowed (Control.Database.release k : Trial μ Unit) fun _ => True := by
  rintro w _ _ ⟨⟩
  exact ⟨trivial, .single nofun⟩

theorem record_sends (events : List (Feed.Event μ)) :
    Sends allowed (Feed.Witness.record events : Trial μ Unit) fun _ => True := by
  rintro w _ _ ⟨⟩
  refine ⟨trivial, events.map .seen, rfl, fun i bytes sent => ?_⟩
  obtain ⟨_, -, other⟩ := List.mem_map.mp sent
  cases other

end Requests

section Connection

variable {c : Connection Nat}

/-- What is unsent is sent, or left unsent. -/
theorem flush_sends (fine : allowed c.outbox) :
    Sends allowed (c.flush : Trial μ (Except IoFault Unit × Connection Nat)) fun
      | (.ok _, c') => c'.outbox = []
      | (.error _, c') => c'.outbox = c.outbox := by
  refine (send_sends c.socket fine).bind fun sent _ => ?_
  cases sent <;> exact .pure rfl

variable {read : Trial μ (Option Arrival)}

theorem exchange_sends (reads : Sends allowed read fun _ => True) {a : Await} (listens : a.listens = true) :
    Sends allowed (Connection.exchange read a c) fun
      | .inl p => p.1.listens = true ∧ p.2.outbox = c.outbox
      | .inr p => p.2.outbox = c.outbox := by
  unfold Connection.exchange
  have advances := advances listens c.inbox
  generalize advance a c.inbox = progress at advances
  cases advances with
  | done => exact .pure rfl
  | starved _ listens =>
    refine reads.bind fun arrival _ => ?_
    obtain _ | (_ | (_ | _)) := arrival
    · exact .pure rfl
    · exact .pure rfl
    · exact .pure rfl
    · exact .pure ⟨listens, rfl⟩

theorem converse_sends (reads : Sends allowed read fun _ => True) (hungry : Hungry read) {a : Await}
    (listens : a.listens = true) :
    Sends allowed (Connection.converse read a c) fun p => p.2.outbox = c.outbox := by
  intro w r w' run
  replace run := exchanges_of_converse hungry run
  induction run with
  | @last a c w r w' exchanged => exact exchange_sends reads listens w _ w' exchanged
  | @next a b c c' w v r w' exchanged _ ih =>
    obtain ⟨⟨listens', own⟩, adds⟩ := exchange_sends reads listens w _ v exchanged
    obtain ⟨same, adds'⟩ := ih listens'
    exact ⟨same.trans own, adds.trans adds'⟩

theorem poll_sends : Sends allowed (c.poll : Trial μ (Option (Except Error Frame) × Connection Nat))
    fun p => p.2.outbox = c.outbox :=
  (converse_sends (sends_question fun r _ => r.arrival) (hungry_ask fun _ _ => rfl) rfl).bind fun _ same =>
    .pure same

theorem report_sends {u : StatusUpdate} (fine : allowed (c.outbox ++ Request.copyData u.layout)) :
    Sends allowed (c.report u : Trial μ (Except Error Unit × Connection Nat)) fun
      | (.ok _, c') => c'.outbox = []
      | (.error _, c') => c'.outbox = c.outbox ++ Request.copyData u.layout := by
  refine (flush_sends (c := c.write (Request.copyData u.layout)) fine).bind fun p own => ?_
  obtain ⟨_ | _, c'⟩ := p <;> exact .pure own

theorem close_sends
    (fine : allowed (c.outbox ++ (if c.streaming then Request.copyDone else []) ++ Request.terminate)) :
    Sends allowed (c.close : Trial μ (Except Error Unit × Connection Nat)) fun _ => True := by
  unfold Connection.close
  split
  · exact .pure trivial
  · refine (flush_sends ?_).bind fun _ _ => (shut_sends _).bind fun _ _ => .pure trivial
    cases streaming : c.streaming <;> simpa [streaming, Connection.write] using fine

end Connection

theorem close_both_sends {c : Connections Nat (Connection Nat)}
    (fine : ∀ r ∈ c.replication, allowed
      (r.outbox ++ (if r.streaming then Request.copyDone else []) ++ Request.terminate)) :
    Sends allowed (c.close : Trial μ (Connections Nat (Connection Nat))) fun c' => c' = .empty := by
  have close {r : Connection Nat} (here : r ∈ c.replication) :
      Sends allowed (r.close : Trial μ (Except Error Unit × Connection Nat)) fun _ => True :=
    close_sends (fine r here)
  obtain ⟨_ | k, _ | r⟩ := c
  · exact .pure rfl
  · exact (close rfl).bind fun _ _ => .pure rfl
  · exact (release_sends k).bind fun _ _ => .pure rfl
  · exact (close rfl).bind fun _ _ => (release_sends k).bind fun _ _ => .pure rfl

end ChangeFeed.Trial
