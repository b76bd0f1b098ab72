import ChangeFeed.Proofs.Surroundings.Calls

/-!
What a call on a connection leaves unsent. Main statement: when a stream has been opened, all that was
written on its connection has been sent.
-/
namespace ChangeFeed.Trial

open Session Wire

variable {μ α β : Type}

/-- A call whose result, if it has one, is as said. -/
def Gives (x : Trial μ α) (Q : α → Prop) : Prop :=
  ∀ w a w', x w = some (a, w') → Q a

namespace Gives

variable {x : Trial μ α} {f : α → Trial μ β} {Q : α → Prop} {R : β → Prop}

theorem pure {a : α} (q : Q a) : Gives (Pure.pure a : Trial μ α) Q := by
  rintro w _ _ ⟨⟩
  exact q

theorem any (x : Trial μ α) : Gives x fun _ => True := fun _ _ _ _ => trivial

theorem bind (first : Gives x Q) (second : ∀ a, Q a → Gives (f a) R) : Gives (x >>= f) R := by
  intro w b w' run
  obtain ⟨a, v, run, run'⟩ := bind_eq_some.mp run
  exact second a (first w a v run) v b w' run'

end Gives

/-- After a success nothing is unsent. -/
def Flushed {ε : Type} (p : Except ε α × Connection Nat) : Prop := ∀ a, p.1 = .ok a → p.2.outbox = []

theorem Flushed.error {ε : Type} {e : ε} {c : Connection Nat} : Flushed ((.error e, c) : Except ε α × _) := nofun

theorem Flushed.ok {ε : Type} {a : α} {c : Connection Nat} (empty : c.outbox = []) :
    Flushed ((.ok a, c) : Except ε α × _) :=
  fun _ _ => empty

theorem flush_gives (c : Connection Nat) :
    Gives (c.flush : Trial μ (Except IoFault Unit × Connection Nat)) Flushed := by
  refine (Gives.any _).bind fun sent _ => ?_
  cases sent with
  | ok => exact .pure (.ok rfl)
  | error => exact .pure .error

theorem fail_ne_ok (a : Await) (e : Error) (x : Outcome) : a.fail e ≠ .ok x := by
  cases a <;> nofun

section Calls

variable {read : Trial μ (Option Arrival)} {c : Connection Nat}

theorem exchange_gives (a : Await) (empty : c.outbox = []) :
    Gives (Connection.exchange read a c) fun
      | .inl p => p.2.outbox = []
      | .inr p => ∀ x, p.1 = some (.ok x) → p.2.outbox = [] := by
  unfold Connection.exchange
  cases advance a c.inbox with
  | done => exact .pure fun _ _ => empty
  | send bytes next inbox =>
    refine (flush_gives _).bind fun p flushed => ?_
    obtain ⟨_ | _, c'⟩ := p
    · exact .pure fun x same => absurd (Option.some.inj same) (fail_ne_ok next _ x)
    · exact .pure (flushed () rfl)
  | starved next inbox =>
    refine (Gives.any read).bind fun arrival _ => ?_
    obtain _ | (_ | (_ | _)) := arrival <;> first | exact .pure empty | exact .pure fun _ _ => empty

theorem converse_gives (hungry : Hungry read) (a : Await) (empty : c.outbox = []) :
    Gives (Connection.converse read a c) fun p => ∀ x, p.1 = some (.ok x) → p.2.outbox = [] := by
  intro w r w' run
  replace run := exchanges_of_converse hungry run
  induction run with
  | @last a c w r w' exchanged => exact exchange_gives a empty w _ w' exchanged
  | @next a b c c' w v r w' exchanged _ ih => exact ih (exchange_gives a empty w _ v exchanged)

theorem run_gives (a : Await) (empty : c.outbox = []) :
    Gives (c.run a : Trial μ (Except Error Outcome × Connection Nat)) Flushed := by
  have hungry : Hungry (some <$> Network.receive c.socket : Trial μ (Option Arrival)) := by
    rw [map_eq_pure_bind]
    exact (receive_hungry c.socket).bind (Q := fun _ => True) fun _ => .pure trivial rfl
  refine (converse_gives hungry a empty).bind fun p own => .pure ?_
  obtain ⟨_ | result, c'⟩ := p
  · exact fun x same => absurd same (fail_ne_ok a _ x)
  · exact fun x same => own x (congrArg some same)

theorem call_gives (c : Connection Nat) (a : Await) :
    Gives (c.call a : Trial μ (Except Error Outcome × Connection Nat)) Flushed := by
  refine (flush_gives c).bind fun p flushed => ?_
  obtain ⟨_ | _, c'⟩ := p
  · exact .pure .error
  · exact run_gives a (flushed () rfl)

theorem command_gives (c : Connection Nat) (text : String) (a : Await) :
    Gives (c.command text a : Trial μ (Except Error Outcome × Connection Nat)) Flushed := by
  unfold Connection.command
  split
  · exact call_gives _ a
  · exact .pure .error

theorem identify_gives (c : Connection Nat) :
    Gives (c.identify : Trial μ (Except Error Identity × Connection Nat)) Flushed := by
  have queried : Gives (c.query identifyCommand : Trial μ (Except Error (List Row) × Connection Nat)) Flushed := by
    unfold Connection.query
    split
    · exact .pure .error
    · refine (command_gives c _ _).bind fun p flushed => .pure ?_
      obtain ⟨_ | x, c'⟩ := p
      · exact .error
      · exact .ok (flushed x rfl)
  refine queried.bind fun p flushed => .pure ?_
  obtain ⟨_ | rows, c'⟩ := p
  · exact .error
  · exact fun _ _ => flushed rows rfl

theorem start_gives (c : Connection Nat) (slot : String) (checkpoint : Checkpoint) :
    Gives (c.start slot checkpoint : Trial μ (Except Error Stream × Connection Nat)) Flushed := by
  refine (identify_gives c).bind fun p _ => ?_
  obtain ⟨_ | server, c'⟩ := p
  · exact .pure .error
  refine Gives.bind (Q := Flushed) ?_ fun p flushed => .pure ?_
  · refine (command_gives c' _ _).bind fun p flushed => ?_
    obtain ⟨_ | x, c'⟩ := p
    · exact .pure .error
    · exact .pure (.ok (flushed x rfl))
  · obtain ⟨_ | x, c'⟩ := p
    · exact .error
    · exact .ok (flushed x rfl)

end Calls

/-- The connection of a stream that has just been opened has nothing unsent. -/
theorem openStream_gives (config : SourceConfig) (c : Connections Nat (Connection Nat)) (checkpoint : Checkpoint) :
    Gives (Source.openStream config c checkpoint :
        Trial μ (Except Error Stream × Connections Nat (Connection Nat)))
      fun p => ∀ stream, p.1 = .ok stream → ∃ r, p.2.replication = some r ∧ r.outbox = [] := by
  refine (Gives.any _).bind fun p _ => ?_
  obtain ⟨_ | _, c'⟩ := p
  · exact .pure nofun
  dsimp only
  split
  · exact .pure nofun
  · rename_i r _
    refine (start_gives r _ _).bind fun p flushed => .pure ?_
    exact fun stream same => ⟨p.2, rfl, flushed stream same⟩

end ChangeFeed.Trial
