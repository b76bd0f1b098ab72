import ChangeFeed.Pglogical.Frame
import ChangeFeed.Proofs.Surroundings.Calls

/-!
Conversations worked out. Main statement: among surroundings with so many replies left, a conversation
takes no more turns than that, so it is a recursion on their number. Among surroundings in which all
goes well, whole runs can be worked out with it.
-/
namespace ChangeFeed.Trial

open Session

variable {μ : Type}

/-- A conversation of at most so many turns. -/
def talk (read : Trial μ (Option Arrival)) :
    Nat → Await → Connection Nat → Trial μ (Option (Except Error Outcome) × Connection Nat)
  | 0, _, _ => failure
  | n + 1, a, c => do
    match ← Connection.exchange read a c with
    | .inl (a, c) => talk read n a c
    | .inr result => return result

theorem converse_eq_talk {read : Trial μ (Option Arrival)} (hungry : Hungry read) {n : Nat} (a : Await)
    (c : Connection Nat) {w : Outside μ} (many : w.replies.length < n) :
    Connection.converse read a c w = talk read n a c w := by
  induction n generalizing a c w with
  | zero => omega
  | succ n ih =>
    rw [Connection.converse_eq, talk]
    change ((Connection.exchange read a c) w).bind _ = ((Connection.exchange read a c) w).bind _
    cases exchanged : Connection.exchange read a c w with
    | none => rfl
    | some p =>
      obtain ⟨x, u⟩ := p
      cases x with
      | inr result => rfl
      | inl next =>
        have fewer : u.replies.length < w.replies.length := exchange_hungry hungry exchanged
        exact ih next.1 next.2 (by omega)

/-- As many turns as there are replies. -/
def talkOut (read : Trial μ (Option Arrival)) (a : Await) (c : Connection Nat) :
    Trial μ (Option (Except Error Outcome) × Connection Nat) :=
  fun w => talk read (w.replies.length + 1) a c w

theorem run_eq_talkOut (a : Await) (c : Connection Nat) :
    (c.run a : Trial μ (Except Error Outcome × Connection Nat)) = do
      let (result, c) ← talkOut (some <$> Network.receive c.socket) a c
      return (result.getD a.ending, c) := by
  have hungry : Hungry (some <$> Network.receive c.socket : Trial μ (Option Arrival)) := by
    rw [map_eq_pure_bind]
    exact (receive_hungry c.socket).bind (Q := fun _ => True) fun _ => .pure trivial rfl
  unfold Connection.run
  congr 1
  funext w
  exact converse_eq_talk hungry a c (Nat.lt_succ_self _)

/-- The transport of a replication connection, worked out. -/
@[reducible]
def talkingTransport : Transport (Trial μ) (Connection Nat) where
  poll c := do
    let (result, c) ← talkOut (Network.poll c.socket) .frame c
    return (result.map Connection.asFrame, c)
  report := Connection.report
  close := Connection.close

theorem transport_eq_talking :
    (instTransportConnectionOfMonadOfNetwork : Transport (Trial μ) (Connection Nat)) = talkingTransport := by
  unfold instTransportConnectionOfMonadOfNetwork talkingTransport
  congr 1
  funext c
  unfold Connection.poll
  congr 1
  funext w
  exact converse_eq_talk (hungry_ask fun _ _ => rfl) .frame c (Nat.lt_succ_self _)

/-- What a server says that asks for no password, is at position 5 and streams one record, which begins
at position 100. -/
def serverSpeech : Bytes :=
  let message := Wire.Request.frame
  let column (name : String) := Bytes.ofString name ++ List.replicate 19 0
  let columns := Bytes.ofNat 2 3 ++ column "systemid" ++ column "timeline" ++ column "xlogpos"
  let values := Bytes.ofNat 2 3 ++ (["7", "1", "0/5"].map (Wire.Request.sized ∘ Bytes.ofString)).flatten
  let record := StreamMessage.record ⟨100, by decide⟩ .zero 0 [0x43]
  message 'R' [0, 0, 0, 0] ++ message 'Z' [0x49] ++ message 'T' columns ++ message 'D' values ++
    message 'Z' [0x49] ++ message 'W' [0, 0, 0] ++ message 'd' record.layout ++ message 'c' []

/-- Surroundings in which all goes well. -/
def obliging (v : Volume) : Outside Pglogical.Message where
  replies := List.replicate 60 {
    duration := 0, wallClock := 0, reach := .done (), login := .done (), rows := .ok [], refresh := .ok ()
    dial := .ok (), send := .ok (), arrival := some (.ok (some serverSpeech)), shut := .ok (), nonce := "n"
    line := none, flush := .ok (), interrupted := false, file := none }
  now := 0
  volume := v
  log := []

end ChangeFeed.Trial
