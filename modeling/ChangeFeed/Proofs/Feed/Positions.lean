import ChangeFeed.Pglogical.Frame
import ChangeFeed.Proofs.Feed.Moves

/-!
Where changes come from that are on their way to the consumer. Main statement: no move adds one at
position zero, if the decoder makes no message of an empty record.
-/
namespace ChangeFeed.Feed

/-- Decoders that make no message of an empty record. -/
class DropsEmpty (δ μ : Type) [Decoder δ μ] : Prop where
  decode_nil : ∀ (d : δ) (m : μ), (Decoder.decode d []).1 ≠ .ok (some m)

instance : DropsEmpty Pglogical.Relations Pglogical.Message where
  decode_nil _ _ := by rintro ⟨⟩

variable {δ μ : Type}

/-- The position of the change that a feed has in hand. -/
def Phase.position? : Phase μ → Option Lsn
  | .refreshing l _ _ => some l
  | .offering c => some c.checkpoint.lsn
  | _ => none

namespace Run

/-- The positions of the changes that are on their way to the consumer. -/
def coming (r : Run δ μ) : List Lsn :=
  r.phase.position?.toList ++ r.channel.buffer.map (·.checkpoint.lsn)

/-- No change on its way is at position zero. -/
def Advanced (r : Run δ μ) : Prop := ∀ l ∈ r.coming, l ≠ .zero

theorem coming_start (decoder : δ) (interval : Nat) {channel : Channel μ} (empty : channel.buffer = [])
    (now : Nat) : (start decoder interval channel now).coming = [] := by
  rcases start_eq decoder interval channel now with ⟨_, _, begun⟩ | ⟨_, begun⟩ <;>
    simp [begun, coming, panic, spawn, Phase.position?, empty]

/-- A change that is received was coming, and what is coming after it was coming before. -/
theorem coming_receive {r : Run δ μ} {c : Change μ} (received : r.receive.1 = .change c) :
    c.checkpoint.lsn ∈ r.coming ∧ r.receive.2.coming ⊆ r.coming := by
  unfold receive at received ⊢
  split at received
  · rename_i open'
    rw [if_pos open']
    cases waiting : r.channel.buffer with
    | nil =>
      rw [waiting] at received
      dsimp only at received
      split at received <;> cases received
    | cons d rest =>
      rw [waiting] at received
      cases received
      simp [coming, waiting]
  · cases received

variable [Decoder δ μ] {r r' : Run δ μ} {v : View} {move : Move} {events : List (Event μ)}

/-- A record that has become a message is not empty, so it ends past zero. -/
theorem ne_zero_of_decoded [DropsEmpty δ μ] {start l : Lsn} {data : Bytes} {m : μ} {d : δ}
    (ends : start.advance? data.length = some l)
    (decoded : Decoder.decode r.decoder data = (.ok (some m), d)) : l ≠ .zero := by
  rintro rfl
  have reached := offset_of_advance ends
  have none : data.length = 0 := by
    have zero : Lsn.zero.offset = 0 := rfl
    omega
  rw [List.eq_nil_of_length_eq_zero none] at decoded
  exact DropsEmpty.decode_nil r.decoder m (congrArg Prod.fst decoded)

theorem Takes.position_ne_zero [DropsEmpty δ μ] {now : Nat} {frame : Except Error Frame}
    (takes : Takes r now frame r' events) : ∀ l, r'.phase.position? = some l → l ≠ .zero := by
  intro l here
  cases takes with
  | refresh _ ends decoded _ | forward _ ends decoded _ =>
    cases here
    exact ne_zero_of_decoded ends decoded
  | _ => cases here

theorem Takes.channel {now : Nat} {frame : Except Error Frame} (takes : Takes r now frame r' events) :
    r'.channel = r.channel := by
  cases takes <;> rfl

/-- What comes after a move was coming before, or is past zero. -/
theorem Makes.coming [DropsEmpty δ μ] (makes : Makes r v move r' events) :
    ∀ l ∈ r'.coming, l ∈ r.coming ∨ l ≠ .zero := by
  intro l member
  cases makes with
  | take _ _ takes =>
    rcases List.mem_append.mp member with own | waiting
    · exact .inr (takes.position_ne_zero l (Option.mem_toList.mp own))
    · rw [takes.channel] at waiting
      exact .inl (List.mem_append_right _ waiting)
  | refreshForward phase =>
    left
    unfold Run.coming at member ⊢
    rw [phase]
    exact member
  | deliver phase =>
    left
    simp only [Run.coming, phase, Phase.position?, Option.toList, List.nil_append, List.map_append,
      List.map_cons, List.map_nil, List.mem_append, List.mem_singleton] at member ⊢
    exact member.symm
  | _ => exact .inl (List.mem_append_right _ member)

theorem Advanced.apply [DropsEmpty δ μ] (advanced : r.Advanced) (moved : r.apply v move = some (r', events)) :
    r'.Advanced :=
  fun l member => ((makes_of_apply moved).coming l member).elim (advanced l) id

end Run

end ChangeFeed.Feed
