import ChangeFeed.Wire.Message
import ChangeFeed.Wire.Request
import Mathlib.Algebra.Group.Nat.Defs
import Mathlib.Data.Int.Init
import Mathlib.Tactic.Common

/-!
Frames in a string of bytes. Main statements: bytes that follow a complete message make no
difference to it, a frame is read as a whole whatever its body holds, and nothing is read of an
incomplete one.
-/
namespace ChangeFeed

theorem Bytes.splitAt?_append {n : Nat} {x p q : Bytes} (h : splitAt? n x = some (p, q))
    (y : Bytes) : splitAt? n (x ++ y) = some (p, q ++ y) := by
  unfold splitAt? at h
  split at h
  · rename_i enough
    cases h
    have more : n ≤ (x ++ y).length := by rw [List.length_append]; omega
    rw [splitAt?, if_pos more, List.take_append_of_le_length enough,
      List.drop_append_of_le_length enough]
  · cases h

theorem Bytes.splitAt?_of_length {n : Nat} {x : Bytes} (y : Bytes) (h : x.length = n) :
    splitAt? n (x ++ y) = some (x, y) := by
  have enough : n ≤ (x ++ y).length := by rw [List.length_append]; omega
  rw [splitAt?, if_pos enough, ← h, List.take_left, List.drop_left]

theorem Bytes.splitAt?_of_short {n : Nat} {x : Bytes} (h : x.length < n) : splitAt? n x = none := by
  rw [splitAt?, if_neg (by omega)]

namespace Wire

open Reader

/-- What a whole frame says. -/
def message (tag : UInt8) (bytes : Bytes) : Except ProtocolFault Message :=
  if tag = copyBothTag then .ok .copyBoth else ((body tag).whole bytes).mapError .message

/-- The length that a frame has in its head, and whether it is too small to be one. -/
theorem next?_cons (tag a b c d : UInt8) (bs : Bytes) :
    next? (tag :: a :: b :: c :: d :: bs) =
      if tag = copyBothTag then
        if Bytes.toInt [a, b, c, d] < 4 then
          some (.error (.copyBothLength (Bytes.toInt [a, b, c, d])), tag :: a :: b :: c :: d :: bs)
        else (frameBody? (Bytes.toInt [a, b, c, d]).toNat bs).map fun p => (message tag p.1, p.2)
      else if Bytes.toNat [a, b, c, d] < 4 then
        some (.error (.message .shortLength), tag :: a :: b :: c :: d :: bs)
      else (frameBody? (Bytes.toNat [a, b, c, d]) bs).map fun p => (message tag p.1, p.2) := by
  by_cases start : tag = copyBothTag <;> simp [next?, message, start]

theorem next?_of_short {bs : Bytes} (h : bs.length < 5) : next? bs = none := by
  unfold next?
  split
  · simp only [List.length_cons] at h
    omega
  · rfl

theorem map_frameBody?_append {α : Type} {length : Nat} {bs rest : Bytes} {f : Bytes → α} {a : α}
    (h : (frameBody? length bs).map (fun p => (f p.1, p.2)) = some (a, rest)) (more : Bytes) :
    (frameBody? length (bs ++ more)).map (fun p => (f p.1, p.2)) = some (a, rest ++ more) := by
  obtain ⟨⟨p, q⟩, split, same⟩ := Option.map_eq_some_iff.mp h
  cases same
  rw [frameBody?, Bytes.splitAt?_append split]
  rfl

/-- A message that has arrived stays the same whatever arrives after it. -/
theorem next?_append {bs rest : Bytes} {r : Except ProtocolFault Message}
    (h : next? bs = some (r, rest)) (more : Bytes) :
    next? (bs ++ more) = some (r, rest ++ more) := by
  match bs with
  | [] | [_] | [_, _] | [_, _, _] | [_, _, _, _] => rw [next?_of_short (by simp)] at h; cases h
  | tag :: a :: b :: c :: d :: bs =>
    rw [next?_cons] at h
    simp only [List.cons_append, next?_cons]
    split at h
    · rename_i start
      rw [if_pos start]
      split at h
      · rename_i short; cases h; rw [if_pos short]; rfl
      · rename_i long; rw [if_neg long]; exact map_frameBody?_append h more
    · rename_i other
      rw [if_neg other]
      split at h
      · rename_i short; cases h; rw [if_pos short]; rfl
      · rename_i long; rw [if_neg long]; exact map_frameBody?_append h more

/-- Readers of messages that do not start a stream. -/
def Plain (r : Reader Message) : Prop := ∀ bs rest, r bs ≠ .ok (.copyBoth, rest)

theorem Plain.always {m : Message} (h : m ≠ .copyBoth) : Plain (always m) := by
  intro bs rest same
  exact h (congrArg Prod.fst (Except.ok.inj same))

theorem Plain.map {α : Type} {f : α → Message} (h : ∀ a, f a ≠ .copyBoth) (r : Reader α) :
    Plain (r.map f) := by
  intro bs rest same
  unfold Reader.map at same
  cases read : r bs with
  | error => rw [read] at same; cases same
  | ok p =>
    rw [read] at same
    exact h p.1 (congrArg Prod.fst (Except.ok.inj same))

theorem Plain.bind {α : Type} {s : α → Reader Message} (h : ∀ a, Plain (s a)) (r : Reader α) :
    Plain fun bs => r bs >>= fun p => s p.1 p.2 := by
  intro bs rest same
  cases read : r bs with
  | error => dsimp only at same; rw [read] at same; cases same
  | ok p => dsimp only at same; rw [read] at same; exact h p.1 p.2 rest same

theorem Plain.after {α : Type} {s : Reader Message} (h : Plain s) (r : Reader α) :
    Plain (Reader.after r s) := .bind (fun _ => h) r

theorem Plain.error {fault : MessageFault} : Plain fun _ => .error fault := by
  intro bs rest same
  cases same

theorem plain_loginBody (kind : Int) : Plain (loginBody kind) := by
  unfold loginBody
  repeat' split
  all_goals first | exact .always (by simp) | exact .map (by simp) _ | exact .error

theorem plain_body (tag : UInt8) : Plain (body tag) := by
  unfold body
  split
  · exact .bind plain_loginBody _
  case h_4 | h_5 => exact .bind (fun count => .map (f := fun bs => _) (by simp) _) _
  all_goals first
    | exact .always (by simp) | exact .map (by simp) _ | exact .error
    | exact .after (.map (by simp) _) _
    | exact .after (.after (.map (by simp) _) _) _

/-- Only a frame with the tag for it says that a stream starts. -/
theorem message_eq_copyBoth {tag : UInt8} {bytes : Bytes} :
    message tag bytes = .ok .copyBoth ↔ tag = copyBothTag := by
  rw [message]
  split
  · rename_i start; simp [start]
  · rename_i other
    refine ⟨fun same => ?_, fun start => absurd start other⟩
    cases read : body tag bytes with
    | error => simp [Reader.whole, read, bind, Except.bind, Except.mapError] at same
    | ok p =>
      obtain ⟨m, left⟩ := p
      cases left with
      | nil =>
        simp [Reader.whole, read, bind, Except.bind, pure, Except.pure, Except.mapError] at same
        exact absurd (same ▸ read) (plain_body tag bytes [])
      | cons => simp [Reader.whole, read, bind, Except.bind, Except.mapError] at same

theorem toNat_length {n : Nat} (range : n < 2 ^ 31) : Bytes.toNat (Bytes.ofNat 4 n) = n := by
  rw [Bytes.toNat_ofNat]
  exact Nat.mod_eq_of_lt (Nat.lt_trans range (by decide))

theorem toInt_length {n : Nat} (range : n < 2 ^ 31) : Bytes.toInt (Bytes.ofNat 4 n) = n := by
  rw [Bytes.toInt, toNat_length range, Bytes.length_ofNat]
  refine Int.bmod_eq_of_le ?_ ?_ <;> simp only [Bytes.values] <;> omega

/-- A frame is found by its length alone: its body may hold anything. -/
theorem next?_of_head (tag : UInt8) (bs : Bytes) {n : Nat} (range : n + 4 < 2 ^ 31) :
    next? (tag :: Bytes.ofNat 4 (n + 4) ++ bs) =
      (Bytes.splitAt? n bs).map fun p => (message tag p.1, p.2) := by
  obtain ⟨a, b, c, d, head⟩ : ∃ a b c d, Bytes.ofNat 4 (n + 4) = [a, b, c, d] := ⟨_, _, _, _, rfl⟩
  have length := toNat_length range
  have signed := toInt_length range
  rw [head] at length signed ⊢
  simp only [List.cons_append, List.nil_append, next?_cons, length, signed, frameBody?]
  rw [if_neg (by omega : ¬ ((n + 4 : Nat) : Int) < 4), if_neg (by omega : ¬ n + 4 < 4),
    Int.toNat_natCast, Nat.add_sub_cancel, ite_self]

theorem next?_frame (tag : Char) (bytes rest : Bytes) (range : bytes.length + 4 < 2 ^ 31) :
    next? (Request.frame tag bytes ++ rest) =
      some (message (UInt8.ofNat tag.toNat) bytes, rest) := by
  rw [Request.frame, List.append_assoc, next?_of_head _ _ range, Bytes.splitAt?_of_length rest rfl]
  rfl

theorem length_frame (tag : Char) (bytes : Bytes) :
    (Request.frame tag bytes).length = bytes.length + 5 := by
  simp only [Request.frame, List.length_cons, List.length_append, Bytes.length_ofNat]
  omega

theorem next?_take_frame (tag : Char) (bytes : Bytes) (range : bytes.length + 4 < 2 ^ 31) {n : Nat}
    (cut : n < (Request.frame tag bytes).length) :
    next? ((Request.frame tag bytes).take n) = none := by
  rw [length_frame] at cut
  by_cases short : n < 5
  · exact next?_of_short (by rw [List.length_take]; omega)
  · have head : (UInt8.ofNat tag.toNat :: Bytes.ofNat 4 (bytes.length + 4)).length ≤ n := by
      rw [List.length_cons, Bytes.length_ofNat]; omega
    rw [Request.frame, List.take_append, List.take_of_length_le head, next?_of_head _ _ range,
      Bytes.splitAt?_of_short]
    · rfl
    · rw [List.length_cons, Bytes.length_ofNat, List.length_take]
      omega

end Wire

end ChangeFeed
