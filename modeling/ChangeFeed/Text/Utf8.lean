import ChangeFeed.Bytes
import ChangeFeed.Error

/-!
UTF-8, read one character at a time. Bytes that begin no character are taken in the longest part
that could begin one, so a lossy reading shows one replacement character for each such part.
-/
namespace ChangeFeed.Text.Utf8

/-- What a lead byte announces: how many bytes follow it, its own share of the code point, and the
range of the first byte that follows. -/
structure Lead where
  count : Nat
  bits : Nat
  low : UInt8
  high : UInt8

def lead? (b : UInt8) : Option Lead :=
  if b < 0xC2 then none
  else if b < 0xE0 then some ⟨1, b.toNat - 0xC0, 0x80, 0xBF⟩
  else if b < 0xF0 then
    some ⟨2, b.toNat - 0xE0, if b = 0xE0 then 0xA0 else 0x80, if b = 0xED then 0x9F else 0xBF⟩
  else if b < 0xF5 then
    some ⟨3, b.toNat - 0xF0, if b = 0xF0 then 0x90 else 0x80, if b = 0xF4 then 0x8F else 0xBF⟩
  else none

inductive Head
  | char (c : Char) (size : Nat) (rest : Bytes)
  /-- The first `size` bytes begin no character. -/
  | invalid (size : Nat) (rest : Bytes)
  /-- The text ends inside its first character. -/
  | truncated

/-- Adds `count` following bytes to the code point read from `size` bytes so far. -/
def follow (value size : Nat) : (count : Nat) → (low high : UInt8) → Bytes → Head
  | 0, _, _, rest => .char (Char.ofNat value) size rest
  | _ + 1, _, _, [] => .truncated
  | count + 1, low, high, b :: rest =>
    if low ≤ b ∧ b ≤ high then
      follow (value * 64 + (b.toNat - 0x80)) (size + 1) count 0x80 0xBF rest
    else .invalid size (b :: rest)

def head (b : UInt8) (rest : Bytes) : Head :=
  if b < 0x80 then .char (Char.ofNat b.toNat) 1 rest
  else match lead? b with
    | some l => follow l.bits 1 l.count l.low l.high rest
    | none => .invalid 1 rest

/-- The bytes after the head. -/
def Head.rest : Head → Bytes
  | .char _ _ rest => rest
  | .invalid _ rest => rest
  | .truncated => []

theorem length_rest_follow (value size count : Nat) (low high : UInt8) (bs : Bytes) :
    (follow value size count low high bs).rest.length ≤ bs.length := by
  induction count generalizing value size low high bs with
  | zero => simp [follow, Head.rest]
  | succ count ih =>
    cases bs with
    | nil => simp [follow, Head.rest]
    | cons b bs =>
      rw [follow]
      split
      · exact Nat.le_succ_of_le (ih ..)
      · simp [Head.rest]

theorem length_rest_head (b : UInt8) (rest : Bytes) : (head b rest).rest.length ≤ rest.length := by
  unfold head
  split
  · simp [Head.rest]
  · split
    · exact length_rest_follow ..
    · simp [Head.rest]

/-- The characters of a text; each part that begins no character reads as U+FFFD. -/
def lossy : Bytes → List Char
  | [] => []
  | b :: bs =>
    let c := match head b bs with
      | .char c _ _ => c
      | _ => '\uFFFD'
    c :: lossy (head b bs).rest
termination_by bs => bs.length
decreasing_by exact Nat.lt_succ_of_le (length_rest_head b bs)

def lossyString (bs : Bytes) : String :=
  String.ofList (lossy bs)

/-- The characters of a text that begins at byte `start`, or the first fault in it. -/
def decodeFrom (start : Nat) : Bytes → Except Utf8Fault (List Char)
  | [] => .ok []
  | b :: bs =>
    match _h : head b bs with
    | .char c size rest => (decodeFrom (start + size) rest).map (c :: ·)
    | .invalid size _ => .error ⟨start, some size⟩
    | .truncated => .error ⟨start, none⟩
termination_by bs => bs.length
decreasing_by
  have := length_rest_head b bs
  rw [_h] at this
  exact Nat.lt_succ_of_le this

def decode (bs : Bytes) : Except Utf8Fault String :=
  (decodeFrom 0 bs).map String.ofList

end ChangeFeed.Text.Utf8
