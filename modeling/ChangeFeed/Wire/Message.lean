import ChangeFeed.Bytes
import ChangeFeed.Error

/-!
The messages of a server and their frames: a tag, a length that counts itself, and a body. Bodies of
rows, errors and lists of login mechanisms are kept as bytes here; the bodies that carry nothing this
library needs are checked and dropped. Main statement: `length_of_next?`, a message that is read takes
bytes off the stream.
-/
namespace ChangeFeed.Wire

inductive Message
  | loginAccepted
  | cleartextRequest
  | md5Request (salt : Bytes)
  | mechanisms (list : Bytes)
  | saslContinue (data : Bytes)
  | saslFinal (data : Bytes)
  /-- A way to log in that is not supported here. -/
  | otherLogin
  | copyBoth
  | copyData (data : Bytes)
  | copyDone
  | rowDescription (count : Nat) (fields : Bytes)
  | dataRow (count : Nat) (values : Bytes)
  | error (fields : Bytes)
  | notice (fields : Bytes)
  | parameterStatus
  | ready
  /-- A message that carries nothing of interest. -/
  | other
deriving DecidableEq, Repr

/-- Readers of a body take the bytes left of it and leave what they do not read. -/
abbrev Reader (α : Type) := Bytes → Except MessageFault (α × Bytes)

namespace Reader

def fixed (n : Nat) : Reader Bytes := fun bs =>
  match Bytes.splitAt? n bs with
  | some p => .ok p
  | none => .error .shortField

/-- The bytes before the first zero byte, which goes with them. -/
def terminated : Reader Bytes
  | [] => .error .unexpectedEnd
  | b :: bs => if b = 0 then .ok ([], bs) else (terminated bs).map fun p => (b :: p.1, p.2)

def rest : Reader Bytes := fun bs => .ok (bs, [])

/-- Runs a reader that has to take everything. -/
def whole {α : Type} (r : Reader α) (bs : Bytes) : Except MessageFault α := do
  let (a, left) ← r bs
  if left = [] then return a else .error .trailingBytes

def natural (w : Nat) : Reader Nat := fun bs => (fixed w bs).map fun p => (p.1.toNat, p.2)

def integer (w : Nat) : Reader Int := fun bs => (fixed w bs).map fun p => (p.1.toInt, p.2)

/-- Reads in turn and keeps what the last one reads. -/
def after {α β : Type} (r : Reader α) (s : Reader β) : Reader β := fun bs => do
  let (_, bs) ← r bs
  s bs

def always {α : Type} (a : α) : Reader α := fun bs => .ok (a, bs)

def map {α β : Type} (f : α → β) (r : Reader α) : Reader β := fun bs =>
  (r bs).map fun p => (f p.1, p.2)

end Reader

open Reader

/-- The message of a login request, by its kind. -/
def loginBody (kind : Int) : Reader Message :=
  if kind = 0 then always .loginAccepted
  else if kind = 3 then always .cleartextRequest
  else if kind = 5 then (fixed 4).map .md5Request
  else if kind = 10 then rest.map .mechanisms
  else if kind = 11 then rest.map .saslContinue
  else if kind = 12 then rest.map .saslFinal
  else if kind = 8 then rest.map fun _ => .otherLogin
  else if kind = 2 ∨ kind = 6 ∨ kind = 7 ∨ kind = 9 then always .otherLogin
  else fun _ => .error (.unknownAuthentication kind)

/-- What the body of a message is, by its tag. -/
def body (tag : UInt8) : Reader Message :=
  match Char.ofNat tag.toNat with
  | 'R' => fun bs => do
    let (kind, bs) ← integer 4 bs
    loginBody kind bs
  | 'd' => rest.map .copyData
  | 'c' => always .copyDone
  | 'T' => fun bs => do
    let (count, bs) ← natural 2 bs
    rest.map (.rowDescription count) bs
  | 'D' => fun bs => do
    let (count, bs) ← natural 2 bs
    rest.map (.dataRow count) bs
  | 'E' => rest.map .error
  | 'N' => rest.map .notice
  | 'S' => after terminated (terminated.map fun _ => .parameterStatus)
  | 'Z' => (fixed 1).map fun _ => .ready
  | 'A' => after (fixed 4) (after terminated (terminated.map fun _ => .other))
  | 'C' => terminated.map fun _ => .other
  | 'G' | 'H' => after (fixed 1) (after (fixed 2) (rest.map fun _ => .other))
  | 'K' => (fixed 8).map fun _ => .other
  | 't' => after (fixed 2) (rest.map fun _ => .other)
  | '1' | '2' | '3' | 'I' | 'n' | 's' => always .other
  | _ => fun _ => .error (.unknownTag tag)

def copyBothTag : UInt8 := 0x57

/-- The bytes of a frame after its length, once they are all there, and the bytes after the frame. -/
def frameBody? (length : Nat) (bs : Bytes) : Option (Bytes × Bytes) := Bytes.splitAt? (length - 4) bs

/-- The first message of a stream and the bytes after it, once it is complete. A length below four
takes nothing off the stream; any other message goes, also a malformed one. -/
def next? : Bytes → Option (Except ProtocolFault Message × Bytes)
  | tag :: a :: b :: c :: d :: bs =>
    if tag = copyBothTag then
      let length := Bytes.toInt [a, b, c, d]
      if length < 4 then some (.error (.copyBothLength length), tag :: a :: b :: c :: d :: bs)
      else (frameBody? length.toNat bs).map fun p => (.ok .copyBoth, p.2)
    else
      let length := Bytes.toNat [a, b, c, d]
      if length < 4 then some (.error (.message .shortLength), tag :: a :: b :: c :: d :: bs)
      else (frameBody? length bs).map fun p => (((body tag).whole p.1).mapError .message, p.2)
  | _ => none

theorem length_of_frameBody? {length : Nat} {bs p q : Bytes} (h : frameBody? length bs = some (p, q)) :
    q.length ≤ bs.length := by
  simp only [frameBody?, Bytes.splitAt?, Option.ite_none_right_eq_some, Option.some.injEq,
    Prod.mk.injEq] at h
  rw [← h.2.2, List.length_drop]
  omega

theorem length_of_next? {bs rest : Bytes} {m : Message} (h : next? bs = some (.ok m, rest)) :
    rest.length < bs.length := by
  unfold next? at h
  split at h
  · rename_i tag a b c d tail
    simp only at h
    have key : ∀ p q, (q : Bytes).length ≤ tail.length → (p, q) = ((.ok m, rest) :
        Except ProtocolFault Message × Bytes) → rest.length <
          (tag :: a :: b :: c :: d :: tail).length := by
      rintro p q hq heq
      injection heq with _ heq
      subst heq
      simp only [List.length_cons]
      omega
    split at h
    · split at h
      · simp at h
      · obtain ⟨p, hp, h⟩ := Option.map_eq_some_iff.mp h
        exact key _ _ (length_of_frameBody? hp) h
    · split at h
      · simp at h
      · obtain ⟨p, hp, h⟩ := Option.map_eq_some_iff.mp h
        exact key _ _ (length_of_frameBody? hp) h
  · simp at h

end ChangeFeed.Wire
