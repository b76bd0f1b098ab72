import ChangeFeed.Proofs.Pglogical.Stream

/-!
The decoder as a cursor that moves over the frame: every byte is taken from what is left, and to take more
than that is the end of everything, told apart from a frame that is refused. Main statement: this never
comes about; the lengths that the decoder asks for in advance cover all that it takes.
-/
namespace ChangeFeed.Pglogical

/-- Reads on from a place in the frame. It comes to nothing if it reads past the end. -/
abbrev Cursor (α : Type) := StateT Bytes (ExceptT DecodeFault Option) α

namespace Cursor

def refuse {α : Type} (fault : DecodeFault) : Cursor α := fun _ => some (.error fault)

/-- Refuses the frame if fewer than `n` bytes are left. -/
def require (n : Nat) (fault : DecodeFault) : Cursor Unit := fun bs =>
  if bs.length < n then some (.error fault) else some (.ok ((), bs))

/-- The next `n` bytes, which have to be there. -/
def take (n : Nat) : Cursor Bytes := fun bs => (Bytes.splitAt? n bs).map .ok

def word (width : Nat) : Cursor Nat := do return Bytes.toNat (← take width)

def name : Cursor String := do
  require 1 .missingName
  let count ← word 1
  require count .truncatedName
  return nameOf (← take count)

def relation : Cursor Relation := do
  require 6 .shortRelation
  let _flags ← word 1
  let id ← word 4
  let schema ← name
  let table ← name
  return ⟨id, schema, table⟩

def begin : Cursor MessageClass := do
  require 21 .shortBegin
  let _flags ← word 1
  let _finalLsn ← word 8
  let commitTime ← word 8
  let _transaction ← word 4
  return .begin commitTime

def rowChange (rs : Relations) : Cursor Relation := do
  require 5 .shortRowChange
  let _flags ← word 1
  let id ← word 4
  match rs.get? id with
  | some r => return r
  | none => refuse (.unknownRelation id)

/-- What a frame of a tag says with the body that the cursor moves over. -/
def body (rs : Relations) (tag : UInt8) (frame : Bytes) : Cursor (Option Message × Relations) :=
  match kindOf tag with
  | .begin => do return (some ⟨tag, ← begin, none, frame⟩, rs)
  | .commit => return (some ⟨tag, .other, none, frame⟩, rs)
  | .row => do
    let r ← rowChange rs
    return (some ⟨tag, classOfRelation r, some r, frame⟩, rs)
  | .relation => do return (none, rs.insert (← relation))
  | .skipped => return (none, rs)
  | .unknown => refuse (.unknownTag tag)

/-- What is read from the bytes, less those that are left. -/
def outcome {α : Type} (x : Cursor α) (bs : Bytes) : Option (Except DecodeFault α) :=
  Option.map (Except.map Prod.fst) (x bs)

def read (rs : Relations) : Bytes → Option (Except DecodeFault (Option Message × Relations))
  | [] => some (.ok (none, rs))
  | tag :: bs => (body rs tag (tag :: bs)).outcome bs

section Steps

variable {α β : Type} {x : Cursor α} {a : α} {bs rest : Bytes} {fault : DecodeFault}

theorem bind_ok (first : x bs = some (.ok (a, rest))) (next : α → Cursor β) :
    (x >>= next) bs = next a rest := by
  show (x bs).bind _ = _
  rw [first]
  rfl

theorem bind_error (first : x bs = some (.error fault)) (next : α → Cursor β) :
    (x >>= next) bs = some (.error fault) := by
  show (x bs).bind _ = _
  rw [first]
  rfl

theorem require_ok {n : Nat} (enough : n ≤ bs.length) : require n fault bs = some (.ok ((), bs)) :=
  if_neg (Nat.not_lt.mpr enough)

theorem require_error {n : Nat} (short : bs.length < n) : require n fault bs = some (.error fault) :=
  if_pos short

theorem take_ok {n : Nat} (enough : n ≤ bs.length) : take n bs = some (.ok (bs.take n, bs.drop n)) := by
  rw [take, Bytes.splitAt?, if_pos enough]
  rfl

example : take 2 [7] = none := rfl

theorem word_ok {n : Nat} (enough : n ≤ bs.length) :
    word n bs = some (.ok (Bytes.toNat (bs.take n), bs.drop n)) := by
  rw [word, bind_ok (take_ok enough)]
  rfl

end Steps

theorem name_eq (bs : Bytes) : name bs = some (readName bs) := by
  match bs with
  | [] => rfl
  | n :: bs =>
    have some : 1 ≤ (n :: bs).length := Nat.succ_le_succ (Nat.zero_le _)
    have count : Bytes.toNat ((n :: bs).take 1) = n.toNat := by simp [Bytes.toNat, Bytes.values]
    rw [name, bind_ok (require_ok some), bind_ok (word_ok some), count, readName]
    change (require n.toNat .truncatedName >>= _) bs = _
    by_cases enough : n.toNat ≤ bs.length
    · rw [bind_ok (require_ok enough), bind_ok (take_ok enough), Bytes.splitAt?, if_pos enough]
      rfl
    · rw [bind_error (require_error (Nat.lt_of_not_le enough)), Bytes.splitAt?, if_neg enough]

theorem relation_eq (bs : Bytes) : relation.outcome bs = some (readRelation bs) := by
  by_cases short : bs.length < 6
  · rw [outcome, relation, bind_error (require_error short), readRelation, if_pos short]
    rfl
  · have flags : 1 ≤ bs.length := by omega
    have number : 4 ≤ (bs.drop 1).length := by rw [List.length_drop]; omega
    rw [outcome, relation, bind_ok (require_ok (Nat.le_of_not_lt short)), bind_ok (word_ok flags),
      bind_ok (word_ok number), readRelation, if_neg short, List.drop_drop]
    cases first : readName (bs.drop 5) with
    | error fault =>
      rw [bind_error ((name_eq _).trans (congrArg some first))]
      rfl
    | ok p =>
      rw [bind_ok ((name_eq _).trans (congrArg some first))]
      cases second : readName p.2 with
      | error fault =>
        rw [bind_error ((name_eq _).trans (congrArg some second))]
        simp only [bind, Except.bind, second]
        rfl
      | ok q =>
        rw [bind_ok ((name_eq _).trans (congrArg some second))]
        simp only [bind, Except.bind, second]
        rfl

theorem begin_eq (bs : Bytes) : begin.outcome bs = some (readBegin bs) := by
  by_cases short : bs.length < 21
  · rw [outcome, begin, bind_error (require_error short), readBegin, if_pos short]
    rfl
  · have flags : 1 ≤ bs.length := by omega
    have final : 8 ≤ (bs.drop 1).length := by rw [List.length_drop]; omega
    have time : 8 ≤ ((bs.drop 1).drop 8).length := by simp only [List.length_drop]; omega
    have transaction : 4 ≤ (((bs.drop 1).drop 8).drop 8).length := by simp only [List.length_drop]; omega
    rw [outcome, begin, bind_ok (require_ok (Nat.le_of_not_lt short)), bind_ok (word_ok flags),
      bind_ok (word_ok final), bind_ok (word_ok time), bind_ok (word_ok transaction), readBegin,
      if_neg short, List.drop_drop]
    rfl

theorem rowChange_eq (rs : Relations) (bs : Bytes) :
    (rowChange rs).outcome bs = some (readRowChange rs bs) := by
  by_cases short : bs.length < 5
  · rw [outcome, rowChange, bind_error (require_error short), readRowChange, if_pos short]
    rfl
  · have flags : 1 ≤ bs.length := by omega
    have number : 4 ≤ (bs.drop 1).length := by rw [List.length_drop]; omega
    rw [outcome, rowChange, bind_ok (require_ok (Nat.le_of_not_lt short)), bind_ok (word_ok flags),
      bind_ok (word_ok number), readRowChange, if_neg short, relationId]
    cases rs.get? (Bytes.toNat ((bs.drop 1).take 4)) <;> rfl

theorem outcome_bind_pure {α β : Type} {x : Cursor α} {bs : Bytes} {r : Except DecodeFault α}
    (first : x.outcome bs = some r) (f : α → β) :
    (do return f (← x) : Cursor β).outcome bs = some (r.map f) := by
  obtain ⟨reached, run, same⟩ := Option.map_eq_some_iff.mp first
  cases reached with
  | error fault =>
    rw [outcome, bind_error run, ← same]
    rfl
  | ok p =>
    have run : x bs = some (.ok (p.1, p.2)) := run
    rw [outcome, bind_ok run, ← same]
    rfl

/-- No frame makes the decoder read past its end. -/
theorem read_eq (rs : Relations) (frame : Bytes) : read rs frame = some (Pglogical.read rs frame) := by
  match frame with
  | [] => rfl
  | tag :: bs =>
    rw [read, body, Pglogical.read]
    cases kindOf tag with
    | begin =>
      refine (outcome_bind_pure (begin_eq bs) _).trans ?_
      cases readBegin bs <;> rfl
    | row =>
      refine (outcome_bind_pure (rowChange_eq rs bs) _).trans ?_
      cases readRowChange rs bs <;> rfl
    | relation =>
      refine (outcome_bind_pure (relation_eq bs) _).trans ?_
      cases readRelation bs <;> rfl
    | commit | skipped | unknown => rfl

end Cursor

end ChangeFeed.Pglogical
