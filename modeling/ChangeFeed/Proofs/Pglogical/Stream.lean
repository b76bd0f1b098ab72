import ChangeFeed.Pglogical.Frame
import Mathlib.Data.List.Induction

/-!
What a decoder knows after a stream of frames. Main statement: it knows of each number the relation that
was announced last under it, frames that are refused or announce nothing change nothing, and a row change
is handed on with the relation that is known at that moment, or refused if there is none.
-/
namespace ChangeFeed.Pglogical

/-- Bytes behind a byte that counts them. -/
def counted (raw : Bytes) : Bytes := UInt8.ofNat raw.length :: raw

/-- The name that the bytes stand for; one NUL at their end is no part of it. -/
def nameOf (raw : Bytes) : String :=
  Text.Utf8.lossyString (if raw.getLast? = some 0 then raw.dropLast else raw)

/-- The frame announces the relation: flags, the number in four bytes, the names of schema and table,
and anything after them. -/
inductive Announces : Bytes → Relation → Prop
  | intro {flags : UInt8} {number schema table rest : Bytes} : number.length = 4 →
      schema.length < 256 → table.length < 256 →
      Announces (0x52 :: flags :: (number ++ (counted schema ++ (counted table ++ rest))))
        ⟨number.toNat, nameOf schema, nameOf table⟩

section Names

variable {bs rest : Bytes} {name : String}

theorem readName_counted {raw : Bytes} (short : raw.length < 256) (rest : Bytes) :
    readName (counted raw ++ rest) = .ok (nameOf raw, rest) := by
  have count : (UInt8.ofNat raw.length).toNat = raw.length := by
    rw [UInt8.toNat_ofNat']
    exact Nat.mod_eq_of_lt short
  have enough : raw.length ≤ (raw ++ rest).length := by simp
  simp only [counted, List.cons_append, readName, Bytes.splitAt?, count, if_pos enough, List.take_left,
    List.drop_left, nameOf]

theorem counted_of_readName (read : readName bs = .ok (name, rest)) :
    ∃ raw, raw.length < 256 ∧ bs = counted raw ++ rest ∧ name = nameOf raw := by
  unfold readName at read
  split at read
  · cases read
  · rename_i n bs
    unfold Bytes.splitAt? at read
    split at read
    · cases read
    · rename_i raw rest split
      cases read
      obtain ⟨enough, same⟩ := Option.ite_none_right_eq_some.mp split
      cases same
      have length : (bs.take n.toNat).length = n.toNat := List.length_take_of_le enough
      refine ⟨bs.take n.toNat, by rw [length]; exact n.toNat_lt, ?_, rfl⟩
      rw [counted, length, UInt8.ofNat_toNat, List.cons_append, List.take_append_drop]

end Names

theorem relationId_append {flags : UInt8} {number : Bytes} (length : number.length = 4) (rest : Bytes) :
    relationId (flags :: (number ++ rest)) = number.toNat := by
  rw [relationId, List.drop_one, List.tail_cons, ← length, List.take_left]

theorem readRelation_eq_ok {body : Bytes} {r : Relation} :
    readRelation body = .ok r ↔ Announces (0x52 :: body) r := by
  constructor
  · intro read
    unfold readRelation at read
    split at read
    · cases read
    · rename_i enough
      match body with
      | [] => simp at enough
      | flags :: bs =>
        simp only [List.length_cons] at enough
        cases first : readName ((flags :: bs).drop 5) with
        | error => rw [first] at read; cases read
        | ok p =>
          cases second : readName p.2 with
          | error => simp only [first, bind, Except.bind, second] at read; cases read
          | ok q =>
            simp only [first, bind, Except.bind, second] at read
            cases read
            obtain ⟨schema, schemaShort, split, same⟩ := counted_of_readName first
            obtain ⟨table, tableShort, split', same'⟩ := counted_of_readName second
            have length : (bs.take 4).length = 4 := List.length_take_of_le (by omega)
            rw [same, same', ← List.take_append_drop 4 bs, relationId_append length,
              show bs.drop 4 = (flags :: bs).drop 5 from rfl, split, split']
            exact .intro length schemaShort tableShort
  · intro announces
    cases announces with
    | @intro flags number schema table rest length schemaShort tableShort =>
      have enough : ¬ (flags :: (number ++ (counted schema ++ (counted table ++ rest)))).length < 6 := by
        simp only [List.length_cons, List.length_append, counted]
        omega
      have names : (flags :: (number ++ (counted schema ++ (counted table ++ rest)))).drop 5 =
          counted schema ++ (counted table ++ rest) := by
        rw [List.drop_succ_cons, ← length, List.drop_left]
      rw [readRelation, if_neg enough, names, readName_counted schemaShort,
        relationId_append length]
      simp only [bind, Except.bind, readName_counted tableShort]
      rfl

theorem announces_iff {frame : Bytes} {r : Relation} :
    Announces frame r ↔ ∃ body, frame = 0x52 :: body ∧ readRelation body = .ok r := by
  constructor
  · intro announces
    obtain ⟨body, rfl⟩ : ∃ body, frame = 0x52 :: body := by
      cases announces
      exact ⟨_, rfl⟩
    exact ⟨body, rfl, readRelation_eq_ok.mpr announces⟩
  · rintro ⟨body, rfl, read⟩
    exact readRelation_eq_ok.mp read

theorem Announces.unique {frame : Bytes} {r s : Relation} (h : Announces frame r)
    (h' : Announces frame s) : r = s := by
  obtain ⟨body, rfl, read⟩ := announces_iff.mp h
  rw [readRelation_eq_ok.mpr h'] at read
  exact (Except.ok.inj read).symm

theorem classOfRelation_eq (r : Relation) : classOfRelation r =
    .change (r.schema = extensionSchema ∧ r.table = sourcesTable)
      (r.schema = extensionSchema ∧ r.table = ddlTable) := by
  simp only [classOfRelation, Bool.decide_and]
  rfl

theorem classOfRelation_ne (r : Relation) : classOfRelation r ≠ .change true true := by
  rw [classOfRelation_eq]
  intro both
  injection both with ignored ddl
  have sources := (of_decide_eq_true ignored).2
  have log := (of_decide_eq_true ddl).2
  rw [sources] at log
  exact absurd log (by decide)

def IsRowTag (tag : UInt8) : Prop := tag = 0x49 ∨ tag = 0x55 ∨ tag = 0x44

theorem kindOf_of_isRowTag {tag : UInt8} (row : IsRowTag tag) : kindOf tag = .row := by
  rcases row with rfl | rfl | rfl <;> rfl

theorem tag_cases (tag : UInt8) : tag = 0x42 ∨ tag = 0x43 ∨ tag = 0x52 ∨ (tag = 0x53 ∨ tag = 0x4f) ∨
    IsRowTag tag ∨ kindOf tag = .unknown := by
  by_cases begins : tag = 0x42
  · exact Or.inl begins
  · by_cases commits : tag = 0x43
    · simp [commits]
    · by_cases row : IsRowTag tag
      · simp [row]
      · by_cases relation : tag = 0x52
        · simp [relation]
        · by_cases skipped : tag = 0x53 ∨ tag = 0x4f
          · simp [skipped]
          · have unknown : kindOf tag = .unknown := by
              unfold IsRowTag at row
              rw [kindOf, if_neg begins, if_neg commits, if_neg row, if_neg relation, if_neg skipped]
            simp [unknown]

/-- What a frame that is no row change makes any decoder answer, and the relation that it announces. -/
inductive Reads : Bytes → Except Error (Option Message) → Option Relation → Prop
  | empty : Reads [] (.ok none) none
  | announce {frame r} : Announces frame r → Reads frame (.ok none) (some r)
  | malformed {body e} : readRelation body = .error e → Reads (0x52 :: body) (.error (.decode e)) none
  | begin {body cls} : readBegin body = .ok cls →
      Reads (0x42 :: body) (.ok (some ⟨0x42, cls, none, 0x42 :: body⟩)) none
  | unbegun {body e} : readBegin body = .error e → Reads (0x42 :: body) (.error (.decode e)) none
  | commit {body} : Reads (0x43 :: body) (.ok (some ⟨0x43, .other, none, 0x43 :: body⟩)) none
  | consumed {tag body} : tag = 0x53 ∨ tag = 0x4f → Reads (tag :: body) (.ok none) none
  | unknown {tag body} : kindOf tag = .unknown →
      Reads (tag :: body) (.error (.decode (.unknownTag tag))) none

section Frames

variable {rs : Relations} {frame : Bytes} {outcome : Except Error (Option Message)}
  {announced : Option Relation}

theorem decode_of_reads (reads : Reads frame outcome announced) (rs : Relations) :
    decode rs frame = (outcome, announced.elim rs rs.insert) := by
  cases reads with
  | announce announces =>
    obtain ⟨body, rfl, read⟩ := announces_iff.mp announces
    simp [decode, Pglogical.read, kindOf, read, bind, Except.bind, pure, Except.pure]
  | malformed read | begin read | unbegun read =>
    simp [decode, Pglogical.read, kindOf, read, bind, Except.bind, pure, Except.pure]
  | consumed tag => rcases tag with rfl | rfl <;> rfl
  | unknown tag => simp [decode, Pglogical.read, tag]
  | _ => rfl

theorem exists_reads (other : ∀ tag ∈ frame.head?, ¬ IsRowTag tag) :
    ∃ outcome announced, Reads frame outcome announced := by
  match frame with
  | [] => exact ⟨_, _, .empty⟩
  | tag :: body =>
    rcases tag_cases tag with rfl | rfl | rfl | consumed | row | unknown
    · cases read : readBegin body with
      | ok => exact ⟨_, _, .begin read⟩
      | error => exact ⟨_, _, .unbegun read⟩
    · exact ⟨_, _, .commit⟩
    · cases read : readRelation body with
      | ok => exact ⟨_, _, .announce (readRelation_eq_ok.mp read)⟩
      | error => exact ⟨_, _, .malformed read⟩
    · exact ⟨_, _, .consumed consumed⟩
    · exact absurd row (other tag rfl)
    · exact ⟨_, _, .unknown unknown⟩

/-- A row change is handed on with the relation that is known under its number. -/
theorem decode_row {tag flags : UInt8} {number : Bytes} (row : IsRowTag tag) (length : number.length = 4)
    (rest : Bytes) :
    decode rs (tag :: flags :: (number ++ rest)) =
      match rs.get? number.toNat with
      | some r => (.ok (some ⟨tag, classOfRelation r, some r, tag :: flags :: (number ++ rest)⟩), rs)
      | none => (.error (.decode (.unknownRelation number.toNat)), rs) := by
  have long : ¬ (flags :: (number ++ rest)).length < 5 := by
    simp only [List.length_cons, List.length_append]
    omega
  simp only [decode, Pglogical.read, kindOf_of_isRowTag row, readRowChange, if_neg long,
    relationId_append length]
  cases rs.get? number.toNat <;> rfl

theorem decode_row_short {tag : UInt8} {body : Bytes} (row : IsRowTag tag) (short : body.length < 5) :
    decode rs (tag :: body) = (.error (.decode .shortRowChange), rs) := by
  simp only [decode, Pglogical.read, kindOf_of_isRowTag row, readRowChange, if_pos short, bind,
    Except.bind]

theorem row_cases (body : Bytes) : body.length < 5 ∨
    ∃ flags number rest, number.length = 4 ∧ body = flags :: (number ++ rest) := by
  match body with
  | [] => exact Or.inl (by decide)
  | flags :: bs =>
    by_cases short : bs.length < 4
    · exact Or.inl (by rw [List.length_cons]; omega)
    · exact Or.inr ⟨flags, bs.take 4, bs.drop 4, List.length_take_of_le (by omega), by simp⟩

theorem decode_refused {e : Error} (refused : (decode rs frame).1 = .error e) :
    (decode rs frame).2 = rs := by
  unfold decode at *
  split at refused
  · cases refused
  · rfl

theorem Reads.message_eq {m : Message} (reads : Reads frame (.ok (some m)) announced) :
    m.payload = frame ∧ frame.head? = some m.tag ∧ ∀ ignore ddl, m.cls ≠ .change ignore ddl := by
  cases reads with
  | begin read =>
    refine ⟨rfl, rfl, ?_⟩
    rintro ignore ddl rfl
    unfold readBegin at read
    split at read <;> cases read
  | commit => exact ⟨rfl, rfl, by simp⟩

theorem Reads.announces_iff {r : Relation} (reads : Reads frame outcome announced) :
    Announces frame r ↔ announced = some r := by
  cases reads with
  | announce announces =>
    refine ⟨fun announces' => by rw [announces.unique announces'], ?_⟩
    rintro ⟨⟩
    exact announces
  | malformed refused =>
    refine ⟨fun announces => ?_, nofun⟩
    rw [readRelation_eq_ok.mpr announces] at refused
    cases refused
  | consumed tag =>
    refine ⟨fun announces => ?_, nofun⟩
    obtain ⟨body, same, -⟩ := Pglogical.announces_iff.mp announces
    cases same
    simp at tag
  | unknown tag =>
    refine ⟨fun announces => ?_, nofun⟩
    obtain ⟨body, same, -⟩ := Pglogical.announces_iff.mp announces
    cases same
    cases tag
  | _ => exact ⟨nofun, nofun⟩

theorem not_announces_of_row {tag : UInt8} {body : Bytes} {r : Relation} (row : IsRowTag tag) :
    ¬ Announces (tag :: body) r := by
  intro announces
  obtain ⟨body, same, -⟩ := announces_iff.mp announces
  cases same
  simp [IsRowTag] at row

theorem decode_row_snd {tag : UInt8} (row : IsRowTag tag) (body : Bytes) :
    (decode rs (tag :: body)).2 = rs := by
  rcases row_cases body with short | ⟨flags, number, rest, length, rfl⟩
  · rw [decode_row_short row short]
  · rw [decode_row row length]
    split <;> rfl

/-- A relation that is announced becomes known; nothing else changes what is known. -/
theorem decode_announced (rs : Relations) (frame : Bytes) :
    (∃ r, Announces frame r ∧ decode rs frame = (.ok none, rs.insert r)) ∨
      (∀ r, ¬ Announces frame r) ∧ (decode rs frame).2 = rs := by
  by_cases row : ∃ tag ∈ frame.head?, IsRowTag tag
  · obtain ⟨tag, member, row⟩ := row
    obtain ⟨body, rfl⟩ := List.head?_eq_some_iff.mp member
    exact Or.inr ⟨fun r => not_announces_of_row row, decode_row_snd row body⟩
  · obtain ⟨outcome, announced, reads⟩ := exists_reads fun tag member row' => row ⟨tag, member, row'⟩
    cases told : announced with
    | none =>
      refine Or.inr ⟨fun r announces => ?_, by rw [decode_of_reads reads, told]; rfl⟩
      rw [reads.announces_iff, told] at announces
      cases announces
    | some r =>
      have announces := reads.announces_iff.mpr told
      exact Or.inl ⟨r, announces, decode_of_reads (.announce announces) rs⟩

/-- Every message has the whole frame with it, and no row change is both ignored and a change of the
schema. -/
theorem decode_message {m : Message} (decoded : (decode rs frame).1 = .ok (some m)) :
    m.payload = frame ∧ frame.head? = some m.tag ∧ m.cls ≠ .change true true := by
  by_cases row : ∃ tag ∈ frame.head?, IsRowTag tag
  · obtain ⟨tag, member, row⟩ := row
    obtain ⟨body, rfl⟩ := List.head?_eq_some_iff.mp member
    rcases row_cases body with short | ⟨flags, number, rest, length, rfl⟩
    · rw [decode_row_short row short] at decoded
      cases decoded
    · rw [decode_row row length] at decoded
      split at decoded
      · rename_i r _
        cases decoded
        exact ⟨rfl, rfl, classOfRelation_ne r⟩
      · cases decoded
  · obtain ⟨outcome, announced, reads⟩ := exists_reads fun tag member row' => row ⟨tag, member, row'⟩
    rw [decode_of_reads reads] at decoded
    cases decoded
    obtain ⟨payload, tag, cls⟩ := reads.message_eq
    exact ⟨payload, tag, cls true true⟩

end Frames

namespace Relations

/-- What is known after the frames, by a decoder that knew nothing. -/
def after (frames : List Bytes) : Relations :=
  frames.foldl (fun rs frame => (decode rs frame).2) .empty

theorem after_append_singleton (frames : List Bytes) (frame : Bytes) :
    after (frames ++ [frame]) = (decode (after frames) frame).2 := by
  rw [after, List.foldl_append]
  rfl

end Relations

/-- The last of the frames to announce a relation with the number announces `r`. -/
def Latest (frames : List Bytes) (id : Nat) (r : Relation) : Prop :=
  ∃ earlier frame later, frames = earlier ++ frame :: later ∧ Announces frame r ∧ r.id = id ∧
    ∀ other ∈ later, ∀ s, Announces other s → s.id ≠ id

/-- A member of a list with one more at its end is that one, or a member of the list. -/
theorem split_append_singleton {frames earlier later : List Bytes} {frame x : Bytes}
    (told : frames ++ [frame] = earlier ++ x :: later) :
    (later = [] ∧ x = frame ∧ earlier = frames) ∨
      ∃ rest, later = rest ++ [frame] ∧ frames = earlier ++ x :: rest := by
  rcases List.eq_nil_or_concat later with rfl | ⟨rest, last, rfl⟩
  · obtain ⟨front, same⟩ := List.append_inj' told rfl
    cases same
    exact Or.inl ⟨rfl, rfl, front.symm⟩
  · have told' : frames ++ [frame] = (earlier ++ x :: rest) ++ [last] := by simpa using told
    obtain ⟨front, same⟩ := List.append_inj' told' rfl
    cases same
    exact Or.inr ⟨rest, List.concat_eq_append, front⟩

theorem latest_append_of_other {frames : List Bytes} {frame : Bytes} {id : Nat} {r : Relation}
    (other : ∀ s, Announces frame s → s.id ≠ id) :
    Latest (frames ++ [frame]) id r ↔ Latest frames id r := by
  constructor
  · rintro ⟨earlier, x, later, told, announces, own, last⟩
    rcases split_append_singleton told with ⟨rfl, rfl, rfl⟩ | ⟨rest, rfl, rfl⟩
    · exact absurd own (other r announces)
    · exact ⟨earlier, x, rest, rfl, announces, own, fun z member => last z (by simp [member])⟩
  · rintro ⟨earlier, x, later, rfl, announces, own, last⟩
    refine ⟨earlier, x, later ++ [frame], by simp, announces, own, ?_⟩
    rw [List.forall_mem_append, List.forall_mem_singleton]
    exact ⟨last, other⟩

theorem latest_append_of_announces {frames : List Bytes} {frame : Bytes} {r s : Relation}
    (announces : Announces frame s) : Latest (frames ++ [frame]) s.id r ↔ r = s := by
  constructor
  · rintro ⟨earlier, x, later, told, announces', own, last⟩
    rcases split_append_singleton told with ⟨rfl, rfl, rfl⟩ | ⟨rest, rfl, rfl⟩
    · exact announces'.unique announces
    · exact absurd rfl (last frame (by simp) s announces)
  · rintro rfl
    exact ⟨frames, frame, [], rfl, announces, rfl, by simp⟩

section Stream

variable {frames : List Bytes} {id : Nat}

theorem get?_decode (rs : Relations) (frame : Bytes) (id : Nat) :
    (∃ s, Announces frame s ∧ s.id = id ∧ (decode rs frame).2.get? id = some s) ∨
      (∀ s, Announces frame s → s.id ≠ id) ∧ (decode rs frame).2.get? id = rs.get? id := by
  rcases decode_announced rs frame with ⟨s, announces, decoded⟩ | ⟨silent, same⟩
  · rw [decoded, Relations.get?_insert]
    split
    · rename_i own; exact Or.inl ⟨s, announces, own, rfl⟩
    · rename_i other
      exact Or.inr ⟨fun t announces' => by rwa [announces'.unique announces], rfl⟩
  · exact Or.inr ⟨fun s announces => absurd announces (silent s), by rw [same]⟩

theorem get?_after (r : Relation) : (Relations.after frames).get? id = some r ↔ Latest frames id r := by
  induction frames using List.reverseRecOn with
  | nil =>
    refine ⟨nofun, ?_⟩
    rintro ⟨earlier, x, later, told, -⟩
    simp at told
  | append_singleton frames frame ih =>
    rw [Relations.after_append_singleton]
    rcases get?_decode (Relations.after frames) frame id with ⟨s, announces, rfl, known⟩ | ⟨other, known⟩
    · rw [known, latest_append_of_announces announces, Option.some_inj]
      exact eq_comm
    · rw [known, latest_append_of_other other]
      exact ih

theorem get?_after_eq_none : (Relations.after frames).get? id = none ↔
    ∀ frame ∈ frames, ∀ r, Announces frame r → r.id ≠ id := by
  induction frames using List.reverseRecOn with
  | nil => exact ⟨fun _ _ member => (List.not_mem_nil member).elim, fun _ => rfl⟩
  | append_singleton frames frame ih =>
    rw [Relations.after_append_singleton, List.forall_mem_append, List.forall_mem_singleton]
    rcases get?_decode (Relations.after frames) frame id with ⟨s, announces, own, known⟩ | ⟨other, known⟩
    · rw [known]
      exact ⟨nofun, fun none => absurd own (none.2 s announces)⟩
    · rw [known, ih]
      exact ⟨fun none => ⟨none, other⟩, And.left⟩

/-- A frame that begins like an announcement is accepted if and only if it is one. -/
theorem accepted_iff_announces (rs : Relations) (body : Bytes) :
    (∃ m, (decode rs (0x52 :: body)).1 = .ok m) ↔ ∃ r, Announces (0x52 :: body) r := by
  rcases decode_announced rs (0x52 :: body) with ⟨r, announces, decoded⟩ | ⟨silent, -⟩
  · rw [decoded]
    exact ⟨fun _ => ⟨r, announces⟩, fun _ => ⟨none, rfl⟩⟩
  · refine ⟨?_, fun ⟨r, announces⟩ => absurd announces (silent r)⟩
    rintro ⟨m, decoded⟩
    cases read : readRelation body with
    | ok r => exact ⟨r, readRelation_eq_ok.mp read⟩
    | error e => rw [decode_of_reads (.malformed read)] at decoded; cases decoded

/-- After any stream of frames, a decoder knows under each number the relation that was announced last
under it, and none if none was. A further frame that is refused, or is of another kind than the
announcements, changes nothing; one of that kind is accepted if and only if it has the form of an
announcement. A row change is accepted if and only if its number is known, and has the relation and its
class with it. No other frame depends on what is known. A message has its whole frame with it. -/
theorem decode_after (frames : List Bytes) :
    let rs := Relations.after frames
    (∀ id r, rs.get? id = some r ↔ Latest frames id r) ∧
      (∀ id, rs.get? id = none ↔ ∀ frame ∈ frames, ∀ r, Announces frame r → r.id ≠ id) ∧
      ∀ frame,
        (∀ e, (decode rs frame).1 = .error e → (decode rs frame).2 = rs) ∧
        (frame.head? ≠ some 0x52 → (decode rs frame).2 = rs) ∧
        (frame.head? = some 0x52 →
          ((∃ m, (decode rs frame).1 = .ok m) ↔ ∃ r, Announces frame r)) ∧
        (∀ (tag flags : UInt8) (number rest : Bytes), IsRowTag tag → number.length = 4 →
          frame = tag :: flags :: (number ++ rest) →
            ((∃ m, (decode rs frame).1 = .ok m) ↔ ∃ r, rs.get? number.toNat = some r) ∧
              ∀ r, rs.get? number.toNat = some r → decode rs frame =
                (.ok (some ⟨tag, .change (r.schema = "pgcapture" ∧ r.table = "sources")
                  (r.schema = "pgcapture" ∧ r.table = "ddl_logs"), some r, frame⟩), rs)) ∧
        ((∀ tag ∈ frame.head?, ¬ IsRowTag tag) → ∃ outcome, ∃ announced : Option Relation,
          ∀ rs', decode rs' frame = (outcome, announced.elim rs' rs'.insert)) ∧
        ∀ m, (decode rs frame).1 = .ok (some m) →
          m.payload = frame ∧ frame.head? = some m.tag ∧ m.cls ≠ .change true true := by
  intro rs
  refine ⟨fun id => get?_after, fun id => get?_after_eq_none, ?_⟩
  intro frame
  refine ⟨fun e => decode_refused, ?_, ?_, ?_, ?_, fun m => decode_message⟩
  · intro other
    rcases decode_announced rs frame with ⟨r, announces, -⟩ | ⟨-, same⟩
    · obtain ⟨body, rfl, -⟩ := announces_iff.mp announces
      exact absurd rfl other
    · exact same
  · intro head
    obtain ⟨body, rfl⟩ := List.head?_eq_some_iff.mp head
    exact accepted_iff_announces rs body
  · rintro tag flags number rest row length rfl
    rw [decode_row row length]
    cases known : rs.get? number.toNat with
    | none => exact ⟨by simp, nofun⟩
    | some r =>
      refine ⟨by simp, ?_⟩
      rintro _ ⟨⟩
      simp only [classOfRelation_eq]
      rfl
  · intro other
    obtain ⟨outcome, announced, reads⟩ := exists_reads other
    exact ⟨outcome, announced, decode_of_reads reads⟩

/-- A number is announced for the extension's log and then for its bookkeeping, and a third announcement
breaks off; a row change under the number is ignored. -/
theorem decode_after_announced_twice :
    let schema := Bytes.ofString "pgcapture\x00"
    let sources : Bytes := 0x52 :: 0 :: ([0, 0, 64, 16] ++
      (counted schema ++ (counted (Bytes.ofString "sources\x00") ++ [0x41])))
    let frames : List Bytes := [0x52 :: 0 :: ([0, 0, 64, 16] ++
      (counted schema ++ (counted (Bytes.ofString "ddl_logs\x00") ++ []))), sources, sources.take 9]
    let row : Bytes := 0x49 :: 0 :: ([0, 0, 64, 16] ++ [0x4e])
    decode (.after frames) row =
      (.ok (some ⟨0x49, .change true false, some ⟨16400, "pgcapture", "sources"⟩, row⟩),
        .after frames) := by
  intro schema sources frames row
  have broken : (readRelation (sources.take 9).tail).toBool = false := by decide +kernel
  have latest : Latest frames 16400 ⟨16400, nameOf schema, nameOf (Bytes.ofString "sources\x00")⟩ := by
    refine ⟨frames.take 1, sources, [sources.take 9], rfl, ?_, rfl, ?_⟩
    · exact .intro rfl (by decide +kernel) (by decide +kernel)
    · intro frame member s announces
      cases List.mem_singleton.mp member
      obtain ⟨body, same, read⟩ := announces_iff.mp announces
      rw [show (sources.take 9).tail = body from congrArg List.tail same, read] at broken
      cases broken
  obtain ⟨known, -, taken⟩ := decode_after frames
  obtain ⟨-, -, -, rows, -⟩ := taken row
  have schemaName : nameOf schema = "pgcapture" := by decide +kernel
  have tableName : nameOf (Bytes.ofString "sources\x00") = "sources" := by decide +kernel
  rw [schemaName, tableName] at latest
  exact (rows 0x49 0 [0, 0, 64, 16] [0x4e] (Or.inl rfl) rfl rfl).2 _ ((known _ _).mpr latest)

end Stream

end ChangeFeed.Pglogical
