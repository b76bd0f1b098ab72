import ChangeFeed.Proofs.Bytes.Words
import ChangeFeed.Stream.Message

/-!
Which payloads are messages of a stream. Main statement: a message is read from its layout, a record's
from nothing else and a heartbeat's from what lays it out but for the value of its flag and the bytes
after it; all other payloads are refused, each with the error for its tag.
-/
namespace ChangeFeed.StreamMessage

open Bytes

section Fields

variable {bs : Bytes} {i : Int}

theorem length_lsnBytes (l : Lsn) : (lsnBytes l).length = 8 := length_ofNat 8 _

theorem lsnAt_lsnBytes (l : Lsn) (rest : Bytes) : lsnAt (lsnBytes l ++ rest) = l := by
  have small : l.offset < values 8 := l.offset_lt
  apply Lsn.ext
  rw [lsnAt, List.take_left' (length_lsnBytes l), lsnBytes, toNat_ofNat, Nat.mod_eq_of_lt small,
    Lsn.offset_ofNat l.offset_lt]

theorem lsnBytes_lsnAt (enough : 8 ≤ bs.length) : lsnBytes (lsnAt bs) = bs.take 8 := by
  have length : (bs.take 8).length = 8 := List.length_take_of_le enough
  have small : toNat (bs.take 8) < UInt64.size := by
    have bound := toNat_lt (bs.take 8)
    rw [length] at bound
    exact bound
  rw [lsnBytes, lsnAt, Lsn.offset_ofNat small]
  calc ofNat 8 (toNat (bs.take 8)) = ofNat (bs.take 8).length (toNat (bs.take 8)) := by rw [length]
    _ = bs.take 8 := ofNat_toNat _

theorem timeAt_ofInt (within : InWord 8 i) (rest : Bytes) : timeAt (ofInt 8 i ++ rest) = i := by
  rw [timeAt, List.take_left' (length_ofInt 8 i), toInt_ofInt within]

theorem ofInt_timeAt (enough : 8 ≤ bs.length) : ofInt 8 (timeAt bs) = bs.take 8 := by
  have length : (bs.take 8).length = 8 := List.length_take_of_le enough
  calc ofInt 8 (toInt (bs.take 8)) = ofInt (bs.take 8).length (toInt (bs.take 8)) := by rw [length]
    _ = bs.take 8 := ofInt_toInt _

theorem inWord_timeAt (enough : 8 ≤ bs.length) : InWord 8 (timeAt bs) := by
  have within := inWord_toInt (bs.take 8)
  rwa [List.length_take_of_le enough] at within

theorem drop_lsnBytes (l : Lsn) (rest : Bytes) : (lsnBytes l ++ rest).drop 8 = rest :=
  List.drop_left' (length_lsnBytes l)

theorem drop_ofInt (i : Int) (rest : Bytes) : (ofInt 8 i ++ rest).drop 8 = rest :=
  List.drop_left' (length_ofInt 8 i)

end Fields

/-- The times that eight bytes hold. -/
def Fits : StreamMessage → Prop
  | .keepalive _ time _ | .record _ _ time _ =>
    -0x8000000000000000 ≤ time ∧ time < 0x8000000000000000

/-- What each payload is read as. -/
inductive Parses : Bytes → Except Error StreamMessage → Prop
  | empty : Parses [] (.error (.protocol .emptyCopyData))
  | record {start walEnd time data} : InWord 8 time →
      Parses (recordTag :: (lsnBytes start ++ (lsnBytes walEnd ++ (ofInt 8 time ++ data))))
        (.ok (.record start walEnd time data))
  | heartbeat {walEnd time} {flag : UInt8} {rest} : InWord 8 time →
      Parses (keepaliveTag :: (lsnBytes walEnd ++ (ofInt 8 time ++ flag :: rest)))
        (.ok (.keepalive walEnd time (flag != 0)))
  | shortRecord {body} : body.length < 24 →
      Parses (recordTag :: body) (.error (.invalidMessage (.shortWal body.length)))
  | shortHeartbeat {body} : body.length < 17 →
      Parses (keepaliveTag :: body) (.error (.invalidMessage (.shortKeepalive body.length)))
  | unknown {tag body} : tag ≠ recordTag → tag ≠ keepaliveTag →
      Parses (tag :: body) (.error (.protocol (.unknownCopyData tag)))

section Payloads

variable {p : Bytes} {m : StreamMessage} {e : Error}

theorem parses_record {body : Bytes} (enough : 24 ≤ body.length) :
    Parses (recordTag :: body)
      (.ok (.record (lsnAt body) (lsnAt (body.drop 8)) (timeAt (body.drop 16)) (body.drop 24))) := by
  have fields : lsnBytes (lsnAt body) ++ (lsnBytes (lsnAt (body.drop 8)) ++
      (ofInt 8 (timeAt (body.drop 16)) ++ body.drop 24)) = body := by
    rw [lsnBytes_lsnAt (by omega), lsnBytes_lsnAt (by rw [List.length_drop]; omega),
      ofInt_timeAt (by rw [List.length_drop]; omega)]
    have third := List.take_append_drop 8 (body.drop 16)
    have second := List.take_append_drop 8 (body.drop 8)
    have first := List.take_append_drop 8 body
    rw [List.drop_drop] at third second
    rw [third, second, first]
  have within : InWord 8 (timeAt (body.drop 16)) := inWord_timeAt (by rw [List.length_drop]; omega)
  have parses : Parses (recordTag :: (lsnBytes (lsnAt body) ++ (lsnBytes (lsnAt (body.drop 8)) ++
      (ofInt 8 (timeAt (body.drop 16)) ++ body.drop 24)))) _ := .record within
  rwa [fields] at parses

theorem parses_heartbeat {body : Bytes} (enough : 17 ≤ body.length) :
    Parses (keepaliveTag :: body)
      (.ok (.keepalive (lsnAt body) (timeAt (body.drop 8)) ((body.drop 16).headD 0 != 0))) := by
  obtain ⟨flag, rest, last⟩ : ∃ flag rest, body.drop 16 = flag :: rest :=
    List.exists_cons_of_length_pos (by rw [List.length_drop]; omega)
  have fields : lsnBytes (lsnAt body) ++ (ofInt 8 (timeAt (body.drop 8)) ++ flag :: rest) = body := by
    rw [lsnBytes_lsnAt (by omega), ofInt_timeAt (by rw [List.length_drop]; omega), ← last]
    have second := List.take_append_drop 8 (body.drop 8)
    have first := List.take_append_drop 8 body
    rw [List.drop_drop] at second
    rw [second, first]
  have within : InWord 8 (timeAt (body.drop 8)) := inWord_timeAt (by rw [List.length_drop]; omega)
  have parses : Parses (keepaliveTag :: (lsnBytes (lsnAt body) ++ (ofInt 8 (timeAt (body.drop 8)) ++
      flag :: rest))) _ := .heartbeat within
  rw [fields] at parses
  rwa [last, List.headD_cons]

theorem parses (p : Bytes) : Parses p (parse p) := by
  match p with
  | [] => exact .empty
  | tag :: body =>
    by_cases record : tag = recordTag
    · subst record
      rw [parse, if_pos rfl]
      split
      · rename_i short; exact .shortRecord short
      · rename_i enough; exact parses_record (Nat.le_of_not_lt enough)
    by_cases heartbeat : tag = keepaliveTag
    · subst heartbeat
      rw [parse, if_neg record, if_pos rfl]
      split
      · rename_i short; exact .shortHeartbeat short
      · rename_i enough; exact parses_heartbeat (Nat.le_of_not_lt enough)
    · rw [parse, if_neg record, if_neg heartbeat]
      exact .unknown record heartbeat

theorem Parses.parse_eq {r : Except Error StreamMessage} (parses : Parses p r) : parse p = r := by
  cases parses with
  | empty => rfl
  | @record start walEnd time data within =>
    have enough : ¬ (lsnBytes start ++ (lsnBytes walEnd ++ (ofInt 8 time ++ data))).length < 24 := by
      simp only [List.length_append, length_lsnBytes, length_ofInt]
      omega
    have third : (lsnBytes start ++ (lsnBytes walEnd ++ (ofInt 8 time ++ data))).drop (8 + 8) =
        ofInt 8 time ++ data := by
      rw [← List.drop_drop, drop_lsnBytes, drop_lsnBytes]
    have last : (lsnBytes start ++ (lsnBytes walEnd ++ (ofInt 8 time ++ data))).drop (16 + 8) = data := by
      rw [← List.drop_drop, third, drop_ofInt]
    rw [parse, if_pos rfl, if_neg enough, lsnAt_lsnBytes, drop_lsnBytes, lsnAt_lsnBytes, third,
      timeAt_ofInt within, last]
  | @heartbeat walEnd time flag rest within =>
    have enough : ¬ (lsnBytes walEnd ++ (ofInt 8 time ++ flag :: rest)).length < 17 := by
      simp only [List.length_append, length_lsnBytes, length_ofInt, List.length_cons]
      omega
    have last : (lsnBytes walEnd ++ (ofInt 8 time ++ flag :: rest)).drop (8 + 8) = flag :: rest := by
      rw [← List.drop_drop, drop_lsnBytes, drop_ofInt]
    rw [parse, if_neg (by decide), if_pos rfl, if_neg enough, lsnAt_lsnBytes, drop_lsnBytes,
      timeAt_ofInt within, last, List.headD_cons]
  | shortRecord short => rw [parse, if_pos rfl, if_pos short]
  | shortHeartbeat short => rw [parse, if_neg (by decide), if_pos rfl, if_pos short]
  | unknown other unknown => rw [parse, if_neg other, if_neg unknown]

theorem Parses.fits (parses : Parses p (.ok m)) : m.Fits := by
  cases parses with
  | record within | heartbeat within => exact inWord_eight.mp within

theorem parses_layout (fits : m.Fits) : Parses m.layout (.ok m) := by
  match m with
  | .record start walEnd time data =>
    have parses : Parses (recordTag :: (lsnBytes start ++ (lsnBytes walEnd ++ (ofInt 8 time ++ data)))) _ :=
      .record (inWord_eight.mpr fits)
    rwa [← List.append_assoc, ← List.append_assoc] at parses
  | .keepalive walEnd time reply =>
    have parses : Parses (keepaliveTag :: (lsnBytes walEnd ++ (ofInt 8 time ++
        [if reply then 1 else 0]))) _ := .heartbeat (inWord_eight.mpr fits)
    have flag : ((if reply then 1 else 0 : UInt8) != 0) = reply := by cases reply <;> rfl
    rwa [flag, ← List.append_assoc] at parses

theorem Parses.layout_record {start walEnd : Lsn} {time : Int} {data : Bytes}
    (parses : Parses p (.ok (.record start walEnd time data))) :
    layout (.record start walEnd time data) = p := by
  cases parses with
  | record => simp [layout]

/-- The flag of a heartbeat is laid out as one, whatever it was before, unless it was zero. -/
theorem Parses.layout_heartbeat {walEnd : Lsn} {time : Int} {reply : Bool}
    (parses : Parses p (.ok (.keepalive walEnd time reply))) :
    ∃ flag, p[17]? = some flag ∧
      layout (.keepalive walEnd time reply) = p.take 17 ++ [if flag = 0 then 0 else 1] := by
  cases parses with
  | @heartbeat _ _ flag rest within =>
    have length : (keepaliveTag :: (lsnBytes walEnd ++ ofInt 8 time)).length = 17 := by
      simp only [List.length_cons, List.length_append, length_lsnBytes, length_ofInt]
    have whole : keepaliveTag :: (lsnBytes walEnd ++ (ofInt 8 time ++ flag :: rest)) =
        (keepaliveTag :: (lsnBytes walEnd ++ ofInt 8 time)) ++ flag :: rest := by simp
    refine ⟨flag, ?_, ?_⟩
    · rw [whole, List.getElem?_append_right (Nat.le_of_eq length), length]
      rfl
    · rw [whole, List.take_left' length, layout]
      by_cases none : flag = 0 <;> simp [none]

theorem Parses.accepted_iff {r : Except Error StreamMessage} (parses : Parses p r) :
    (∃ m, r = .ok m) ↔
      p.head? = some recordTag ∧ 25 ≤ p.length ∨ p.head? = some keepaliveTag ∧ 18 ≤ p.length := by
  cases parses with
  | empty => simp
  | record =>
    refine ⟨fun _ => .inl ⟨rfl, ?_⟩, fun _ => ⟨_, rfl⟩⟩
    simp only [List.length_cons, List.length_append, length_lsnBytes, length_ofInt]
    omega
  | heartbeat =>
    refine ⟨fun _ => .inr ⟨rfl, ?_⟩, fun _ => ⟨_, rfl⟩⟩
    simp only [List.length_cons, List.length_append, length_lsnBytes, length_ofInt]
    omega
  | shortRecord short =>
    refine ⟨nofun, ?_⟩
    rintro (⟨-, enough⟩ | ⟨other, -⟩)
    · rw [List.length_cons] at enough; omega
    · cases other
  | shortHeartbeat short =>
    refine ⟨nofun, ?_⟩
    rintro (⟨other, -⟩ | ⟨-, enough⟩)
    · cases other
    · rw [List.length_cons] at enough; omega
  | unknown other other' =>
    refine ⟨nofun, ?_⟩
    rintro (⟨same, -⟩ | ⟨same, -⟩)
    · exact absurd (Option.some.inj same) other
    · exact absurd (Option.some.inj same) other'

theorem Parses.refused (parses : Parses p (.error e)) :
    p.head? = some recordTag ∧ e = .invalidMessage (.shortWal (p.length - 1)) ∨
    p.head? = some keepaliveTag ∧ e = .invalidMessage (.shortKeepalive (p.length - 1)) ∨
    p.head? ≠ some recordTag ∧ p.head? ≠ some keepaliveTag ∧
      e = .protocol (p.head?.elim .emptyCopyData .unknownCopyData) := by
  cases parses with
  | empty => simp
  | shortRecord => simp
  | shortHeartbeat => simp
  | unknown other other' => simp [other, other']

end Payloads

/-- A payload is a message exactly if it is a record with its whole header or a whole heartbeat. A record
is the layout of what is read from it; so are the first bytes of a heartbeat, but for the value of a flag
that is set. All field values of 64 bits and all data are read back from their layout. What is refused is
malformed if it has one of the two tags, and breaks the protocol otherwise. -/
theorem parse_exact :
    (∀ p, (∃ m, parse p = .ok m) ↔
      p.head? = some 0x77 ∧ 25 ≤ p.length ∨ p.head? = some 0x6b ∧ 18 ≤ p.length) ∧
    (∀ p start walEnd time data, parse p = .ok (.record start walEnd time data) →
      layout (.record start walEnd time data) = p) ∧
    (∀ p walEnd time reply, parse p = .ok (.keepalive walEnd time reply) → ∃ flag, p[17]? = some flag ∧
      layout (.keepalive walEnd time reply) = p.take 17 ++ [if flag = 0 then 0 else 1]) ∧
    (∀ m, m.Fits → parse m.layout = .ok m) ∧
    (∀ p m, parse p = .ok m → m.Fits) ∧
    (∀ p e, parse p = .error e →
      p.head? = some 0x77 ∧ e = .invalidMessage (.shortWal (p.length - 1)) ∨
      p.head? = some 0x6b ∧ e = .invalidMessage (.shortKeepalive (p.length - 1)) ∨
      p.head? ≠ some 0x77 ∧ p.head? ≠ some 0x6b ∧
        e = .protocol (p.head?.elim .emptyCopyData .unknownCopyData)) := by
  have reads {p : Bytes} {r : Except Error StreamMessage} (read : parse p = r) : Parses p r :=
    read ▸ parses p
  refine ⟨fun p => (parses p).accepted_iff, ?_, ?_, fun m fits => (parses_layout fits).parse_eq, ?_, ?_⟩
  · intro p start walEnd time data read
    exact (reads read).layout_record
  · intro p walEnd time reply read
    exact (reads read).layout_heartbeat
  · intro p m read
    exact (reads read).fits
  · intro p e read
    exact (reads read).refused

/-- The last position, the earliest time, and bytes that look like another message. -/
theorem parse_exact_at_limits :
    let m : StreamMessage :=
      .record ⟨0xffffffffffffffff, by decide⟩ .zero (-0x8000000000000000) [0x6b, 0, 0xff]
    m.Fits ∧ m.layout.length = 28 ∧ parse m.layout = .ok m := by
  intro m
  have fits : m.Fits := ⟨by decide, by decide⟩
  exact ⟨fits, rfl, parse_exact.2.2.2.1 m fits⟩

end ChangeFeed.StreamMessage
