import ChangeFeed.Proofs.Bytes.Words
import ChangeFeed.Proofs.Pglogical.Cursor
import ChangeFeed.Proofs.Text.Utf8

/-!
Relation frames as the plugin writes them, their names ended by a NUL byte. Main statement: such a frame
makes the relation known, and no beginning of it that breaks off within the names is accepted.
-/
namespace ChangeFeed.Pglogical

/-- A name as it is written: its bytes and a NUL behind a byte that counts them all. -/
def terminated (name : String) : Bytes := counted (Bytes.ofString name ++ [0])

/-- A relation frame up to the end of the table's name. -/
def announcement (flags : UInt8) (id : UInt32) (schema table : String) : Bytes :=
  0x52 :: flags :: (Bytes.ofNat 4 id.toNat ++ (terminated schema ++ terminated table))

/-- Only one NUL at the end is no part of a name. -/
theorem nameOf_terminated (name : String) : nameOf (Bytes.ofString name ++ [0]) = name := by
  rw [nameOf, List.getLast?_concat, if_pos rfl, List.dropLast_concat, Text.Utf8.lossyString_ofString]

theorem length_terminated {name : String} (short : (Bytes.ofString name).length ≤ 254) :
    (Bytes.ofString name ++ [0]).length < 256 := by
  rw [List.length_append, List.length_singleton]
  omega

theorem counted_append_inj {a b x y : Bytes} (small : a.length < 256) (small' : b.length < 256)
    (same : counted a ++ x = counted b ++ y) : a = b ∧ x = y := by
  simp only [counted, List.cons_append, List.cons.injEq] at same
  obtain ⟨count, rest⟩ := same
  have lengths : a.length = b.length := by
    have value := congrArg UInt8.toNat count
    rw [UInt8.toNat_ofNat', UInt8.toNat_ofNat', Nat.mod_eq_of_lt small, Nat.mod_eq_of_lt small'] at value
    exact value
  exact List.append_inj rest lengths

section Announcements

variable {flags : UInt8} {id : UInt32} {schema table : String}
  (short : (Bytes.ofString schema).length ≤ 254) (short' : (Bytes.ofString table).length ≤ 254)
include short short'

theorem announces_announcement (trailing : Bytes) :
    Announces (announcement flags id schema table ++ trailing) ⟨id.toNat, schema, table⟩ := by
  have number : Bytes.toNat (Bytes.ofNat 4 id.toNat) = id.toNat := by
    rw [Bytes.toNat_ofNat]
    exact Nat.mod_eq_of_lt id.toNat_lt
  have announces : Announces (0x52 :: flags :: (_ ++ (counted _ ++ (counted _ ++ trailing)))) _ :=
    .intro (Bytes.length_ofNat 4 id.toNat) (length_terminated short) (length_terminated short')
  rw [number, nameOf_terminated, nameOf_terminated] at announces
  simpa [announcement, terminated] using announces

/-- A beginning of the frame that announces something has all of it. -/
theorem not_announces_take {n : Nat} (cut : n < (announcement flags id schema table).length)
    (r : Relation) : ¬ Announces ((announcement flags id schema table).take n) r := by
  intro announces
  have whole := List.take_append_drop n (announcement flags id schema table)
  have left : (announcement flags id schema table).drop n ≠ [] := by
    rw [Ne, List.drop_eq_nil_iff]
    omega
  generalize (announcement flags id schema table).take n = front at announces whole
  generalize (announcement flags id schema table).drop n = back at whole left
  obtain @⟨flags', number, schema', table', rest, length, small', small''⟩ := announces
  simp only [announcement, List.cons_append, List.append_assoc, List.cons.injEq, true_and] at whole
  obtain ⟨-, names⟩ := List.append_inj whole.2 (by rw [length, Bytes.length_ofNat])
  obtain ⟨-, others⟩ := counted_append_inj small' (length_terminated short) names
  have others' : counted table' ++ (rest ++ back) = terminated table ++ [] := by
    rw [List.append_nil]
    exact others
  obtain ⟨-, none⟩ := counted_append_inj small'' (length_terminated short') others'
  exact left (List.append_eq_nil_iff.mp none).2

end Announcements

/-- A frame that begins like an announcement and is none is refused as malformed. -/
theorem decode_unannounced {rs : Relations} {body : Bytes} (silent : ∀ r, ¬ Announces (0x52 :: body) r) :
    ∃ fault, decode rs (0x52 :: body) = (.error (.decode fault), rs) := by
  cases read : readRelation body with
  | ok r => exact absurd (readRelation_eq_ok.mp read) (silent r)
  | error fault => exact ⟨fault, decode_of_reads (.malformed read) rs⟩

/-- A relation frame makes exactly its relation known under its number, whatever its flags are and
whatever stands after its names. Where it is broken off before the end of the table's name, it is refused
and nothing changes. For no frame at all does the decoder read past the end. -/
theorem decode_announcement :
    (∀ (rs : Relations) (flags : UInt8) (id : UInt32) (schema table : String) (trailing : Bytes),
      (Bytes.ofString schema).length ≤ 254 → (Bytes.ofString table).length ≤ 254 →
      let frame := announcement flags id schema table ++ trailing
      (decode rs frame).1 = .ok none ∧
      (∀ other, (decode rs frame).2.get? other =
        if other = id.toNat then some ⟨id.toNat, schema, table⟩ else rs.get? other) ∧
      ∀ n, 0 < n → n < (announcement flags id schema table).length →
        ∃ fault, decode rs (frame.take n) = (.error (.decode fault), rs)) ∧
    ∀ rs frame, Cursor.read rs frame = some (read rs frame) := by
  refine ⟨fun rs flags id schema table trailing short short' => ?_, Cursor.read_eq⟩
  intro frame
  have announces : Announces frame ⟨id.toNat, schema, table⟩ := announces_announcement short short' trailing
  have decoded := decode_of_reads (.announce announces) rs
  refine ⟨by rw [decoded], fun other => ?_, fun n some cut => ?_⟩
  · rw [decoded]
    dsimp only [Option.elim_some]
    rw [Relations.get?_insert]
    by_cases own : other = id.toNat
    · rw [if_pos own, if_pos own.symm]
    · rw [if_neg own, if_neg (Ne.symm own)]
  · obtain ⟨m, rfl⟩ := Nat.exists_eq_succ_of_ne_zero (Nat.ne_of_gt some)
    have front : frame.take (m + 1) = (announcement flags id schema table).take (m + 1) :=
      List.take_append_of_le_length (Nat.le_of_lt cut)
    rw [front]
    exact decode_unannounced (not_announces_take short short' cut)

/-- A schema whose name ends in a NUL of its own and a table with the longest name, broken off before the
NUL that ends it. -/
theorem decode_announcement_of_longest :
    let table := String.ofList (List.replicate 254 'a')
    let frame := announcement 1 0xffffffff "é\x00" table ++ [0x41, 0]
    (decode .empty frame).2.get? 4294967295 = some ⟨4294967295, "é\x00", table⟩ ∧
      ∃ fault, decode .empty (frame.take 266) = (.error (.decode fault), .empty) := by
  intro table frame
  have lengths : (Bytes.ofString "é\x00").length ≤ 254 ∧ (Bytes.ofString table).length ≤ 254 ∧
      (announcement 1 0xffffffff "é\x00" table).length = 267 := by decide +kernel
  obtain ⟨-, known, broken⟩ :=
    decode_announcement.1 .empty 1 0xffffffff "é\x00" table [0x41, 0] lengths.1 lengths.2.1
  exact ⟨known 4294967295, broken 266 (by decide) (by rw [lengths.2.2]; decide)⟩

end ChangeFeed.Pglogical
