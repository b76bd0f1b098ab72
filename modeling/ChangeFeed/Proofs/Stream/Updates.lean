import ChangeFeed.Proofs.Stream.Messages
import ChangeFeed.Stream.Status

/-!
Status updates as bytes. Main statement: bytes show the fields of an update, each in its place, exactly if
they are the layout of that update, so different updates are laid out differently.
-/
namespace ChangeFeed.StatusUpdate

open Bytes StreamMessage

/-- The times that eight bytes hold. -/
def Fits (u : StatusUpdate) : Prop :=
  -0x8000000000000000 ≤ u.clientTime ∧ u.clientTime < 0x8000000000000000

/-- The fields of an update in their places: a tag, three positions and a time of eight bytes each, the
most significant first, and a flag. -/
structure Shows (p : Bytes) (u : StatusUpdate) : Prop where
  length : p.length = 34
  tag : p[0]? = some 0x72
  write : toNat ((p.drop 1).take 8) = u.write.offset
  flush : toNat ((p.drop 9).take 8) = u.flush.offset
  apply : toNat ((p.drop 17).take 8) = u.apply.offset
  clientTime : toInt ((p.drop 25).take 8) = u.clientTime
  replyRequested : p[33]? = some (if u.replyRequested then 1 else 0)

variable {p : Bytes} {u v : StatusUpdate}

theorem layout_eq (u : StatusUpdate) :
    u.layout = tag :: (lsnBytes u.write ++ (lsnBytes u.flush ++ (lsnBytes u.apply ++
      (ofInt 8 u.clientTime ++ [if u.replyRequested then 1 else 0])))) := by
  simp [layout]

theorem length_layout (u : StatusUpdate) : u.layout.length = 34 := by
  simp only [layout_eq, List.length_cons, List.length_append, length_lsnBytes, length_ofInt, List.length_nil]

/-- What is left of a layout from each of its fields on. -/
theorem drop_layout (u : StatusUpdate) :
    u.layout.drop 1 = lsnBytes u.write ++ (lsnBytes u.flush ++ (lsnBytes u.apply ++
      (ofInt 8 u.clientTime ++ [if u.replyRequested then 1 else 0]))) ∧
    u.layout.drop 9 = lsnBytes u.flush ++ (lsnBytes u.apply ++
      (ofInt 8 u.clientTime ++ [if u.replyRequested then 1 else 0])) ∧
    u.layout.drop 17 = lsnBytes u.apply ++
      (ofInt 8 u.clientTime ++ [if u.replyRequested then 1 else 0]) ∧
    u.layout.drop 25 = ofInt 8 u.clientTime ++ [if u.replyRequested then 1 else 0] ∧
    u.layout.drop 33 = [if u.replyRequested then 1 else 0] := by
  have past {n : Nat} {whole first rest : Bytes} (there : u.layout.drop n = whole)
      (divided : whole = first ++ rest) (eight : first.length = 8) : u.layout.drop (n + 8) = rest := by
    rw [← List.drop_drop, there, divided, List.drop_left' eight]
  have first := congrArg (List.drop 1) (layout_eq u)
  have second := past first rfl (length_lsnBytes _)
  have third := past second rfl (length_lsnBytes _)
  have fourth := past third rfl (length_lsnBytes _)
  exact ⟨first, second, third, fourth, past fourth rfl (length_ofInt 8 _)⟩

theorem toNat_lsnBytes (l : Lsn) : toNat (lsnBytes l) = l.offset := by
  rw [lsnBytes, toNat_ofNat]
  exact Nat.mod_eq_of_lt l.offset_lt

theorem shows_layout (fits : u.Fits) : Shows u.layout u := by
  obtain ⟨first, second, third, fourth, fifth⟩ := drop_layout u
  have last : u.layout[33]? = (u.layout.drop 33)[0]? := by rw [List.getElem?_drop]
  refine ⟨length_layout u, by rw [layout_eq]; rfl, ?_, ?_, ?_, ?_, by rw [last, fifth]; rfl⟩
  · rw [first, List.take_left' (length_lsnBytes _), toNat_lsnBytes]
  · rw [second, List.take_left' (length_lsnBytes _), toNat_lsnBytes]
  · rw [third, List.take_left' (length_lsnBytes _), toNat_lsnBytes]
  · rw [fourth, List.take_left' (length_ofInt 8 _), toInt_ofInt (inWord_eight.mpr fits)]

section Shows

theorem Shows.length_take (shows' : Shows p u) {n : Nat} (inside : n + 8 ≤ 34) :
    ((p.drop n).take 8).length = 8 := by
  rw [List.length_take, List.length_drop, shows'.length]
  omega

theorem Shows.fits (shows' : Shows p u) : u.Fits := by
  have within := inWord_toInt ((p.drop 25).take 8)
  rw [shows'.length_take (by decide), shows'.clientTime] at within
  exact inWord_eight.mp within

/-- Eight bytes that show a position are those that it is laid out in. -/
theorem Shows.lsnBytes_eq (shows' : Shows p u) {n : Nat} (inside : n + 8 ≤ 34) {l : Lsn}
    (same : toNat ((p.drop n).take 8) = l.offset) : lsnBytes l = (p.drop n).take 8 := by
  have whole := ofNat_toNat ((p.drop n).take 8)
  rwa [shows'.length_take inside, same] at whole

theorem Shows.ofInt_eq (shows' : Shows p u) : ofInt 8 u.clientTime = (p.drop 25).take 8 := by
  have whole := ofInt_toInt ((p.drop 25).take 8)
  rwa [shows'.length_take (by decide), shows'.clientTime] at whole

/-- There is nothing else in the bytes. -/
theorem Shows.eq_layout (shows' : Shows p u) : p = u.layout := by
  have divided (n : Nat) : p.drop n = (p.drop n).take 8 ++ p.drop (n + 8) := by
    rw [← List.drop_drop, List.take_append_drop]
  have last : p.drop 33 = [if u.replyRequested then 1 else 0] := by
    have flag := List.getElem?_eq_some_iff.mp shows'.replyRequested
    obtain ⟨inside, flag⟩ := flag
    rw [List.drop_eq_getElem_cons inside, flag, List.drop_eq_nil_of_le (Nat.le_of_eq shows'.length)]
  obtain ⟨b, rest, rfl⟩ : ∃ b rest, p = b :: rest :=
    List.exists_cons_of_length_pos (by rw [shows'.length]; decide)
  obtain rfl : b = StatusUpdate.tag := Option.some.inj shows'.tag
  calc StatusUpdate.tag :: rest = StatusUpdate.tag :: (StatusUpdate.tag :: rest).drop 1 := rfl
    _ = u.layout := by
      rw [divided 1, divided 9, divided 17, divided 25, last, layout_eq,
        shows'.lsnBytes_eq (by decide) shows'.write, shows'.lsnBytes_eq (by decide) shows'.flush,
        shows'.lsnBytes_eq (by decide) shows'.apply, shows'.ofInt_eq]

theorem shows_iff : Shows p u ↔ u.Fits ∧ p = u.layout :=
  ⟨fun shows' => ⟨shows'.fits, shows'.eq_layout⟩, fun ⟨fits, same⟩ => same ▸ shows_layout fits⟩

theorem Shows.unique (shows' : Shows p u) (others : Shows p v) : u = v := by
  obtain ⟨write, flush, apply, time, reply⟩ := u
  obtain ⟨write', flush', apply', time', reply'⟩ := v
  obtain rfl : write = write' := Lsn.ext (shows'.write.symm.trans others.write)
  obtain rfl : flush = flush' := Lsn.ext (shows'.flush.symm.trans others.flush)
  obtain rfl : apply = apply' := Lsn.ext (shows'.apply.symm.trans others.apply)
  obtain rfl : time = time' := shows'.clientTime.symm.trans others.clientTime
  have flag := Option.some.inj (shows'.replyRequested.symm.trans others.replyRequested)
  cases reply <;> cases reply' <;> first | rfl | cases flag

end Shows

/-- An update is read from its layout, its time as far as eight bytes hold it. -/
theorem ofBytes?_layout (u : StatusUpdate) :
    ofBytes? u.layout = some { u with clientTime := timeAt (ofInt 8 u.clientTime) } := by
  obtain ⟨-, second, third, fourth, fifth⟩ := drop_layout u
  have length := length_layout u
  rw [layout_eq, List.length_cons] at length
  rw [layout_eq, List.drop_succ_cons] at second third fourth fifth
  have flag : ((if u.replyRequested then 1 else 0 : UInt8) != 0) = u.replyRequested := by
    cases u.replyRequested <;> rfl
  have time : timeAt (ofInt 8 u.clientTime ++ [if u.replyRequested then 1 else 0]) =
      timeAt (ofInt 8 u.clientTime) := by
    rw [timeAt, timeAt, List.take_left' (length_ofInt 8 _),
      List.take_of_length_le (Nat.le_of_eq (length_ofInt 8 _))]
  rw [layout_eq, ofBytes?, if_pos ⟨rfl, Nat.succ.inj length⟩, second, third, fourth, fifth,
    lsnAt_lsnBytes, lsnAt_lsnBytes, lsnAt_lsnBytes, time, List.headD_cons, flag]

theorem ofBytes?_layout_of_fits (fits : u.Fits) : ofBytes? u.layout = some u := by
  have time := timeAt_ofInt (inWord_eight.mpr fits) []
  rw [List.append_nil] at time
  rw [ofBytes?_layout, time]

end ChangeFeed.StatusUpdate
