import ChangeFeed.Proofs.Time.Spelling
import ChangeFeed.Time.Rfc3339

/-!
Instants as text. Main statements: the text of an instant is one of its spellings, and so reads back as
that instant, in every year and also in the leap second of a minute; and whatever is read has a text that
reads back.
-/
namespace ChangeFeed.Time

/-- Two digits are enough for the month and for the day. -/
theorem Date.Exists.fields {d : Date} (real : d.Exists) : d.month < 100 ∧ d.day < 100 := by
  obtain ⟨-, high, -, high'⟩ := real
  have most : monthLength d.year d.month ≤ 31 := by
    unfold monthLength
    split
    · split <;> omega
    · split <;> omega
  omega

namespace Timestamp

open Text

theorem blank_nil : ∀ c ∈ ([] : List Char), isBlank c = true := by simp

theorem spellsNumber_padded (width n : Nat) : SpellsNumber n (Numeral.padded width n).toList :=
  ⟨Numeral.isDigit_padded, Numeral.read?_padded⟩

theorem spellsField_padded {n : Nat} (small : n < 100) : SpellsField n (Numeral.padded 2 n).toList :=
  .mk blank_nil (spellsNumber_padded 2 n) (Nat.le_of_eq (Numeral.length_padded (by decide) small))

theorem spellsMark_self (c : Char) : SpellsMark c [c] := .mk blank_nil

theorem spellsYear_yearText (year : Int) : SpellsYear year (yearText year).toList := by
  unfold yearText
  split
  · rename_i short
    have small : year.toNat < 10 ^ 4 := by omega
    have spells : SpellsYear year.toNat _ :=
      .plain blank_nil (spellsNumber_padded 4 year.toNat) (Nat.le_of_eq (Numeral.length_padded (by decide) small))
    rwa [Int.toNat_of_nonneg short.1] at spells
  · split
    · rename_i before
      have spells := SpellsYear.minus blank_nil (spellsNumber_padded 4 year.natAbs)
      have value : -(year.natAbs : Int) = year := by omega
      rw [value] at spells
      simpa using spells
    · rename_i after
      have spells := SpellsYear.plus blank_nil (spellsNumber_padded 4 year.natAbs)
      have value : (year.natAbs : Int) = year := by omega
      rw [value] at spells
      simpa using spells

theorem spellsDate_text {d : Date} (real : d.Exists) : SpellsDate d d.text.toList := by
  have spells := SpellsDate.mk (spellsYear_yearText d.year) (spellsMark_self '-')
    (spellsField_padded real.fields.1) (spellsMark_self '-') (spellsField_padded real.fields.2)
  simpa [Date.text] using spells

/-- With a point, the digits after it count for as many nanoseconds as they lack in number. -/
theorem spellsFraction_padded {width n : Nat} (some : 0 < width) (few : width ≤ 9) (fits : n < 10 ^ width) :
    SpellsFraction (n * 10 ^ (9 - width)) ('.' :: (Numeral.padded width n).toList) := by
  have length := Numeral.length_padded some fits
  have present : (Numeral.padded width n).toList ≠ [] := fun none => by
    rw [none] at length
    exact absurd length (Nat.ne_of_lt some)
  refine .point present Numeral.isDigit_padded ?_
  rw [List.take_append, List.take_of_length_le (by omega), List.take_replicate, length,
    Nat.min_eq_left (by omega), Numeral.read?_append_zeros present, Numeral.read?_padded]
  rfl

theorem spellsFraction_text {nanos : Nat} (small : nanos < 1000000000) :
    SpellsFraction nanos (fractionText nanos).toList := by
  have pointed {width n : Nat} (some : 0 < width) (few : width ≤ 9) (fits : n < 10 ^ width)
      (value : n * 10 ^ (9 - width) = nanos) :
      SpellsFraction nanos ("." ++ Numeral.padded width n).toList := by
    have spells := spellsFraction_padded some few fits
    rw [value] at spells
    simpa using spells
  unfold fractionText
  split
  · rename_i whole
    subst whole
    exact .none
  split
  · exact pointed (by decide) (by decide) (by omega) (by omega)
  split
  · exact pointed (by decide) (by decide) (by omega) (by omega)
  · exact pointed (by decide) (by decide) small (by omega)

theorem spellsClock_text {second nanos : Nat} (day : second < 86400) (bound : nanos < 2000000000) :
    SpellsClock ⟨second / 3600, second / 60 % 60, second % 60 + nanos / 1000000000, nanos % 1000000000⟩
      (clockText second nanos).toList := by
  have spells := SpellsClock.mk
    (k := ⟨second / 3600, second / 60 % 60, second % 60 + nanos / 1000000000, nanos % 1000000000⟩)
    (spellsField_padded (by dsimp only; omega)) (spellsMark_self ':')
    (spellsField_padded (by dsimp only; omega)) (spellsMark_self ':')
    (spellsField_padded (by dsimp only; omega)) (spellsFraction_text (Nat.mod_lt nanos (by decide)))
  simpa [clockText] using spells

section Reading

variable {cs rest : List Char}

theorem span?_minutes {offset : Int} (read : span? cs = some (offset, rest)) : offset % 60 = 0 := by
  obtain ⟨⟨hours, cs'⟩, -, read⟩ := Option.bind_eq_some_iff.mp read
  obtain ⟨⟨minutes, cs''⟩, -, read⟩ := Option.bind_eq_some_iff.mp read
  cases read
  omega

/-- Offsets that can be noted are whole minutes. -/
theorem offset?_minutes {offset : Int} (read : offset? cs = some (offset, rest)) : offset % 60 = 0 := by
  unfold offset? at read
  split at read
  · cases read; rfl
  · cases read; rfl
  · exact span?_minutes read
  · obtain ⟨⟨east, _⟩, west, same⟩ := Option.map_eq_some_iff.mp read
    cases same
    have minutes := span?_minutes west
    omega
  · obtain ⟨⟨east, _⟩, west, same⟩ := Option.map_eq_some_iff.mp read
    cases same
    have minutes := span?_minutes west
    omega
  · split at read <;> cases read
    rfl
  · cases read

theorem fraction?_lt {nanos : Nat} (read : fraction? cs = some (nanos, rest)) : nanos < 1000000000 := by
  unfold fraction? at read
  split at read
  · rename_i ds
    obtain ⟨n, digits, read⟩ := Option.bind_eq_some_iff.mp read
    cases read
    have bound := Numeral.read?_lt digits
    have few : ((digitsUpTo none ds).1.take 9).length ≤ 9 := List.length_take_le ..
    generalize ((digitsUpTo none ds).1.take 9).length = k at bound few
    calc n * Nat.pow 10 (9 - k) < 10 ^ k * 10 ^ (9 - k) :=
          Nat.mul_lt_mul_of_pos_right bound (Nat.pow_pos (by decide))
      _ = 10 ^ 9 := by rw [← Nat.pow_add, Nat.add_sub_cancel' few]
  · cases read
    decide

theorem clock?_lt {clock : Clock} (read : clock? cs = some (clock, rest)) : clock.nanos < 1000000000 := by
  obtain ⟨⟨hour, cs₁⟩, -, read⟩ := Option.bind_eq_some_iff.mp read
  obtain ⟨cs₂, -, read⟩ := Option.bind_eq_some_iff.mp read
  obtain ⟨⟨minute, cs₃⟩, -, read⟩ := Option.bind_eq_some_iff.mp read
  obtain ⟨cs₄, -, read⟩ := Option.bind_eq_some_iff.mp read
  obtain ⟨⟨second, cs₅⟩, -, read⟩ := Option.bind_eq_some_iff.mp read
  obtain ⟨⟨nanos, cs₆⟩, fraction, read⟩ := Option.bind_eq_some_iff.mp read
  cases read
  exact fraction?_lt fraction

theorem legible_of_resolve? {date : Date} {clock : Clock} {offset : Int} {t : Instant}
    (minutes : offset % 60 = 0) (bound : clock.nanos < 1000000000)
    (resolved : resolve? date clock offset = some t) : t.Legible := by
  obtain ⟨-, -, resolved⟩ := Option.bind_eq_some_iff.mp resolved
  obtain ⟨-, -, resolved⟩ := Option.bind_eq_some_iff.mp resolved
  dsimp only [Instant.ofParts?] at resolved
  obtain ⟨_, same⟩ := Option.dite_none_right_eq_some.mp resolved
  cases same
  unfold Instant.Legible
  dsimp only
  split <;> omega

/-- What a text stands for has a text that stands for it. -/
theorem legible_of_read? {s : String} {t : Instant} (read : read? s = some t) : t.Legible := by
  obtain ⟨⟨date, cs₁⟩, -, read⟩ := Option.bind_eq_some_iff.mp read
  obtain ⟨cs₂, -, read⟩ := Option.bind_eq_some_iff.mp read
  obtain ⟨⟨clock, cs₃⟩, ofClock, read⟩ := Option.bind_eq_some_iff.mp read
  obtain ⟨⟨offset, cs₄⟩, ofOffset, read⟩ := Option.bind_eq_some_iff.mp read
  obtain ⟨-, -, resolved⟩ := Option.bind_eq_some_iff.mp read
  exact legible_of_resolve? (offset?_minutes ofOffset) (clock?_lt ofClock) resolved

end Reading

end Timestamp

namespace Instant

open Timestamp

theorem date_year (t : Instant) : -262143 ≤ t.date.year ∧ t.date.year ≤ 262142 := by
  obtain ⟨first, last, -⟩ := t.inRange
  unfold firstSecond at first
  unfold lastSecond at last
  exact Date.year_ofDays (by omega) (by omega)

theorem secondOfDay_lt (t : Instant) : t.secondOfDay < 86400 := by
  have rest : (t.secondOfDay : Int) = t.seconds % 86400 :=
    Int.toNat_of_nonneg (Int.emod_nonneg _ (by decide))
  omega

/-- The text of an instant is its date and time of day in universal time, whichever way that is noted. -/
theorem spells_localText (t : Instant) {zone : List Char} (ofZone : SpellsOffset 0 zone) :
    Spells t (t.localText.toList ++ zone) := by
  have date : t.dateAt 0 = t.date := by rw [dateAt, Int.add_zero, Instant.date]
  have clock : t.clockAt 0 = ⟨t.secondOfDay / 3600, t.secondOfDay / 60 % 60,
      t.secondOfDay % 60 + t.nanos / 1000000000, t.nanos % 1000000000⟩ := by
    rw [clockAt, Int.add_zero]
    rfl
  have ofDate : SpellsDate (t.dateAt 0) t.date.text.toList := by
    rw [date]
    exact spellsDate_text (Date.exists_ofDays _)
  have ofClock : SpellsClock (t.clockAt 0) (clockText t.secondOfDay t.nanos).toList := by
    rw [clock]
    exact spellsClock_text t.secondOfDay_lt t.inRange.2.2
  have spells := Spells.mk (t := t) (by decide) (by rw [date]; exact t.date_year) ofDate (.inl rfl) ofClock
    blank_nil ofZone blank_nil
  simpa [localText] using spells

theorem read?_localText (t : Instant) {zone : String} (ofZone : SpellsOffset 0 zone.toList) :
    Timestamp.read? (t.localText ++ zone) = some t.asRead := by
  have spells := t.spells_localText ofZone
  rw [← String.toList_append] at spells
  rw [← String.ofList_toList (s := t.localText ++ zone)]
  exact t.read?_spells spells

theorem read?_zuluText (t : Instant) : Timestamp.read? t.zuluText = some t.asRead :=
  t.read?_localText (.zulu (.inl rfl))

theorem spellsOffset_zero : SpellsOffset 0 "+00:00".toList := by
  have zeros : SpellsNumber 0 ['0', '0'] := ⟨List.all_eq_true.mp rfl, rfl⟩
  have gap : ∀ c ∈ [':'], isSeparatorOfMinutes c = true := List.all_eq_true.mp rfl
  exact .east (.mk zeros gap zeros (by decide))

theorem read?_offsetText (t : Instant) : Timestamp.read? t.offsetText = some t.asRead :=
  t.read?_localText spellsOffset_zero

end Instant

end ChangeFeed.Time
