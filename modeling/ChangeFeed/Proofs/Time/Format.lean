import ChangeFeed.Proofs.Time.Timestamps

/-!
The form of the texts that are written for instants: `date-time` of RFC 3339, every field of fixed
width and every letter a capital. Only a year that four digits do not hold has a sign. Main statement:
the text with the offset in digits has this form for every instant.
-/
namespace ChangeFeed.Time

open Text

structure Digits (width : Nat) (ds : List Char) : Prop where
  digits : ∀ c ∈ ds, c.isDigit = true
  length : ds.length = width

inductive FullYear (year : Int) : List Char → Prop
  | plain {ds : List Char} (within : 0 ≤ year ∧ year ≤ 9999) (digits : Digits 4 ds) : FullYear year ds
  | signed {sign : Char} {ds : List Char} {width : Nat} (beyond : year < 0 ∨ 9999 < year)
    (ofSign : sign = '+' ∨ sign = '-') (many : 4 ≤ width) (digits : Digits width ds) :
    FullYear year (sign :: ds)

inductive SecondFraction : List Char → Prop
  | none : SecondFraction []
  | point {ds : List Char} {width : Nat} (some : 0 < width) (few : width ≤ 9) (digits : Digits width ds) :
    SecondFraction ('.' :: ds)

/-- A `date-time` in the given year of universal time. -/
inductive DateTime (fullYear : Int) : List Char → Prop
  | mk {year month day hour minute second fraction : List Char} (ofYear : FullYear fullYear year)
    (ofMonth : Digits 2 month) (ofDay : Digits 2 day) (ofHour : Digits 2 hour) (ofMinute : Digits 2 minute)
    (ofSecond : Digits 2 second) (ofFraction : SecondFraction fraction) :
    DateTime fullYear (year ++ '-' :: (month ++ '-' :: (day ++ 'T' :: (hour ++ ':' :: (minute ++ ':' ::
      (second ++ (fraction ++ "+00:00".toList)))))))

theorem digits_padded {width n : Nat} (some : 0 < width) (fits : n < 10 ^ width) :
    Digits width (Numeral.padded width n).toList :=
  ⟨Numeral.isDigit_padded, Numeral.length_padded some fits⟩

theorem fullYear_yearText (year : Int) : FullYear year (yearText year).toList := by
  have many : 4 ≤ (Numeral.padded 4 year.natAbs).toList.length := by
    rw [Numeral.toList_padded, List.length_append, List.length_replicate]
    omega
  unfold yearText
  split
  · rename_i within
    exact .plain within (digits_padded (by decide) (by omega))
  · rename_i beyond
    rw [String.toList_append]
    split
    · exact .signed (by omega) (.inr rfl) many ⟨Numeral.isDigit_padded, rfl⟩
    · exact .signed (by omega) (.inl rfl) many ⟨Numeral.isDigit_padded, rfl⟩

theorem secondFraction_fractionText {nanos : Nat} (small : nanos < 1000000000) :
    SecondFraction (fractionText nanos).toList := by
  have pointed {width n : Nat} (some : 0 < width) (few : width ≤ 9) (fits : n < 10 ^ width) :
      SecondFraction ("." ++ Numeral.padded width n).toList := by
    rw [String.toList_append]
    exact .point some few (digits_padded some fits)
  unfold fractionText
  split
  · exact .none
  split
  · exact pointed (by decide) (by decide) (by omega)
  split
  · exact pointed (by decide) (by decide) (by omega)
  · exact pointed (by decide) (by decide) small

/-- The text of an instant is a `date-time`. -/
theorem Instant.dateTime_offsetText (t : Instant) : DateTime t.date.year t.offsetText.toList := by
  have day := t.secondOfDay_lt
  have bound : t.nanos < 2000000000 := t.inRange.2.2
  have fields := (Date.exists_ofDays (t.seconds / 86400)).fields
  have form := DateTime.mk (fullYear_yearText t.date.year)
    (digits_padded (n := t.date.month) (by decide) fields.1)
    (digits_padded (n := t.date.day) (by decide) fields.2)
    (digits_padded (n := t.secondOfDay / 3600) (by decide) (by omega))
    (digits_padded (n := t.secondOfDay / 60 % 60) (by decide) (by omega))
    (digits_padded (n := t.secondOfDay % 60 + t.nanos / 1000000000) (by decide) (by omega))
    (secondFraction_fractionText (Nat.mod_lt t.nanos (by decide)))
  simpa [offsetText, localText, Date.text, clockText] using form

end ChangeFeed.Time
