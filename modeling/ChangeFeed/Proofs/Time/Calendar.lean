import ChangeFeed.Time.Calendar

/-!
Days and dates. Main statement: every day has a date of the calendar, and its number is that of the day.
-/
namespace ChangeFeed.Time.Date

/-- A day of an era by its centuries, cycles of four years and years. The day that the last year of a
cycle may have more is day 365 of it; a century lacks it unless it is the last of the era. -/
structure Era (c k u d : Int) : Prop where
  century : 0 ≤ c ∧ c ≤ 3
  cycle : 0 ≤ k ∧ k ≤ 24
  year : 0 ≤ u ∧ u ≤ 3
  day : 0 ≤ d ∧ d ≤ 365
  added : d = 365 → u = 3 ∧ (k = 24 → c = 3)

theorem exists_era {e : Int} (low : 0 ≤ e) (high : e < 146097) :
    ∃ c k u d, Era c k u d ∧ e = 36524 * c + 1461 * k + 365 * u + d := by
  let c := e / 36524 - e / 146096
  let r := e - 36524 * c
  have century : 0 ≤ c ∧ c ≤ 3 := by omega
  have rest : 0 ≤ r ∧ r ≤ 36524 ∧ (r = 36524 → c = 3) := by omega
  let k := r / 1461
  let s := r % 1461
  have cycle : 0 ≤ k ∧ k ≤ 24 := by omega
  let u := s / 365 - s / 1460
  exact ⟨c, k, u, s - 365 * u, ⟨century, cycle, by omega, by omega, by omega⟩, by omega⟩

section Era

variable {c k u d e : Int}

theorem Era.yearOfEra (era : Era c k u d) (day : e = 36524 * c + 1461 * k + 365 * u + d) :
    (e - e / 1460 + e / 36524 - e / 146096) / 365 = 100 * c + 4 * k + u := by
  obtain ⟨century, cycle, year, within, added⟩ := era
  have cycles : e / 1460 = 25 * c + k + (k + 24 * c + 365 * u + d) / 1460 := by omega
  have centuries : e / 36524 - e / 146096 = c := by
    by_cases before : e < 36524 * (c + 1)
    · have : e / 146096 = 0 := by omega
      omega
    · omega
  have rest : 0 ≤ d - (k + 24 * c + 365 * u + d) / 1460 ∧
      d - (k + 24 * c + 365 * u + d) / 1460 < 365 := by omega
  omega

theorem Era.daysBeforeYear (era : Era c k u d) :
    daysBeforeYear (100 * c + 4 * k + u) = 36524 * c + 1461 * k + 365 * u := by
  obtain ⟨century, cycle, year, -, -⟩ := era
  have fours : (100 * c + 4 * k + u) / 4 = 25 * c + k := by omega
  have hundreds : (100 * c + 4 * k + u) / 100 = c := by omega
  rw [Date.daysBeforeYear, fours, hundreds]
  omega

theorem Era.isLeap (era : Era c k u 365) (eras : Int) :
    isLeap (eras * 400 + (100 * c + 4 * k + u) + 1) = true := by
  obtain ⟨century, cycle, -, -, added⟩ := era
  obtain ⟨rfl, last⟩ := added rfl
  have four : (eras * 400 + (100 * c + 4 * k + 3) + 1) % 4 = 0 := by omega
  have hundred : (eras * 400 + (100 * c + 4 * k + 3) + 1) % 100 ≠ 0 ∨
      (eras * 400 + (100 * c + 4 * k + 3) + 1) % 400 = 0 := by omega
  simp only [Date.isLeap, four, Bool.and_eq_true, Bool.or_eq_true, beq_iff_eq, bne_iff_ne]
  exact ⟨trivial, hundred⟩

end Era

/-- The month and the day of it, in a year that begins in March. -/
theorem month_range {n m : Int} (low : 0 ≤ n) (high : n ≤ 365) (month : m = (5 * n + 2) / 153) :
    0 ≤ m ∧ m ≤ 11 ∧ 0 ≤ n - daysBeforeMonth m ∧ n - daysBeforeMonth m ≤ 30 ∧
      (m = 1 ∨ m = 3 ∨ m = 6 ∨ m = 8 → n - daysBeforeMonth m ≤ 29) ∧
      (m = 11 → n - daysBeforeMonth m = n - 337) := by
  unfold daysBeforeMonth
  omega

/-- What the date of a day is, by its era and its place in it. -/
theorem ofDays_eq {days eras c k u d : Int} (era : Era c k u d)
    (day : days + epochDay = eras * eraLength + (36524 * c + 1461 * k + 365 * u + d)) :
    let y := eras * 400 + (100 * c + 4 * k + u)
    let m := (5 * d + 2) / 153
    ofDays days = if m < 10 then ⟨y, (m + 3).toNat, (d - daysBeforeMonth m + 1).toNat⟩
      else ⟨y + 1, (m - 9).toNat, (d - daysBeforeMonth m + 1).toNat⟩ := by
  have within : 0 ≤ 36524 * c + 1461 * k + 365 * u + d ∧ 36524 * c + 1461 * k + 365 * u + d < 146097 := by
    obtain ⟨century, cycle, year, within, added⟩ := era
    omega
  have place : (days + epochDay) % eraLength = 36524 * c + 1461 * k + 365 * u + d := by
    rw [day]
    unfold eraLength
    omega
  have number : (days + epochDay) / eraLength = eras := by
    rw [day]
    unfold eraLength
    omega
  have rest : 36524 * c + 1461 * k + 365 * u + d - daysBeforeYear (100 * c + 4 * k + u) = d := by
    rw [era.daysBeforeYear]
    omega
  intro y m
  have months : 0 ≤ m ∧ m ≤ 11 := by
    obtain ⟨low, high, -⟩ := month_range era.day.1 era.day.2 (m := m) rfl
    exact ⟨low, high⟩
  unfold ofDays
  dsimp only
  rw [place, number, era.yearOfEra rfl, rest]
  change (Date.mk (y + if (if m < 10 then m + 3 else m - 9) ≤ 2 then 1 else 0)
    (if m < 10 then m + 3 else m - 9).toNat _) = _
  by_cases early : m < 10
  · rw [if_pos early, if_neg (by omega), if_pos early, Int.add_zero]
  · rw [if_neg early, if_pos (by omega), if_neg early]

theorem exists_place (days : Int) : ∃ eras c k u d, Era c k u d ∧
    days + epochDay = eras * eraLength + (36524 * c + 1461 * k + 365 * u + d) := by
  have low : 0 ≤ (days + epochDay) % eraLength := Int.emod_nonneg _ (by decide)
  have high : (days + epochDay) % eraLength < 146097 := Int.emod_lt_of_pos _ (by decide)
  obtain ⟨c, k, u, d, era, place⟩ := exists_era low high
  refine ⟨(days + epochDay) / eraLength, c, k, u, d, era, ?_⟩
  rw [← place, Int.mul_comm]
  exact (Int.mul_ediv_add_emod _ _).symm

theorem toDays_ofDays (days : Int) : (ofDays days).toDays = days := by
  obtain ⟨eras, c, k, u, d, era, place⟩ := exists_place days
  obtain ⟨early, late, first, last, -⟩ := month_range era.day.1 era.day.2 (m := (5 * d + 2) / 153) rfl
  have years : 0 ≤ 100 * c + 4 * k + u ∧ 100 * c + 4 * k + u < 400 := by
    obtain ⟨century, cycle, year, -, -⟩ := era
    omega
  have before := era.daysBeforeYear
  rw [ofDays_eq era place]
  generalize (5 * d + 2) / 153 = m at *
  -- Both kinds of dates are counted from March of the same year.
  have counted {month day : Nat} (y : Int) (month' : (month : Int) = if m < 10 then m + 3 else m - 9)
      (y' : y = eras * 400 + (100 * c + 4 * k + u) + if m < 10 then 0 else 1)
      (day' : (day : Int) = d - daysBeforeMonth m + 1) : (Date.mk y month day).toDays = days := by
    have march : (if month ≤ 2 then y - 1 else y) = eras * 400 + (100 * c + 4 * k + u) := by
      split <;> split at month' <;> split at y' <;> omega
    have months : (if month ≤ 2 then (month : Int) + 9 else (month : Int) - 3) = m := by
      split <;> split at month' <;> omega
    have number : (eras * 400 + (100 * c + 4 * k + u)) / 400 = eras := by omega
    have rest : (eras * 400 + (100 * c + 4 * k + u)) % 400 = 100 * c + 4 * k + u := by omega
    unfold toDays
    dsimp only
    rw [march, months, number, rest, before, day']
    omega
  split
  · rename_i spring
    exact counted _ (by rw [if_pos spring]; omega) (by rw [if_pos spring]; omega) (by omega)
  · rename_i winter
    exact counted _ (by rw [if_neg winter]; omega) (by rw [if_neg winter]) (by omega)

theorem exists_ofDays (days : Int) : (ofDays days).Exists := by
  obtain ⟨eras, c, k, u, d, era, place⟩ := exists_place days
  obtain ⟨early, late, first, last, short, february⟩ :=
    month_range era.day.1 era.day.2 (m := (5 * d + 2) / 153) rfl
  rw [ofDays_eq era place]
  generalize (5 * d + 2) / 153 = m at *
  have within := era.day.2
  split
  · refine ⟨by dsimp only; omega, by dsimp only; omega, by dsimp only; omega, ?_⟩
    dsimp only
    unfold monthLength
    rw [if_neg (by omega)]
    split <;> omega
  · rename_i winter
    refine ⟨by dsimp only; omega, by dsimp only; omega, by dsimp only; omega, ?_⟩
    dsimp only
    unfold monthLength
    by_cases ends : m = 11
    · subst ends
      rw [if_pos (by rfl)]
      by_cases leap : d = 365
      · subst leap
        rw [era.isLeap eras, if_pos rfl]
        omega
      · split <;> omega
    · rw [if_neg (by omega), if_neg (by omega)]
      omega

/-- The years of the days that instants fall on. -/
theorem year_ofDays {days : Int} (low : -96465292 ≤ days) (high : days ≤ 95026236) :
    -262143 ≤ (ofDays days).year ∧ (ofDays days).year ≤ 262142 := by
  obtain ⟨eras, c, k, u, d, era, place⟩ := exists_place days
  rw [ofDays_eq era place]
  unfold epochDay eraLength at place
  obtain ⟨century, cycle, year, within, added⟩ := era
  split
  · dsimp only
    omega
  · rename_i winter
    refine ⟨by dsimp only; omega, Int.not_lt.mp fun beyond => ?_⟩
    dsimp only at beyond
    -- January of the year after the last would be past the last day.
    have last : eras = 655 := by omega
    have second : c = 1 := by omega
    have eleventh : k = 10 := by omega
    omega

end ChangeFeed.Time.Date
