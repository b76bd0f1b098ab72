import ChangeFeed.Time.ServerClock

/-!
The clock of the protocol against the calendar, at the ends of every range that a conversion can leave:
that of instants and that of the words in which a program counts. Main statement: an instant is counted
without loss but of parts of a microsecond, and a count stands for an instant wherever the calendar has
one.
-/
namespace ChangeFeed.Time

/-- Microseconds from 1970 to the start of a year. -/
def yearStart (year : Int) : Int := (Date.mk year 1 1).toDays * 86400 * 1000000

/-- How far a signed word of sixty-four bits counts. -/
def wordLimit : Int := 9223372036854775808

/-- A number that a word holds. -/
def word? (n : Int) : Option Int := if -wordLimit ≤ n ∧ n < wordLimit then some n else none

theorem word?_eq_some {n : Int} (low : -wordLimit ≤ n) (high : n < wordLimit) : word? n = some n :=
  if_pos ⟨low, high⟩

theorem word?_eq_none {n : Int} (beyond : wordLimit ≤ n) : word? n = none :=
  if_neg fun ⟨_, high⟩ => absurd beyond (Int.not_le.mpr high)

namespace Instant

/-- The seconds and nanoseconds of an instant in one number. Those of a leap second are also those of
the second after it. -/
def count (t : Instant) : Int := t.seconds * 1000000000 + t.nanos

/-- The leap second is after the second that goes on into it, and before the next. -/
def Before (t u : Instant) : Prop := t.seconds < u.seconds ∨ t.seconds = u.seconds ∧ t.nanos < u.nanos

end Instant

namespace ServerClock

/-- Counting into an instant with every number in a word. -/
def ofWord? (micros : Nat) : Option Instant := do
  let micros ← word? micros
  let total ← word? (micros + epochMicros)
  Instant.ofParts? (total / 1000000) ((total % 1000000).toNat * 1000)

/-- Counting an instant with every number in a word. -/
def toWord? (t : Instant) : Option Int := do
  let seconds ← word? (t.seconds * 1000000)
  let total ← word? (seconds + (t.nanos / 1000 : Nat))
  word? (total - epochMicros)

theorem epochMicros_eq : epochMicros = yearStart 2000 := by decide

theorem firstSecond_eq : firstSecond * 1000000 = yearStart (-262143) := by decide

theorem lastSecond_eq : (lastSecond + 1) * 1000000 = yearStart 262143 := by decide

/-- Whole microseconds are of an instant if their second is. -/
theorem inRange_iff {total : Int} :
    InRange (total / 1000000) ((total % 1000000).toNat * 1000) ↔
      yearStart (-262143) ≤ total ∧ total < yearStart 262143 := by
  have low : 0 ≤ total % 1000000 := Int.emod_nonneg _ (by decide)
  have high : total % 1000000 < 1000000 := Int.emod_lt_of_pos _ (by decide)
  rw [← firstSecond_eq, ← lastSecond_eq, InRange]
  omega

theorem toInstant?_eq_some {micros : Nat} {t : Instant} :
    toInstant? micros = some t ↔
      t.seconds = (yearStart 2000 + micros) / 1000000 ∧
      (t.nanos : Int) = (yearStart 2000 + micros) % 1000000 * 1000 := by
  have nonneg : 0 ≤ (yearStart 2000 + micros) % 1000000 := Int.emod_nonneg _ (by decide)
  rw [toInstant?, epochMicros_eq, Int.add_comm]
  constructor
  · intro made
    obtain ⟨within, same⟩ := Option.dite_none_right_eq_some.mp made
    cases same
    exact ⟨rfl, by dsimp only; omega⟩
  · rintro ⟨seconds, nanos⟩
    have parts : ((yearStart 2000 + micros) % 1000000).toNat * 1000 = t.nanos := by omega
    rw [← seconds, parts, Instant.ofParts?, dif_pos t.inRange]

/-- The calendar alone decides whether a count stands for an instant. -/
theorem exists_toInstant? {micros : Nat} :
    (∃ t, toInstant? micros = some t) ↔ yearStart 2000 + micros < yearStart 262143 := by
  have late : yearStart (-262143) ≤ yearStart 2000 := by decide
  rw [toInstant?, epochMicros_eq, Int.add_comm, Instant.ofParts?]
  constructor
  · rintro ⟨t, made⟩
    obtain ⟨within, -⟩ := Option.dite_none_right_eq_some.mp made
    exact (inRange_iff.mp within).2
  · intro before
    exact ⟨_, dif_pos (inRange_iff.mpr ⟨by omega, before⟩)⟩

theorem count_toInstant? {micros : Nat} {t : Instant} (made : toInstant? micros = some t) :
    t.count = (yearStart 2000 + micros) * 1000 := by
  obtain ⟨seconds, nanos⟩ := toInstant?_eq_some.mp made
  rw [Instant.count, seconds, nanos]
  omega

theorem ofInstant_toInstant? {micros : Nat} {t : Instant} (made : toInstant? micros = some t) :
    ofInstant t = micros := by
  obtain ⟨seconds, nanos⟩ := toInstant?_eq_some.mp made
  rw [ofInstant, seconds, epochMicros_eq]
  omega

theorem before_toInstant? {micros later : Nat} {t u : Instant} (made : toInstant? micros = some t)
    (made' : toInstant? later = some u) (before : micros < later) : t.Before u := by
  obtain ⟨seconds, nanos⟩ := toInstant?_eq_some.mp made
  obtain ⟨seconds', nanos'⟩ := toInstant?_eq_some.mp made'
  rw [Instant.Before, seconds, seconds']
  omega

theorem ofInstant_eq (t : Instant) : ofInstant t = t.count / 1000 - yearStart 2000 := by
  rw [ofInstant, epochMicros_eq, Instant.count]
  omega

/-- A count that a word does not hold is past the last instant. -/
theorem ofWord?_eq (micros : Nat) : ofWord? micros = toInstant? micros := by
  have last : yearStart 262143 < wordLimit := by decide
  have epoch : 0 < yearStart 2000 := by decide
  have limit : 0 < wordLimit := by decide
  by_cases within : yearStart 2000 + (micros : Int) < wordLimit
  · rw [ofWord?, word?_eq_some (by omega) (by omega), Option.bind_eq_bind, Option.bind_some, epochMicros_eq,
      word?_eq_some (by omega) (by omega), Option.bind_some, toInstant?, epochMicros_eq]
  · have none : toInstant? micros = none := Option.eq_none_iff_forall_ne_some.mpr fun t made =>
      within (Int.lt_trans (exists_toInstant?.mp ⟨t, made⟩) last)
    rw [none, ofWord?]
    by_cases held : (micros : Int) < wordLimit
    · rw [word?_eq_some (by omega) held, Option.bind_eq_bind, Option.bind_some, epochMicros_eq,
        word?_eq_none (by omega)]
      rfl
    · rw [word?_eq_none (Int.not_lt.mp held)]
      rfl

/-- No number on the way from an instant to its count leaves its word. -/
theorem toWord?_eq (t : Instant) : toWord? t = some (ofInstant t) := by
  obtain ⟨first, last, bound⟩ := t.inRange
  unfold firstSecond at first
  unfold lastSecond at last
  have epoch : epochMicros = 946684800000000 := by decide
  have limit : wordLimit = 9223372036854775808 := rfl
  rw [toWord?, word?_eq_some (by omega) (by omega), Option.bind_eq_bind, Option.bind_some,
    word?_eq_some (by omega) (by omega), Option.bind_some, word?_eq_some (by omega) (by omega)]
  rfl

/-- A count stands for an instant exactly if the calendar has one there: that many microseconds after
2000, and no other count stands for it. An instant in turn always has a count, the floor of its
microseconds, which stands for the instant without the parts of a microsecond wherever it stands for
one. Both hold of numbers as large as they get and of numbers in words. -/
theorem toInstant?_ofInstant :
    (∀ micros, ofWord? micros = toInstant? micros) ∧
    (∀ micros, (∃ t, toInstant? micros = some t) ↔
      yearStart (-262143) ≤ yearStart 2000 + micros ∧ yearStart 2000 + micros < yearStart 262143) ∧
    (∀ micros t, toInstant? micros = some t →
      t.count = (yearStart 2000 + micros) * 1000 ∧ t.nanos < 1000000000 ∧ t.nanos % 1000 = 0 ∧
      ofInstant t = micros) ∧
    (∀ micros later t u, toInstant? micros = some t → toInstant? later = some u →
      micros < later → t.Before u) ∧
    (∀ t, toWord? t = some (ofInstant t) ∧ ofInstant t = t.count / 1000 - yearStart 2000) ∧
    (∀ t, yearStart 2000 ≤ t.count / 1000 → t.count / 1000 < yearStart 262143 →
      ∃ micros : Nat, ofInstant t = micros ∧
        ∃ u, toInstant? micros = some u ∧ u.count = t.count / 1000 * 1000) := by
  have early : yearStart (-262143) ≤ yearStart 2000 := by decide
  refine ⟨ofWord?_eq, fun micros => ?_, fun micros t made => ?_,
    fun micros later t u made made' => before_toInstant? made made',
    fun t => ⟨toWord?_eq t, ofInstant_eq t⟩, fun t since before => ?_⟩
  · rw [exists_toInstant?]
    exact ⟨fun before => ⟨by omega, before⟩, And.right⟩
  · obtain ⟨-, nanos⟩ := toInstant?_eq_some.mp made
    exact ⟨count_toInstant? made, by omega, by omega, ofInstant_toInstant? made⟩
  · have counted := ofInstant_eq t
    have nonneg : 0 ≤ ofInstant t := by omega
    obtain ⟨micros, same⟩ := Int.eq_ofNat_of_zero_le nonneg
    have there : yearStart 2000 + micros = t.count / 1000 := by omega
    have before' : yearStart 2000 + micros < yearStart 262143 := by omega
    obtain ⟨u, made⟩ := exists_toInstant?.mpr before'
    refine ⟨micros, same, u, made, ?_⟩
    rw [count_toInstant? made, there]

example : (toInstant? 1500001).map (fun t => (t.seconds, t.nanos)) = some (946684801, 500001000) := by decide

end ServerClock

end ChangeFeed.Time
