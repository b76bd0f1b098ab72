import ChangeFeed.Proofs.Text.Numerals
import ChangeFeed.Proofs.Time.Calendar
import ChangeFeed.Time.Timestamp

/-!
The texts that stand for an instant: its date and time of day at some offset, part by part, with any
blanks before each part, fewer digits than usual or more, and every notation of the offset. Main
statement: each of them is read as the instant, also when it is the leap second of a minute; any other
leap second is written, and so is read, as the second after it.
-/
namespace ChangeFeed.Time

namespace Timestamp

open Text

/-- Digits of the value `n`. -/
structure SpellsNumber (n : Nat) (ds : List Char) : Prop where
  digits : ∀ c ∈ ds, c.isDigit = true
  value : Numeral.read? 10 ds = some n

inductive SpellsField (n : Nat) : List Char → Prop
  | mk {blanks ds : List Char} (blank : ∀ c ∈ blanks, isBlank c = true) (number : SpellsNumber n ds)
    (few : ds.length ≤ 2) : SpellsField n (blanks ++ ds)

inductive SpellsMark (c : Char) : List Char → Prop
  | mk {blanks : List Char} (blank : ∀ c ∈ blanks, isBlank c = true) : SpellsMark c (blanks ++ [c])

/-- Only a year with a sign may have more than four digits. -/
inductive SpellsYear : Int → List Char → Prop
  | plain {blanks ds : List Char} {n : Nat} (blank : ∀ c ∈ blanks, isBlank c = true)
    (number : SpellsNumber n ds) (few : ds.length ≤ 4) : SpellsYear n (blanks ++ ds)
  | plus {blanks ds : List Char} {n : Nat} (blank : ∀ c ∈ blanks, isBlank c = true)
    (number : SpellsNumber n ds) : SpellsYear n (blanks ++ '+' :: ds)
  | minus {blanks ds : List Char} {n : Nat} (blank : ∀ c ∈ blanks, isBlank c = true)
    (number : SpellsNumber n ds) : SpellsYear (-n) (blanks ++ '-' :: ds)

inductive SpellsDate (d : Date) : List Char → Prop
  | mk {year hyphen month hyphen' day : List Char} (ofYear : SpellsYear d.year year)
    (ofHyphen : SpellsMark '-' hyphen) (ofMonth : SpellsField d.month month)
    (ofHyphen' : SpellsMark '-' hyphen') (ofDay : SpellsField d.day day) :
    SpellsDate d (year ++ (hyphen ++ (month ++ (hyphen' ++ day))))

/-- Nanoseconds are the first nine digits after a point, zeros where there are fewer. -/
inductive SpellsFraction : Nat → List Char → Prop
  | none : SpellsFraction 0 []
  | point {ds : List Char} {nanos : Nat} (some : ds ≠ []) (digits : ∀ c ∈ ds, c.isDigit = true)
    (value : Numeral.read? 10 ((ds ++ List.replicate 9 '0').take 9) = .some nanos) :
    SpellsFraction nanos ('.' :: ds)

inductive SpellsClock (k : Clock) : List Char → Prop
  | mk {hour colon minute colon' second fraction : List Char} (ofHour : SpellsField k.hour hour)
    (ofColon : SpellsMark ':' colon) (ofMinute : SpellsField k.minute minute)
    (ofColon' : SpellsMark ':' colon') (ofSecond : SpellsField k.second second)
    (ofNanos : SpellsFraction k.nanos fraction) :
    SpellsClock k (hour ++ (colon ++ (minute ++ (colon' ++ (second ++ fraction)))))

/-- Two digits of hours and two of minutes, together or apart. -/
inductive SpellsSpan : Nat → List Char → Prop
  | mk {a b c d : Char} {gap : List Char} {hours minutes : Nat}
    (ofHours : SpellsNumber hours [a, b]) (separates : ∀ c ∈ gap, isSeparatorOfMinutes c = true)
    (ofMinutes : SpellsNumber minutes [c, d]) (within : minutes < 60) :
    SpellsSpan (hours * 3600 + minutes * 60) (a :: b :: (gap ++ [c, d]))

inductive SpellsOffset : Int → List Char → Prop
  | zulu {c : Char} (letter : c = 'Z' ∨ c = 'z') : SpellsOffset 0 [c]
  | utc {a b c : Char} (first : a = 'U' ∨ a = 'u') (second : b = 'T' ∨ b = 't')
    (third : c = 'C' ∨ c = 'c') : SpellsOffset 0 [a, b, c]
  | east {seconds : Nat} {span : List Char} (ofSpan : SpellsSpan seconds span) :
    SpellsOffset seconds ('+' :: span)
  | west {sign : Char} {seconds : Nat} {span : List Char} (minus : sign = '-' ∨ sign = '\u2212')
    (ofSpan : SpellsSpan seconds span) : SpellsOffset (-seconds) (sign :: span)

end Timestamp

namespace Instant

variable (t : Instant)

/-- Its text stands for it alone. A leap second that does not end a minute is written like the second after
it. -/
def Legible : Prop := 1000000000 ≤ t.nanos → t.seconds % 60 = 59

instance : Decidable t.Legible := inferInstanceAs (Decidable (1000000000 ≤ t.nanos → t.seconds % 60 = 59))

/-- The instant that its text stands for. -/
def asRead : Instant :=
  if legible : t.Legible then t
  else ⟨t.seconds + 1, t.nanos - 1000000000, by
    obtain ⟨first, last, bound⟩ := t.inRange
    unfold Legible at legible
    unfold firstSecond at first
    unfold lastSecond at last
    unfold InRange firstSecond lastSecond
    omega⟩

variable {t}

theorem asRead_of_legible (legible : t.Legible) : t.asRead = t := dif_pos legible

theorem asRead_seconds (other : ¬ t.Legible) : t.asRead.seconds = t.seconds + 1 := by
  rw [asRead, dif_neg other]

theorem asRead_nanos (other : ¬ t.Legible) : t.asRead.nanos = t.nanos - 1000000000 := by
  rw [asRead, dif_neg other]

/-- What reading makes of an instant: a leap second that does not end a minute becomes the second after it,
and all else stays as it is. -/
structure ReadAs (t found : Instant) : Prop where
  kept : (1000000000 ≤ t.nanos → t.seconds % 60 = 59) → found = t
  next : 1000000000 ≤ t.nanos → t.seconds % 60 ≠ 59 →
    found.seconds = t.seconds + 1 ∧ found.nanos + 1000000000 = t.nanos

variable (t)

theorem readAs_asRead : t.ReadAs t.asRead := by
  refine ⟨asRead_of_legible, fun leap inside => ?_⟩
  have other : ¬ t.Legible := fun legible => inside (legible leap)
  rw [asRead_seconds other, asRead_nanos other]
  exact ⟨rfl, Nat.sub_add_cancel leap⟩

/-- The day that it is where clocks are `offset` seconds ahead of universal time. -/
def dateAt (offset : Int) : Date := Date.ofDays ((t.seconds + offset) / 86400)

/-- What a clock shows that is `offset` seconds ahead of universal time; a leap second is second 60. -/
def clockAt (offset : Int) : Timestamp.Clock where
  hour := ((t.seconds + offset) % 86400).toNat / 3600
  minute := ((t.seconds + offset) % 86400).toNat / 60 % 60
  second := ((t.seconds + offset) % 86400).toNat % 60 + t.nanos / 1000000000
  nanos := t.nanos % 1000000000

end Instant

namespace Timestamp

open Text

inductive Spells (t : Instant) : List Char → Prop
  | mk {offset : Int} {separator : Char} {date clock blanks zone blanks' : List Char}
    (day : offset.natAbs < 86400)
    (years : -262143 ≤ (t.dateAt offset).year ∧ (t.dateAt offset).year ≤ 262142)
    (ofDate : SpellsDate (t.dateAt offset) date)
    (separates : separator = 'T' ∨ separator = 't' ∨ isBlank separator = true)
    (ofClock : SpellsClock (t.clockAt offset) clock)
    (blank : ∀ c ∈ blanks, isBlank c = true) (ofOffset : SpellsOffset offset zone)
    (blank' : ∀ c ∈ blanks', isBlank c = true) :
    Spells t (date ++ separator :: (clock ++ (blanks ++ (zone ++ blanks'))))

section Blanks

theorem isBlank_of_isDigit {c : Char} (digit : c.isDigit = true) : isBlank c = false := by
  have range : 48 ≤ c.toNat ∧ c.toNat ≤ 57 := by
    rw [Char.isDigit_iff_toNat] at digit
    exact digit
  unfold isBlank
  simp only [Bool.or_eq_false_iff, Bool.and_eq_false_iff, decide_eq_false_iff_not, beq_eq_false_iff_ne]
  omega

theorem trimStart_cons {c : Char} (dark : isBlank c = false) (cs : List Char) :
    trimStart (c :: cs) = c :: cs := by
  rw [trimStart, List.dropWhile_cons, dark]
  rfl

variable {blanks : List Char} (blank : ∀ c ∈ blanks, isBlank c = true)
include blank

theorem trimStart_append (cs : List Char) : trimStart (blanks ++ cs) = trimStart cs :=
  List.dropWhile_append_of_pos blank

theorem trimStart_blanks : trimStart blanks = [] := by
  rw [← List.append_nil blanks, trimStart_append blank]
  rfl

end Blanks

/-- What may follow digits that are read to their end. -/
def Ends (cs : List Char) : Prop := ∀ c ∈ cs.head?, c.isDigit = false

theorem ends_cons {c : Char} (other : c.isDigit = false) (cs : List Char) : Ends (c :: cs) := by
  rintro d ⟨⟩
  exact other

theorem isDigit_of_isBlank {c : Char} (blank : isBlank c = true) : c.isDigit = false :=
  Bool.eq_false_iff.mpr fun digit => by
    rw [isBlank_of_isDigit digit] at blank
    cases blank

theorem head_append {P : Char → Prop} {blanks cs : List Char} (blank : ∀ c ∈ blanks, isBlank c = true)
    (ofBlank : ∀ c, isBlank c = true → P c) (next : ∀ c ∈ cs.head?, P c) :
    ∀ c ∈ (blanks ++ cs).head?, P c := by
  cases blanks with
  | nil => exact next
  | cons c blanks =>
    rintro d ⟨⟩
    exact ofBlank c (blank c List.mem_cons_self)

section Numbers

variable {n : Nat} {ds rest : List Char}

theorem digitsUpTo_append {limit : Option Nat} (digits : ∀ c ∈ ds, c.isDigit = true)
    (few : ∀ k ∈ limit, ds.length ≤ k) (ends : Ends rest) : digitsUpTo limit (ds ++ rest) = (ds, rest) := by
  induction ds generalizing limit with
  | nil =>
    match limit, rest with
    | some 0, _ => exact digitsUpTo.eq_1 _
    | none, [] | some (_ + 1), [] => rfl
    | none, c :: cs | some (_ + 1), c :: cs => simp [digitsUpTo, ends c rfl]
  | cons c ds ih =>
    have digit := digits c List.mem_cons_self
    have others : ∀ d ∈ ds, d.isDigit = true := fun d member => digits d (List.mem_cons_of_mem c member)
    match limit with
    | some 0 => exact absurd (few 0 rfl) (Nat.not_succ_le_zero _)
    | none =>
      have unlimited : ∀ k ∈ (none : Option Nat), ds.length ≤ k := by simp
      simp [digitsUpTo, digit, ih others unlimited]
    | some (k + 1) =>
      have fewer : ∀ j ∈ some k, ds.length ≤ j := by
        rintro j ⟨⟩
        exact Nat.le_of_succ_le_succ (few (k + 1) rfl)
      simp [digitsUpTo, digit, ih others fewer]

theorem SpellsNumber.read (number : SpellsNumber n ds) {limit : Option Nat} (few : ∀ k ∈ limit, ds.length ≤ k)
    (ends : Ends rest) : number? limit (ds ++ rest) = some (n, rest) := by
  rw [number?, digitsUpTo_append number.digits few ends]
  exact congrArg (Option.map (·, rest)) number.value

theorem SpellsNumber.head (number : SpellsNumber n ds) : ∃ c cs, ds = c :: cs ∧ c.isDigit = true := by
  cases ds with
  | nil => cases number.value
  | cons c cs => exact ⟨c, cs, rfl, number.digits c List.mem_cons_self⟩

theorem SpellsNumber.trimStart (number : SpellsNumber n ds) : trimStart (ds ++ rest) = ds ++ rest := by
  obtain ⟨c, cs, rfl, digit⟩ := number.head
  exact trimStart_cons (isBlank_of_isDigit digit) _

theorem SpellsField.read {cs : List Char} (field : SpellsField n cs) (ends : Ends rest) :
    field? (cs ++ rest) = some (n, rest) := by
  obtain ⟨blank, number, few⟩ := field
  rw [field?, List.append_assoc, trimStart_append blank, number.trimStart]
  exact number.read (by rintro k ⟨⟩; exact few) ends

end Numbers

section Marks

variable {c : Char} {cs rest : List Char} (mark : SpellsMark c cs)
include mark

theorem SpellsMark.read (dark : isBlank c = false) : mark? c (cs ++ rest) = some rest := by
  obtain ⟨blank⟩ := mark
  rw [mark?, List.append_assoc, trimStart_append blank, List.singleton_append, trimStart_cons dark]
  exact if_pos rfl

theorem SpellsMark.ends (other : c.isDigit = false) : Ends (cs ++ rest) := by
  obtain ⟨blank⟩ := mark
  rw [List.append_assoc]
  exact head_append blank (fun _ => isDigit_of_isBlank) (ends_cons other rest)

end Marks

theorem SpellsYear.read {y : Int} {cs rest : List Char} (year : SpellsYear y cs) (ends : Ends rest) :
    year? (cs ++ rest) = some (y, rest) := by
  cases year with
  | plain blank number few =>
    have read : number? (some 4) _ = _ := number.read (by rintro k ⟨⟩; exact few) ends
    obtain ⟨c, cs, rfl, digit⟩ := number.head
    rw [year?, List.append_assoc, trimStart_append blank, number.trimStart]
    split
    · rename_i same; cases same; cases digit
    · rename_i same; cases same; cases digit
    · rw [read]
      rfl
  | plus blank number =>
    rw [year?, List.append_assoc, trimStart_append blank, List.cons_append, trimStart_cons rfl]
    exact congrArg (Option.map _) (number.read (by simp) ends)
  | minus blank number =>
    rw [year?, List.append_assoc, trimStart_append blank, List.cons_append, trimStart_cons rfl]
    exact congrArg (Option.map _) (number.read (by simp) ends)

theorem SpellsDate.read {d : Date} {cs rest : List Char} (date : SpellsDate d cs) (ends : Ends rest) :
    date? (cs ++ rest) = some (d, rest) := by
  obtain ⟨year, hyphen, month, hyphen', day⟩ := date
  simp only [date?, List.append_assoc, Option.bind_eq_bind, year.read (hyphen.ends rfl), Option.bind_some,
    hyphen.read rfl, month.read (hyphen'.ends rfl), hyphen'.read rfl, day.read ends]
  rfl

theorem SpellsFraction.read {nanos : Nat} {cs rest : List Char} (fraction : SpellsFraction nanos cs)
    (ends : Ends rest) (pointless : ∀ c ∈ rest.head?, c ≠ '.') :
    fraction? (cs ++ rest) = some (nanos, rest) := by
  cases fraction with
  | none =>
    rw [List.nil_append, fraction?.eq_def]
    split
    · exact absurd rfl (pointless '.' rfl)
    · rfl
  | @point ds _ some digits value =>
    have first : (ds ++ List.replicate 9 '0').take 9 =
        ds.take 9 ++ List.replicate (9 - (ds.take 9).length) '0' := by
      rw [List.take_append, List.take_replicate, List.length_take]
      congr 2
      omega
    rw [first, Numeral.read?_append_zeros (by simpa using some), Option.map_eq_some_iff] at value
    obtain ⟨n, value, rfl⟩ := value
    rw [List.cons_append, fraction?, digitsUpTo_append digits (by simp) ends]
    dsimp only
    rw [value]
    rfl

theorem SpellsFraction.ends {nanos : Nat} {cs rest : List Char} (fraction : SpellsFraction nanos cs)
    (ends : Ends rest) : Ends (cs ++ rest) := by
  cases fraction with
  | none => exact ends
  | point => exact ends_cons rfl _

theorem SpellsClock.read {k : Clock} {cs rest : List Char} (clock : SpellsClock k cs) (ends : Ends rest)
    (pointless : ∀ c ∈ rest.head?, c ≠ '.') : clock? (cs ++ rest) = some (k, rest) := by
  obtain ⟨hour, colon, minute, colon', second, nanos⟩ := clock
  simp only [clock?, List.append_assoc, Option.bind_eq_bind, hour.read (colon.ends rfl), Option.bind_some,
    colon.read rfl, minute.read (colon'.ends rfl), colon'.read rfl, second.read (nanos.ends ends),
    nanos.read ends pointless]
  rfl

theorem SpellsSpan.read {seconds : Nat} {cs rest : List Char} (span : SpellsSpan seconds cs) :
    span? (cs ++ rest) = some ((seconds : Int), rest) := by
  obtain @⟨a, b, c, d, gap, hours, minutes, ofHours, separates, ofMinutes, within⟩ := span
  have few : hours < 100 := Numeral.read?_lt ofHours.value
  have digit := ofMinutes.digits c List.mem_cons_self
  have past : (gap ++ [c, d] ++ rest).dropWhile isSeparatorOfMinutes = c :: d :: rest := by
    rw [List.append_assoc, List.dropWhile_append_of_pos separates]
    have other : isSeparatorOfMinutes c = false := by
      rw [isSeparatorOfMinutes, isBlank_of_isDigit digit, Bool.or_false, beq_eq_false_iff_ne]
      rintro rfl
      cases digit
    rw [List.cons_append, List.dropWhile_cons, other]
    rfl
  simp only [span?, List.cons_append, pair?, ofHours.value, Option.bind_eq_bind, Option.bind_some, if_pos few,
    past, ofMinutes.value, if_pos within]
  rfl

theorem SpellsOffset.read {offset : Int} {blanks zone rest : List Char}
    (blank : ∀ c ∈ blanks, isBlank c = true) (spells : SpellsOffset offset zone) :
    offset? (blanks ++ (zone ++ rest)) = some (offset, rest) := by
  rw [offset?, trimStart_append blank]
  cases spells with
  | zulu letter => rcases letter with rfl | rfl <;> rfl
  | utc first second third =>
    rcases first with rfl | rfl <;> rcases second with rfl | rfl <;> rcases third with rfl | rfl <;> rfl
  | east span =>
    rw [List.cons_append, trimStart_cons rfl]
    exact span.read
  | west minus span =>
    rcases minus with rfl | rfl
    all_goals
      rw [List.cons_append, trimStart_cons rfl]
      exact congrArg (Option.map fun p => (-p.1, p.2)) span.read

theorem SpellsOffset.head {offset : Int} {zone : List Char} (spells : SpellsOffset offset zone)
    (rest : List Char) : ∀ c ∈ (zone ++ rest).head?, c.isDigit = false ∧ c ≠ '.' := by
  cases spells with
  | zulu letter => rcases letter with rfl | rfl <;> simp
  | utc first => rcases first with rfl | rfl <;> simp
  | east => simp
  | west minus => rcases minus with rfl | rfl <;> simp

theorem SpellsOffset.minutes {offset : Int} {zone : List Char} (spells : SpellsOffset offset zone) :
    offset % 60 = 0 := by
  cases spells with
  | zulu | utc => rfl
  | east span | west _ span =>
    obtain ⟨⟩ := span
    omega

end Timestamp

namespace Instant

open Timestamp

variable (t : Instant)

/-- What its date and time of day stand for at any offset of whole minutes. -/
theorem resolve?_at {offset : Int} (minutes : offset % 60 = 0) (day : offset.natAbs < 86400)
    (years : -262143 ≤ (t.dateAt offset).year ∧ (t.dateAt offset).year ≤ 262142) :
    resolve? (t.dateAt offset) (t.clockAt offset) offset = some t.asRead := by
  have real : (t.dateAt offset).Exists := Date.exists_ofDays _
  have days : (t.dateAt offset).toDays = (t.seconds + offset) / 86400 := Date.toDays_ofDays _
  have second : (((t.seconds + offset) % 86400).toNat : Int) = (t.seconds + offset) % 86400 :=
    Int.toNat_of_nonneg (Int.emod_nonneg _ (by decide))
  have bound := t.inRange.2.2
  unfold clockAt
  generalize ((t.seconds + offset) % 86400).toNat = s at second
  obtain ⟨shown, nanos⟩ : ((min (s % 60 + t.nanos / 1000000000) 59 : Nat) : Int) =
        s % 60 + (t.asRead.seconds - t.seconds) ∧
      (if s % 60 + t.nanos / 1000000000 = 60 then 1000000000 + t.nanos % 1000000000
        else t.nanos % 1000000000) = t.asRead.nanos := by
    by_cases legible : t.Legible
    · rw [asRead_of_legible legible]
      unfold Legible at legible
      refine ⟨by omega, ?_⟩
      split <;> omega
    · rw [asRead_seconds legible, asRead_nanos legible]
      unfold Legible at legible
      refine ⟨by omega, ?_⟩
      split <;> omega
  have sum : (t.dateAt offset).toDays * 86400 + ((s / 3600 * 3600 + s / 60 % 60 * 60 +
      min (s % 60 + t.nanos / 1000000000) 59 : Nat) : Int) - offset = t.asRead.seconds := by
    rw [days]
    omega
  have dated : (decide (t.dateAt offset).Exists && -262143 ≤ (t.dateAt offset).year &&
      (t.dateAt offset).year ≤ 262142) = true := by
    simp [real, years]
  have timed : (decide (s / 3600 < 24) && decide (s / 60 % 60 < 60) &&
      decide (s % 60 + t.nanos / 1000000000 ≤ 60) && decide (offset.natAbs < 86400)) = true := by
    simp
    omega
  unfold resolve?
  dsimp only
  rw [nanos, sum, dated, timed]
  change ofParts? t.asRead.seconds t.asRead.nanos = some t.asRead
  exact dif_pos t.asRead.inRange

/-- Whatever notation is chosen for the parts of an instant, its text stands for the same instant. -/
theorem read?_spells {cs : List Char} (spells : Spells t cs) :
    Timestamp.read? (String.ofList cs) = some t.asRead := by
  obtain ⟨day, years, ofDate, separates, ofClock, blank, ofOffset, blank'⟩ := spells
  rename_i offset separator date clock blanks zone blanks'
  have mark : separator.isDigit = false := by
    rcases separates with rfl | rfl | blank
    · rfl
    · rfl
    · exact isDigit_of_isBlank blank
  have ends : ∀ c ∈ (blanks ++ (zone ++ blanks')).head?, c.isDigit = false ∧ c ≠ '.' :=
    head_append blank (fun c blank => ⟨isDigit_of_isBlank blank, by rintro rfl; cases blank⟩)
      (ofOffset.head blanks')
  have date' := ofDate.read (ends_cons mark (clock ++ (blanks ++ (zone ++ blanks'))))
  have clock' := ofClock.read (fun c member => (ends c member).1) (fun c member => (ends c member).2)
  have mark' : separator? (separator :: (clock ++ (blanks ++ (zone ++ blanks')))) =
      some (clock ++ (blanks ++ (zone ++ blanks'))) := by
    rw [separator?, if_pos separates]
  rw [Timestamp.read?, String.toList_ofList, date']
  dsimp only [Option.bind_eq_bind, Option.bind_some]
  rw [mark', Option.bind_some, clock', Option.bind_some, ofOffset.read blank, Option.bind_some,
    trimStart_blanks blank']
  exact t.resolve?_at ofOffset.minutes day years

example : (Timestamp.read? "+2017-1-01t 0:59:60.25 +01 00").map (fun t => (t.seconds, t.nanos)) =
    some (1483228799, 1250000000) := by decide +kernel

end Instant

end ChangeFeed.Time
