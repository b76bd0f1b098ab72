import ChangeFeed.Time.Calendar

/-!
Instants of universal time between two years far enough apart, to the nanosecond. A leap second is
the second that another one goes on into, most often the last one of a minute.
-/
namespace ChangeFeed.Time

/-- The first second of the year -262143. -/
def firstSecond : Int := -8334601228800

/-- The last second of the year 262142. -/
def lastSecond : Int := 8210266876799

/-- Whether a second and its nanoseconds name an instant. Nanoseconds past the second are a leap
second, which any second may have. -/
def InRange (seconds : Int) (nanos : Nat) : Prop :=
  firstSecond ≤ seconds ∧ seconds ≤ lastSecond ∧ nanos < 2000000000

instance (seconds : Int) (nanos : Nat) : Decidable (InRange seconds nanos) := by
  unfold InRange; infer_instance

/-- An instant, as seconds from 1970-01-01 and nanoseconds from there. -/
structure Instant where
  seconds : Int
  nanos : Nat
  inRange : InRange seconds nanos
deriving DecidableEq, Repr

namespace Instant

def epoch : Instant := ⟨0, 0, by decide⟩

instance : Inhabited Instant := ⟨epoch⟩

def ofParts? (seconds : Int) (nanos : Nat) : Option Instant :=
  if h : InRange seconds nanos then some ⟨seconds, nanos, h⟩ else none

@[ext] theorem ext {a b : Instant} (hs : a.seconds = b.seconds) (hn : a.nanos = b.nanos) : a = b := by
  cases a; cases b; cases hs; cases hn; rfl

def date (t : Instant) : Date := Date.ofDays (t.seconds / 86400)

def secondOfDay (t : Instant) : Nat := (t.seconds % 86400).toNat

end Instant

end ChangeFeed.Time
