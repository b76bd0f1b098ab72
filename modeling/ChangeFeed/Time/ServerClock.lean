import ChangeFeed.Time.Instant

/-!
The clock of the replication protocol: whole microseconds since 2000-01-01.
-/
namespace ChangeFeed.Time.ServerClock

/-- Seconds from 1970-01-01 to 2000-01-01. -/
def epoch : Int := 946684800

def epochMicros : Int := epoch * 1000000

/-- The instant `micros` after 2000-01-01, unless it is beyond the range of instants. -/
def toInstant? (micros : Nat) : Option Instant :=
  let total := (micros : Int) + epochMicros
  Instant.ofParts? (total / 1000000) ((total % 1000000).toNat * 1000)

/-- Microseconds since 2000-01-01; parts of a microsecond are dropped. -/
def ofInstant (t : Instant) : Int :=
  t.seconds * 1000000 + (t.nanos / 1000 : Nat) - epochMicros

end ChangeFeed.Time.ServerClock
