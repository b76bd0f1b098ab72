/-!
The clock of the surroundings.
-/
namespace ChangeFeed.Time

class Clock (m : Type → Type) where
  /-- Milliseconds since some moment; it never goes back. -/
  now : m Nat
  /-- Microseconds since 2000-01-01 on the wall. -/
  wall : m Int
  /-- Waits until something happens or, where a time is given, until then. -/
  wait : Option Nat → m Unit

end ChangeFeed.Time
