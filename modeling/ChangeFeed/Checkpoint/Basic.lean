import ChangeFeed.Lsn
import ChangeFeed.Time.Instant

/-!
Positions to resume from, the changes that carry them, and the position a consumer has confirmed.
-/
namespace ChangeFeed

/-- A position just past a record, with the commit time of the record's transaction. Position zero
stands for wherever the server is. -/
structure Checkpoint where
  lsn : Lsn
  time : Time.Instant
deriving DecidableEq, Repr

instance : Inhabited Checkpoint := ⟨⟨.zero, .epoch⟩⟩

/-- A decoded message with the position just past its record. -/
structure Change (μ : Type) where
  checkpoint : Checkpoint
  message : μ
deriving Repr

/-- The position that a consumer has confirmed last. It follows the consumer, also backwards. -/
structure Tracker where
  committed : Lsn
deriving DecidableEq, Repr

namespace Tracker

instance : Inhabited Tracker := ⟨⟨.zero⟩⟩

def commit (_ : Tracker) (c : Checkpoint) : Tracker := ⟨c.lsn⟩

def reset (_ : Tracker) (l : Lsn) : Tracker := ⟨l⟩

end Tracker

end ChangeFeed
