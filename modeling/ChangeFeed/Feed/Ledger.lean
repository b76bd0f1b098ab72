import ChangeFeed.Lsn

/-!
Which position may be reported to the server. Main statement: the reported position never falls.
-/
namespace ChangeFeed.Feed

structure Ledger where
  /-- The end of the last record handed to the consumer. -/
  forwarded : Lsn
  /-- The end of the furthest record dropped without being handed on. -/
  skipped : Lsn
  /-- The highest position reported. -/
  reported : Lsn
deriving DecidableEq, Repr

namespace Ledger

def fresh : Ledger := ⟨.zero, .zero, .zero⟩

def forward (g : Ledger) (l : Lsn) : Ledger := { g with forwarded := l }

def skip (g : Ledger) (l : Lsn) : Ledger := { g with skipped := max g.skipped l }

/-- The position that the consumer's confirmation stands for: dropped records hold nothing back once
everything handed on is confirmed. -/
def candidate (g : Ledger) (acked : Lsn) : Lsn :=
  if g.forwarded ≤ acked ∧ acked < g.skipped then g.skipped else acked

def report (g : Ledger) (acked : Lsn) : Ledger :=
  { g with reported := max g.reported (g.candidate acked) }

theorem reported_le_report (g : Ledger) (acked : Lsn) :
    g.reported.offset ≤ (g.report acked).reported.offset := by
  simp only [report, Lsn.offset_max]
  omega

end Ledger

end ChangeFeed.Feed
