import ChangeFeed.Connections
import ChangeFeed.Control.Catalog
import ChangeFeed.Feed.Schedule

/-!
The feed of a capture: what it works with are the connections that it owns, the loader of metadata,
and the clock.
-/
namespace ChangeFeed.Feed

class Witness (m : Type → Type) (μ : outParam Type) where
  record : List (Event μ) → m Unit

/-- What a feed has at hand: connections and loader are its own, the confirmed position is the
consumer's. -/
structure Desk (κ ρ σ : Type) where
  connections : Connections κ ρ
  loader : σ
  acked : Lsn
  refreshed : Option (Except Error Unit)

namespace Desk

variable {m : Type → Type} {κ ρ σ μ : Type} [Monad m]

def withReplication {α : Type} (absent : α) (f : ρ → m (α × ρ)) : StateT (Desk κ ρ σ) m α := do
  let d ← get
  match d.connections.replication with
  | some r =>
    let (a, r) ← f r
    set { d with connections := { d.connections with replication := some r } }
    return a
  | none => return absent

instance [Transport m ρ] [Control.Database m κ] [Control.SchemaLoader m σ] [Time.Clock m] [Witness m μ] :
    Surroundings (StateT (Desk κ ρ σ) m) μ where
  view := do return ⟨← Time.Clock.now (m := m), (← get).acked, ← Time.Clock.wall (m := m)⟩
  poll := withReplication none Transport.poll
  report u := withReplication (.error (.replication .notOpen)) (Transport.report · u)
  startRefresh := do
    let d ← get
    let (result, loader) ← Control.SchemaLoader.refresh (m := m) d.loader
    set { d with loader, refreshed := some result }
  pollRefresh := return (← get).refreshed
  close := do
    let d ← get
    set { d with connections := ← d.connections.close (m := m) }
  record es := Witness.record (m := m) es

end Desk

end ChangeFeed.Feed
