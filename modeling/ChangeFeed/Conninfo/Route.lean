import ChangeFeed.Conninfo.Target

/-!
The servers that a connection string names, in the order in which they are tried.
-/
namespace ChangeFeed.Conninfo

structure Route where
  host : Host
  port : Nat
deriving DecidableEq, Repr

inductive RouteFault
  | noHost
  | addressCount (hosts addresses : Nat)
  | portCount
deriving DecidableEq, Repr

def RouteFault.text : RouteFault → String
  | .noHost => "both host and hostaddr are missing"
  | .addressCount hosts addresses =>
    s!"number of hosts ({hosts}) is different from number of hostaddrs ({addresses})"
  | .portCount => "invalid number of ports"

/-- Numeric addresses take the place of host names; one port, or none, serves for all hosts. -/
def Target.routes (t : Target) : Except RouteFault (List Route) :=
  let hosts := if t.addresses = [] then t.hosts else t.addresses.map .name
  if hosts = [] then .error .noHost
  else if t.hosts ≠ [] ∧ t.addresses ≠ [] ∧ t.hosts.length ≠ t.addresses.length then
    .error (.addressCount t.hosts.length t.addresses.length)
  else if 1 < t.ports.length ∧ t.ports.length ≠ hosts.length then .error .portCount
  else .ok (hosts.mapIdx fun i host => ⟨host, t.ports.getD i (t.ports.headD defaultPort)⟩)

end ChangeFeed.Conninfo
