import ChangeFeed.Conninfo.Strip
import ChangeFeed.Conninfo.Target
import ChangeFeed.Digest.Md5
import ChangeFeed.Digest.Sha256
import ChangeFeed.Error
import ChangeFeed.Text.Base64

/-!
Which server a replication connection goes to and how it logs in there.
-/
namespace ChangeFeed.Session

structure Login where
  user : String
  database : String
  password : Option Bytes
  applicationName : Option String
  /-- Characters that nobody can guess, chosen anew for each login. -/
  seed : String
  /-- How many salted exchanges the login has gone through. -/
  exchanges : Nat
deriving DecidableEq, Repr

namespace Login

def params (l : Login) : List (String × String) :=
  [("user", l.user), ("database", l.database), ("replication", "database"),
    ("client_encoding", "UTF8")] ++ (l.applicationName.map ("application_name", ·)).toList

/-- What the next salted exchange begins with; no two of a login begin alike. -/
def nonce (l : Login) : String :=
  Text.Base64.encodeString
    (Digest.Sha256.digest (Bytes.ofString (l.seed ++ Text.Numeral.decimal l.exchanges)))

/-- The login with another salted exchange behind it. -/
def renew (l : Login) : Login := { l with exchanges := l.exchanges + 1 }

def hexText (bs : Bytes) : Bytes := Bytes.ofString (String.join (bs.map hexByte))

/-- What a server gets that asks for a digest of the password with its salt. -/
def saltedDigest (user : String) (password salt : Bytes) : Bytes :=
  let inner := hexText (Digest.Md5.digest (password ++ Bytes.ofString user))
  Bytes.ofString "md5" ++ hexText (Digest.Md5.digest (inner ++ salt))

end Login

/-- Where to connect, for how many seconds to try, and how to log in. -/
structure Address where
  host : String
  port : Nat
  limit : Nat
  login : Login
deriving DecidableEq, Repr

/-- The first host and the first port count; a time limit of the connection string goes before
`limit`. -/
def Address.ofTarget (t : Conninfo.Target) (limit : Nat) (seed : String) : Except Error Address := do
  let some user := t.user | .error (.connection .noUser)
  let host ← match t.hosts.head? with
    | some (.name host) => .ok host
    | some (.socket _) => .error (.connection .unixSocket)
    | none => .ok "localhost"
  return ⟨host, t.ports.headD Conninfo.defaultPort, t.connectTimeout.getD limit,
    ⟨user, t.database.getD user, t.password, t.applicationName, seed, 0⟩⟩

def Address.ofString (conninfo : String) (limit : Nat) (seed : String) : Except Error Address := do
  let t ← (Conninfo.Target.ofString (Conninfo.stripReplication conninfo)).mapError fun fault =>
    .connection (.invalidTarget fault.text)
  ofTarget t limit seed

end ChangeFeed.Session
