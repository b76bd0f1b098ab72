import ChangeFeed.Conninfo.Address
import ChangeFeed.Conninfo.Grammar
import ChangeFeed.Conninfo.Url
import ChangeFeed.Text.Percent
import ChangeFeed.Text.Utf8

/-!
What a connection string says about the server to reach and how to log in there.
-/
namespace ChangeFeed.Conninfo

open Text

inductive Host
  | name (s : String)
  /-- A folder on this machine that holds the server's socket. -/
  | socket (path : Bytes)
deriving DecidableEq, Repr

def Host.ofString (s : String) : Host :=
  if s.startsWith "/" then .socket (Bytes.ofString s) else .name s

inductive TlsMode
  | disable | prefer | require
deriving DecidableEq, Repr

inductive SessionKind
  | any | readWrite | readOnly
deriving DecidableEq, Repr

structure Target where
  user : Option String := none
  password : Option Bytes := none
  database : Option String := none
  options : Option String := none
  applicationName : Option String := none
  tls : TlsMode := .prefer
  /-- Whether a login that is not bound to its channel is refused. -/
  bindsChannel : Bool := false
  sessionKind : SessionKind := .any
  hosts : List Host := []
  addresses : List String := []
  ports : List Nat := []
  /-- Seconds that reaching the server may take. -/
  connectTimeout : Option Nat := none
deriving DecidableEq, Repr

def defaultPort : Nat := 5432

namespace Target

def ports? (value : String) : Option (List Nat) :=
  (parts ',' value.toList).mapM fun p =>
    if p = [] then some defaultPort else Numeral.unsigned? 10 UInt16.size p

def list (value : String) : List String := (parts ',' value.toList).map String.ofList

/-- A number of seconds; zero and negative ones set nothing. -/
def seconds? (value : String) : Option (Option Nat) :=
  (Numeral.signed? 10 (UInt64.size / 2) value.toList).map fun n => if 0 < n then some n.toNat else none

def choose {α : Type} (choices : List (String × α)) (key value : String) : Except Fault α :=
  match choices.lookup value with
  | some a => .ok a
  | none => .error (.invalidValue key)

def parse {α : Type} (key : String) (a : Option α) : Except Fault α :=
  match a with
  | some a => .ok a
  | none => .error (.invalidValue key)

/-- Takes a setting into account. The last of several settings of a key holds; hosts, addresses and
ports add up. -/
def set (t : Target) (key value : String) : Except Fault Target :=
  match key with
  | "user" => .ok { t with user := some value }
  | "password" => .ok { t with password := some (Bytes.ofString value) }
  | "dbname" => .ok { t with database := some value }
  | "options" => .ok { t with options := some value }
  | "application_name" => .ok { t with applicationName := some value }
  | "sslmode" =>
    return { t with
      tls := ← choose [("disable", .disable), ("prefer", .prefer), ("require", .require)] key value }
  | "sslnegotiation" => do
    choose [("postgres", ()), ("direct", ())] key value
    return t
  | "host" => .ok { t with hosts := t.hosts ++ (list value).map Host.ofString }
  | "hostaddr" =>
    if (list value).all Address.isAddress then .ok { t with addresses := t.addresses ++ list value }
    else .error (.invalidValue key)
  | "port" => return { t with ports := t.ports ++ (← parse key (ports? value)) }
  | "connect_timeout" =>
    return match ← parse key (seconds? value) with
      | some n => { t with connectTimeout := some n }
      | none => t
  | "tcp_user_timeout" | "keepalives_idle" | "keepalives_interval" => do
    let _ ← parse key (seconds? value)
    return t
  | "keepalives" => do
    let _ ← parse key (Numeral.unsigned? 10 UInt64.size value.toList)
    return t
  | "keepalives_retries" => do
    let _ ← parse key (Numeral.unsigned? 10 UInt32.size value.toList)
    return t
  | "target_session_attrs" =>
    return { t with
      sessionKind := ← choose [("any", .any), ("read-write", .readWrite), ("read-only", .readOnly)]
        key value }
  | "channel_binding" =>
    return { t with
      bindsChannel := ← choose [("disable", false), ("prefer", false), ("require", true)] key value }
  | "load_balance_hosts" => do
    choose [("disable", ()), ("random", ())] key value
    return t
  | _ => .error (.unknownOption key)

/-- The bytes that a part of a URL stands for. -/
def decodeBytes (cs : List Char) : Bytes := Percent.decode (Bytes.ofString (String.ofList cs))

def decodeText (cs : List Char) : Except Fault String :=
  (Utf8.decode (decodeBytes cs)).mapError fun _ => .invalidText

def decodeHost (cs : List Char) : Except Fault Host :=
  if (decodeBytes cs).head? = some 0x2f then .ok (.socket (decodeBytes cs))
  else (decodeText cs).map .name

/-- One host of a URL and its port as they are written; brackets hold an address with colons. -/
def hostAndPort? : List Char → Option (List Char × List Char)
  | '[' :: rest =>
    match cut? ']' rest with
    | some (host, ':' :: port) => some (host, port)
    | some (host, []) => some (host, "5432".toList)
    | _ => none
  | cs => some ((cut? ':' cs).getD (cs, "5432".toList))

def addHost (t : Target) (cs : List Char) : Except Fault Target := do
  let (host, port) ← parse "host" (hostAndPort? cs)
  let host ← decodeHost host
  { t with hosts := t.hosts ++ [host] }.set "port" (← decodeText port)

def addCredentials (t : Target) (cs : List Char) : Except Fault Target := do
  let (user, password) := match cut? ':' cs with
    | some (user, password) => (user, some (decodeBytes password))
    | none => (cs, none)
  return { t with user := some (← decodeText user), password := password <|> t.password }

def addParam (t : Target) (param : List Char × List Char) : Except Fault Target := do
  let key ← decodeText param.1
  if key = "host" then return { t with hosts := t.hosts ++ [← decodeHost param.2] }
  else t.set key (← decodeText param.2)

def ofUrl (u : Url) : Except Fault Target := do
  let t : Target := {}
  let t ← match u.credentials with
    | some cs => t.addCredentials cs
    | none => .ok t
  let t ← (if u.hosts = [] then [] else parts ',' u.hosts).foldlM addHost t
  let t ← if u.path = [] then .ok t else t.set "dbname" (← decodeText u.path)
  u.params.foldlM addParam t

def ofPairs (pairs : List (List Char × List Char)) : Except Fault Target :=
  pairs.foldlM (fun t p => t.set (String.ofList p.1) (String.ofList p.2)) {}

def ofString (s : String) : Except Fault Target := do
  match Url.afterScheme? s.toList with
  | some rest =>
    match Url.read? rest with
    | some u => ofUrl u
    | none => .error .unterminatedParameter
  | none => ofPairs (← Grammar.pairs s.toList)

end Target

end ChangeFeed.Conninfo
