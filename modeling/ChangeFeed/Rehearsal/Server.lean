import ChangeFeed.Session.Scram
import ChangeFeed.Wire.Request

/-!
A scripted server for one replication connection. It sends what its script says, at once where that
does not hang on the client, and keeps what the client sends.
-/
namespace ChangeFeed.Rehearsal

open Session

inductive ServerItem
  | bytes (bs : Bytes)
  /-- Waits for the client's first login message and answers with the template, the client's nonce in
  the place of its mark. -/
  | challenge (template : String)
  /-- Waits for the client's second login message, checks it against the password, and answers with the
  template, the signature in the place of its mark. -/
  | verdict (template password : String)

structure Server where
  script : List ServerItem
  /-- Whether it stays there when its script is done. -/
  hold : Bool
  sent : Bytes
  ended : Bool
  /-- What the client has sent and is not divided into messages yet. -/
  pending : Bytes
  startup : Option Bytes
  /-- Tags and bodies, the latest first. -/
  messages : List (Char × Bytes)
  nonce : String
  challenge : String
  /-- Whether the client has proved that it knows the password, once that was checked. -/
  proof : Option Bool
  shut : Bool

namespace Server

def nonceMark : String := "\x7bnonce\x7d"

def signatureMark : String := "\x7bsig\x7d"

def loginMessage (kind : Nat) (text : String) : Bytes :=
  Wire.Request.frame 'R' (Bytes.ofNat 4 kind ++ Bytes.ofString text)

/-- The client's login messages in their order. -/
def logins (s : Server) : List Bytes :=
  ((s.messages.filter (·.1 == 'p')).map (·.2)).reverse

/-- The nonce at the end of a client's first login message. -/
def nonceOf (body : Bytes) : String := ((Text.Utf8.lossyString body).splitOn "r=").getLastD ""

def say (s : Server) (bytes : Bytes) : Server := { s with sent := s.sent ++ bytes }

/-- The answer to the client's second login message, and whether that was right. -/
def judge (s : Server) (template password : String) (body : Bytes) : String × Option Bool :=
  match Scram.Challenge.read s.challenge with
  | .error _ => (template, none)
  | .ok c =>
    let salt := (Text.Base64.decode? c.salt).getD []
    let a := Scram.sign (Bytes.ofString password) salt s.nonce s.challenge (String.ofList c.nonce)
      c.iterations
    (template.replace signatureMark (Text.Base64.encodeString a.signature), some (body == a.message))

/-- Does what a script says, as far as the client has let it come. -/
def play : List ServerItem → Server → Server
  | [], s => { s with script := [], ended := s.ended || !s.hold }
  | .bytes bs :: rest, s => play rest (s.say bs)
  | .challenge template :: rest, s =>
    match s.logins[0]? with
    | none => { s with script := .challenge template :: rest }
    | some body =>
      let nonce := nonceOf body
      let text := template.replace nonceMark nonce
      play rest ({ s with nonce, challenge := text }.say (loginMessage 11 text))
  | .verdict template password :: rest, s =>
    match s.logins[1]? with
    | none => { s with script := .verdict template password :: rest }
    | some body =>
      let (text, proof) := s.judge template password body
      play rest ({ s with proof }.say (loginMessage 12 text))

def accept (script : List ServerItem) (hold : Bool) : Server :=
  play script ⟨[], hold, [], false, [], none, [], "", "", none, false⟩

/-- Divides what the client has sent, the first packet and then messages. -/
def divide : Nat → Server → Server
  | 0, s => s
  | fuel + 1, s =>
    let (tag, sized) := match s.startup, s.pending with
      | none, bs => ((none : Option Char), bs)
      | some _, tag :: bs => (some (Char.ofNat tag.toNat), bs)
      | some _, [] => (none, [])
    match (Bytes.readNat? 4 sized).bind fun p => Bytes.splitAt? (p.1 - 4) p.2 with
    | none => s
    | some (body, pending) =>
      match tag with
      | none => divide fuel { s with startup := some body, pending }
      | some tag => divide fuel { s with messages := (tag, body) :: s.messages, pending }

def hear (s : Server) (bytes : Bytes) : Server :=
  let s := divide (s.pending.length + bytes.length + 1) { s with pending := s.pending ++ bytes }
  play s.script s

/-- What the client reads of it now: bytes, the end, or nothing yet. -/
def read? (s : Server) : Option (Option Bytes) :=
  if s.sent ≠ [] then some (some s.sent) else if s.ended then some none else none

/-- A message of a client as it is told about. -/
inductive Heard
  | text (tag : Char) (s : String)
  | loginStart (mechanism data : String)
  | loginEnd (data : String) (proved : Option Bool)
  | bytes (tag : Char) (body : Bytes)

/-- Mechanism and data of the message that begins a login. -/
def opening? (body : Bytes) : Option (Bytes × Bytes) :=
  let name := Bytes.ofString Scram.mechanism
  if (name ++ [0]).isPrefixOf body then some (name, body.drop (name.length + 5)) else none

/-- A text of a login without what no two logins have in common. -/
def veiled (nonce text : String) : String :=
  let text := if nonce.isEmpty then text else text.replace nonce "<nonce>"
  match text.splitOn ",p=" with
  | head :: _ :: _ => head ++ ",p=<proof>"
  | _ => text

/-- Without the time of the client's clock. -/
def timeless (body : Bytes) : Bytes :=
  if body.length = 34 then body.take 25 ++ List.replicate 8 0 ++ body.drop 33 else body

/-- What to tell about messages, in their order; `login` is the nonce of a login that goes on. -/
def tell (proof : Option Bool) : Option String → List (Char × Bytes) → List Heard
  | _, [] => []
  | login, ('Q', body) :: rest =>
    .text 'Q' (Text.Utf8.lossyString (body.takeWhile (· != 0))) :: tell proof login rest
  | login, ('p', body) :: rest =>
    match opening? body, login with
    | some (name, data), _ =>
      let nonce := nonceOf data
      .loginStart (Text.Utf8.lossyString name) (veiled nonce (Text.Utf8.lossyString data)) ::
        tell proof (some nonce) rest
    | none, some nonce =>
      .loginEnd (veiled nonce (Text.Utf8.lossyString body)) proof :: tell proof none rest
    | none, none => .bytes 'p' body :: tell proof none rest
  | login, (tag, body) :: rest => .bytes tag body :: tell proof login rest

/-- What to tell about the client's messages, in their order. -/
def heard (s : Server) : List Heard := tell s.proof none s.messages.reverse

end Server

end ChangeFeed.Rehearsal
