import ChangeFeed.Digest.Sha256
import ChangeFeed.Session.Password
import ChangeFeed.Text.Base64

/-!
The client's side of a login by salted challenge and response with SHA-256, without a binding to the
channel. The client sends its nonce, the server answers with a longer nonce, a salt and a number of
iterations, the client proves that it knows the password, and the server proves it in turn.
-/
namespace ChangeFeed.Session.Scram

open Text Digest

def mechanism : String := "SCRAM-SHA-256"

/-- The client's first message without the header that says that it binds no channel. -/
def bareOpening (nonce : String) : String := "n=,r=" ++ nonce

def opening (nonce : String) : Bytes := Bytes.ofString ("n,," ++ bareOpening nonce)

/-- What is left of a message, and at which byte it begins. -/
structure Cursor where
  index : Nat
  rest : List Char

namespace Cursor

def expect (expected : Char) (k : Cursor) : Except ScramFault Cursor :=
  match k.rest with
  | [] => .error .unexpectedEnd
  | c :: cs =>
    if c = expected then .ok ⟨k.index + c.utf8Size, cs⟩
    else .error (.unexpectedCharacter k.index expected c)

def takeWhile (p : Char → Bool) (k : Cursor) : List Char × Cursor :=
  let taken := k.rest.takeWhile p
  (taken, ⟨k.index + (String.ofList taken).utf8ByteSize, k.rest.dropWhile p⟩)

def done (k : Cursor) : Except ScramFault Unit :=
  if k.rest = [] then .ok () else .error (.trailingData k.index)

def part (name : Char) (p : Char → Bool) (k : Cursor) : Except ScramFault (List Char × Cursor) := do
  let k ← k.expect name
  let k ← k.expect '='
  return k.takeWhile p

end Cursor

def isNonceCharacter (c : Char) : Bool := '\x21' ≤ c && c ≤ '\x7e' && c != ','

def isBase64Character (c : Char) : Bool := (Base64.value? c).isSome || c == '='

structure Challenge where
  nonce : List Char
  salt : List Char
  iterations : Nat

def readCount (digits : List Char) : Except ScramFault Nat :=
  match Numeral.read? 10 digits with
  | none => .error .emptyNumber
  | some n => if n < UInt32.size then .ok n else .error .numberRange

def Challenge.read (s : String) : Except ScramFault Challenge := do
  let (nonce, k) ← Cursor.part 'r' isNonceCharacter ⟨0, s.toList⟩
  let k ← k.expect ','
  let (salt, k) ← k.part 's' isBase64Character
  let k ← k.expect ','
  let (digits, k) ← k.part 'i' Char.isDigit
  let n ← readCount digits
  k.done
  return ⟨nonce, salt, n⟩

def text (bs : Bytes) : Except ScramFault String := (Utf8.decode bs).mapError .invalidUtf8

def base64 (cs : List Char) : Except ScramFault Bytes :=
  match Base64.decode? cs with
  | some bs => .ok bs
  | none => .error .invalidBase64

/-- The client's answer to a challenge, and the signature that the server has to show for it. -/
structure Answer where
  message : Bytes
  signature : Bytes
deriving DecidableEq, Repr

def maxIterations : Nat := 100000

/-- The answer of a client that knows `password` and has sent `nonce`. -/
def sign (password salt : Bytes) (nonce challenge serverNonce : String) (iterations : Nat) : Answer :=
  let key := Sha256.saltedKey (Password.prepare password) salt iterations
  let clientKey := Sha256.hmac key (Bytes.ofString "Client Key")
  let serverKey := Sha256.hmac key (Bytes.ofString "Server Key")
  let bare := "c=biws,r=" ++ serverNonce
  let transcript := Bytes.ofString (bareOpening nonce ++ "," ++ challenge ++ "," ++ bare)
  let proof := List.zipWith (· ^^^ ·) clientKey (Sha256.hmac (Sha256.digest clientKey) transcript)
  ⟨Bytes.ofString (bare ++ ",p=" ++ Base64.encodeString proof), Sha256.hmac serverKey transcript⟩

/-- The server's nonce has to begin with the client's. -/
def answer (password : Bytes) (nonce : String) (message : Bytes) : Except ScramFault Answer := do
  let challenge ← text message
  let c ← Challenge.read challenge
  if !nonce.toList.isPrefixOf c.nonce then .error .invalidNonce
  if maxIterations < c.iterations then .error .tooManyIterations
  let salt ← base64 c.salt
  return sign password salt nonce challenge (String.ofList c.nonce) c.iterations

inductive Verdict
  | refused (reason : List Char)
  | signature (text : List Char)

def Verdict.read (s : String) : Except ScramFault Verdict := do
  let start : Cursor := ⟨0, s.toList⟩
  if s.toList.head? = some 'e' then
    let (reason, k) ← start.part 'e' fun c => c != '\x00' && c != '=' && c != ','
    k.done
    return .refused reason
  else
    let (shown, k) ← start.part 'v' isBase64Character
    k.done
    return .signature shown

/-- Accepts the server's last message when it shows the signature. -/
def verify (a : Answer) (message : Bytes) : Except ScramFault Unit := do
  match ← Verdict.read (← text message) with
  | .refused reason => .error (.refused (String.ofList reason))
  | .signature shown =>
    if (← base64 shown) = a.signature then return () else .error .wrongSignature

end ChangeFeed.Session.Scram
