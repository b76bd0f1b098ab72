import ChangeFeed.Lsn
import ChangeFeed.Text.Quoted

/-!
What can go wrong, by cause. Every failure of the library is an `Error`; its words are chosen in one
place, `Error.message`, and the failures that lie behind it are listed by `Error.causes`.
Collaborators that the library does not know report their failures as a text, the `other` of a kind.
-/
namespace ChangeFeed

open Text

inductive SettingsFault
  | missingFile (path : String)
  | unknownFormat (path : String)
  | malformed (path : String)
  | missingSetting (name : String)
  | unfitSetting (name : String)
deriving DecidableEq, Repr

def SettingsFault.text : SettingsFault → String
  | .missingFile path => "configuration file " ++ Quoted.string path ++ " not found"
  | .unknownFormat path =>
    "configuration file " ++ Quoted.string path ++ " is not of a registered file format"
  | .malformed path => "configuration file " ++ Quoted.string path ++ " is malformed"
  | .missingSetting name => "missing field " ++ Quoted.string name
  | .unfitSetting name => "invalid value for " ++ Quoted.string name

inductive ConfigFault
  | emptySetupTarget
  | emptyReplicationTarget
  | slotLength (name : String)
  | slotCharacters (name : String)
  | zeroReportInterval
  | zeroChannelCapacity
  | zeroConnectTimeout
  | checkpointFile (detail : String)
  | settings (fault : SettingsFault)
  | other (text : String)
deriving DecidableEq, Repr

def ConfigFault.text : ConfigFault → String
  | .emptySetupTarget => "setup_conn_str must not be empty"
  | .emptyReplicationTarget => "repl_conn_str must not be empty"
  | .slotLength name => "replication slot name must be 1-63 bytes: " ++ Quoted.string name
  | .slotCharacters name =>
    "replication slot name may only contain lower case letters, numbers and underscores: " ++
      Quoted.string name
  | .zeroReportInterval => "report_interval_secs must be positive"
  | .zeroChannelCapacity => "channel_capacity must be positive"
  | .zeroConnectTimeout => "connect_timeout_secs must be positive"
  | .checkpointFile detail => "Invalid checkpoint file: " ++ detail
  | .settings fault => fault.text
  | .other text => text

inductive IoFault
  | notFound
  | notDirectory
  | isDirectory
  | brokenPipe
  | connectionRefused
  | invalidUtf8
  | embeddedNull
  | other (text : String)
deriving DecidableEq, Repr

def IoFault.text : IoFault → String
  | .notFound => "No such file or directory (os error 2)"
  | .notDirectory => "Not a directory (os error 20)"
  | .isDirectory => "Is a directory (os error 21)"
  | .brokenPipe => "Broken pipe (os error 32)"
  | .connectionRefused => "Connection refused (os error 111)"
  | .invalidUtf8 => "stream did not contain valid UTF-8"
  | .embeddedNull => "string contains embedded null"
  | .other text => text

/-- What the database reports about a statement, with its five-character state where it sent one. -/
structure DatabaseFault where
  text : String
  state : Option String
deriving DecidableEq, Repr

inductive ConnectionFault
  | invalidTarget (detail : String)
  | noUser
  | unixSocket
  | timedOut (host : String) (port seconds : Nat)
  | unreachable (host : String) (port : Nat) (fault : IoFault)
  | closedByServer
  | controlTimedOut (seconds : Nat)
  | controlFailed (detail : String)
  | other (text : String)
deriving DecidableEq, Repr

def ConnectionFault.text : ConnectionFault → String
  | .invalidTarget detail => "invalid replication connection string: " ++ detail
  | .noUser => "replication connection string has no user"
  | .unixSocket => "unix socket hosts are not supported for replication"
  | .timedOut host port seconds =>
    s!"replication connection to {host}:{port} timed out after {seconds}s"
  | .unreachable host port fault => s!"replication connection to {host}:{port} failed: {fault.text}"
  | .closedByServer => "replication connection closed by server"
  | .controlTimedOut seconds => s!"control connection timed out after {seconds}s"
  | .controlFailed detail => "control connection failed: " ++ detail
  | .other text => text

/-- Bytes that are no UTF-8, from byte `start` on: `length` bytes that begin no character, or, without
a length, a character cut off by the end. -/
structure Utf8Fault where
  start : Nat
  length : Option Nat
deriving DecidableEq, Repr

def Utf8Fault.text : Utf8Fault → String
  | ⟨start, some n⟩ => s!"invalid utf-8 sequence of {n} bytes from index {start}"
  | ⟨start, none⟩ => s!"incomplete utf-8 byte sequence from index {start}"

inductive ScramFault
  | unexpectedEnd
  | unexpectedCharacter (index : Nat) (expected got : Char)
  | trailingData (index : Nat)
  | emptyNumber
  | numberRange
  | invalidUtf8 (fault : Utf8Fault)
  | invalidNonce
  | invalidBase64
  | tooManyIterations
  | refused (reason : String)
  | wrongSignature
deriving DecidableEq, Repr

def ScramFault.text : ScramFault → String
  | .unexpectedEnd => "unexpected EOF"
  | .unexpectedCharacter i expected got =>
    "unexpected character at byte " ++ toString i ++ ": expected \x60" ++ expected.toString ++
      "\x60 but got \x60" ++ got.toString
  | .trailingData i => s!"unexpected trailing data at byte {i}"
  | .emptyNumber => "cannot parse integer from empty string"
  | .numberRange => "number too large to fit in target type"
  | .invalidUtf8 fault => fault.text
  | .invalidNonce => "invalid nonce"
  | .invalidBase64 => "Invalid padding"
  | .tooManyIterations => "SCRAM iteration count exceeds the maximum allowed"
  | .refused reason => "SCRAM error: " ++ reason
  | .wrongSignature => "SCRAM verification error"

inductive AuthenticationFault
  | passwordRequired
  | scramNotOffered
  | scram (fault : ScramFault)
  | refused (text : String)
  | other (text : String)
deriving DecidableEq, Repr

def AuthenticationFault.text : AuthenticationFault → String
  | .passwordRequired => "server requested a password but none was given"
  | .scramNotOffered => "server does not offer SCRAM-SHA-256"
  | .scram fault => fault.text
  | .refused text => text
  | .other text => text

/-- Server messages that do not keep to their format. -/
inductive MessageFault
  | unknownTag (tag : UInt8)
  | unknownAuthentication (kind : Int)
  | unexpectedEnd
  | shortField
  | shortLength
  | trailingBytes
  | trailingFields
  | trailingValues
  | trailingMechanisms
  | invalidUtf8 (fault : Utf8Fault)
deriving DecidableEq, Repr

def MessageFault.text : MessageFault → String
  | .unknownTag tag => "unknown message tag \x60" ++ toString tag.toNat ++ "\x60"
  | .unknownAuthentication kind =>
    "unknown authentication tag \x60" ++ Numeral.integer kind ++ "\x60"
  | .unexpectedEnd => "unexpected EOF"
  | .shortField => "failed to fill whole buffer"
  | .shortLength => "invalid message length: parsing u32"
  | .trailingBytes => "invalid message length: expected buffer to be empty"
  | .trailingFields => "invalid message length: field is not drained"
  | .trailingValues => "invalid message length: datarowrange is not empty"
  | .trailingMechanisms => "invalid message length: expected to be at end of iterator for sasl"
  | .invalidUtf8 fault => fault.text

inductive ProtocolFault
  | invalidLsn (text : String)
  | emptyCopyData
  | unknownCopyData (tag : UInt8)
  | unexpectedFrame (kind : String)
  | missingColumn (name : String)
  | invalidTimeline (text : String)
  | noRows
  | unexpectedDuringAuthentication
  | expectedSaslContinue
  | expectedSaslFinal
  | copyBothLength (length : Int)
  | unexpectedCopyBoth
  | message (fault : MessageFault)
  | other (text : String)
deriving DecidableEq, Repr

def hexByte (b : UInt8) : String :=
  String.ofList [Numeral.digitChar (b.toNat / 16), Numeral.digitChar (b.toNat % 16)]

def ProtocolFault.text : ProtocolFault → String
  | .invalidLsn text => "invalid LSN: " ++ Quoted.string text
  | .emptyCopyData => "empty CopyData payload"
  | .unknownCopyData tag => "unexpected CopyData message: 0x" ++ hexByte tag
  | .unexpectedFrame kind => "unexpected message: " ++ kind
  | .missingColumn name => "IDENTIFY_SYSTEM: missing " ++ name
  | .invalidTimeline text => "IDENTIFY_SYSTEM: invalid timeline " ++ Quoted.string text
  | .noRows => "IDENTIFY_SYSTEM returned no rows"
  | .unexpectedDuringAuthentication => "unexpected message during authentication"
  | .expectedSaslContinue => "expected AuthenticationSASLContinue"
  | .expectedSaslFinal => "expected AuthenticationSASLFinal"
  | .copyBothLength length => "invalid CopyBothResponse length: " ++ Numeral.integer length
  | .unexpectedCopyBoth => "unexpected CopyBothResponse"
  | .message fault => fault.text
  | .other text => text

inductive DecodeFault
  | shortBegin
  | shortRelation
  | shortRowChange
  | unknownRelation (id : Nat)
  | missingName
  | truncatedName
  | unknownTag (tag : UInt8)
  | other (text : String)
deriving DecidableEq, Repr

def latin1 (b : UInt8) : Char := Char.ofNat b.toNat

def DecodeFault.text : DecodeFault → String
  | .shortBegin => "BEGIN message too short"
  | .shortRelation => "RELATION message too short"
  | .shortRowChange => "row change message too short"
  | .unknownRelation id => s!"change for unknown relation {id}"
  | .missingName => "missing name length"
  | .truncatedName => "name exceeds message"
  | .unknownTag tag => "unknown pglogical message type: " ++ Quoted.char (latin1 tag)
  | .other text => text

inductive ReplicationFault
  | notOpen
  | streaming
  | setupWhileCapturing
  | alreadyCapturing
  | setupMissing
  | taskPanicked (task : Nat) (message : String)
  | other (text : String)
deriving DecidableEq, Repr

def ReplicationFault.text : ReplicationFault → String
  | .notOpen => "replication connection is not open"
  | .streaming => "cannot run queries while streaming"
  | .setupWhileCapturing => "cannot run setup while capture is active"
  | .alreadyCapturing => "capture is already running"
  | .setupMissing => "setup must complete before capture"
  | .taskPanicked task message =>
    s!"fetch loop task failed: task {task} panicked with message " ++ Quoted.string message
  | .other text => text

inductive FormatFault
  | shortWal (bytes : Nat)
  | shortKeepalive (bytes : Nat)
  | lsnOverflow (start : Lsn)
  | commitTimeRange (micros : Nat)
  | other (text : String)
deriving DecidableEq, Repr

def FormatFault.text : FormatFault → String
  | .shortWal bytes => s!"XLogData header too short: {bytes} bytes"
  | .shortKeepalive bytes => s!"Primary keepalive too short: {bytes} bytes"
  | .lsnOverflow start => s!"WAL record at {start} overflows the LSN range"
  | .commitTimeRange micros => s!"commit time out of range: {micros}"
  | .other text => text

inductive Error
  | config (fault : ConfigFault)
  | postgres (fault : DatabaseFault)
  | serialization (detail : String)
  | io (fault : IoFault)
  | connection (fault : ConnectionFault)
  /-- Login at a server that was reached ended with `cause`. -/
  | login (host : String) (port : Nat) (cause : Error)
  | authentication (fault : AuthenticationFault)
  | protocol (fault : ProtocolFault)
  /-- The server answered with an error of its own. -/
  | server (text : String)
  | decode (fault : DecodeFault)
  | schemaRefresh (cause : Error)
  | replication (fault : ReplicationFault)
  | invalidMessage (fault : FormatFault)
  /-- Not a failure: the receiver of the changes has gone. -/
  | shutdown
deriving DecidableEq, Repr

instance : Inhabited Error := ⟨.shutdown⟩

namespace Error

inductive Kind
  | config | postgres | serialization | io | connection | authentication | protocol | server
  | decode | schemaRefresh | replication | invalidMessage | shutdown
deriving DecidableEq, Repr

def kind : Error → Kind
  | .config _ => .config
  | .postgres _ => .postgres
  | .serialization _ => .serialization
  | .io _ => .io
  | .connection _ => .connection
  | .login _ _ _ => .connection
  | .authentication _ => .authentication
  | .protocol _ => .protocol
  | .server _ => .server
  | .decode _ => .decode
  | .schemaRefresh _ => .schemaRefresh
  | .replication _ => .replication
  | .invalidMessage _ => .invalidMessage
  | .shutdown => .shutdown

def message : Error → String
  | .config fault => "Configuration error: " ++ fault.text
  | .postgres fault => "PostgreSQL error: " ++ fault.text
  | .serialization detail => "Serialization error: " ++ detail
  | .io fault => "IO error: " ++ fault.text
  | .connection fault => "Connection error: " ++ fault.text
  | .login host port cause =>
    s!"Connection error: replication connection to {host}:{port} failed: " ++ cause.message
  | .authentication fault => "Authentication error: " ++ fault.text
  | .protocol fault => "Protocol error: " ++ fault.text
  | .server text => "Server error: " ++ text
  | .decode fault => "Decode error: " ++ fault.text
  | .schemaRefresh cause => "Schema refresh failed: " ++ cause.message
  | .replication fault => "Replication error: " ++ fault.text
  | .invalidMessage fault => "Invalid message format: " ++ fault.text
  | .shutdown => "Shutdown requested"

/-- The texts of the failures behind an error, the nearest first. -/
def causes : Error → List String
  | .postgres fault => [fault.text]
  | .serialization detail => [detail]
  | .io fault => [fault.text]
  | .schemaRefresh cause => cause.message :: cause.causes
  | _ => []

end Error

/-- Reads a position in the notation of the server. -/
def Lsn.parse (s : String) : Except Error Lsn :=
  match Lsn.ofText? s with
  | some l => .ok l
  | none => .error (.protocol (.invalidLsn s))

end ChangeFeed
