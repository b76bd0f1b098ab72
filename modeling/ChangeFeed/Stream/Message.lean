import ChangeFeed.Bytes
import ChangeFeed.Error

/-!
What the server sends while it streams: records of the log and heartbeats, in the payload of copied
data. Reading takes exactly the laid out messages, with any data after the header of a record and
anything at all after a heartbeat.
-/
namespace ChangeFeed

inductive Frame
  | copyData (payload : Bytes)
  | unexpected (kind : String)
deriving DecidableEq, Repr

inductive StreamMessage
  | keepalive (walEnd : Lsn) (serverTime : Int) (replyRequested : Bool)
  | record (start walEnd : Lsn) (serverTime : Int) (data : Bytes)
deriving DecidableEq, Repr

namespace StreamMessage

def recordTag : UInt8 := 0x77
def keepaliveTag : UInt8 := 0x6b

def lsnBytes (l : Lsn) : Bytes := Bytes.ofNat 8 l.offset

/-- Positions and times take eight bytes each, times in two's complement. -/
def layout : StreamMessage → Bytes
  | .keepalive walEnd serverTime reply =>
    keepaliveTag :: lsnBytes walEnd ++ Bytes.ofInt 8 serverTime ++ [if reply then 1 else 0]
  | .record start walEnd serverTime data =>
    recordTag :: lsnBytes start ++ lsnBytes walEnd ++ Bytes.ofInt 8 serverTime ++ data

/-- The position in the first eight of `bs`. -/
def lsnAt (bs : Bytes) : Lsn := Lsn.ofNat (Bytes.toNat (bs.take 8))

def timeAt (bs : Bytes) : Int := Bytes.toInt (bs.take 8)

def parse : Bytes → Except Error StreamMessage
  | [] => .error (.protocol .emptyCopyData)
  | tag :: body =>
    if tag = recordTag then
      if body.length < 24 then .error (.invalidMessage (.shortWal body.length))
      else .ok (.record (lsnAt body) (lsnAt (body.drop 8)) (timeAt (body.drop 16)) (body.drop 24))
    else if tag = keepaliveTag then
      if body.length < 17 then .error (.invalidMessage (.shortKeepalive body.length))
      else .ok (.keepalive (lsnAt body) (timeAt (body.drop 8)) ((body.drop 16).headD 0 != 0))
    else .error (.protocol (.unknownCopyData tag))

end StreamMessage

end ChangeFeed
