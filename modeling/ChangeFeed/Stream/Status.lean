import ChangeFeed.Stream.Message

/-!
The status update that tells the server how far the log has been processed.
-/
namespace ChangeFeed

structure StatusUpdate where
  write : Lsn
  flush : Lsn
  apply : Lsn
  /-- Microseconds since 2000-01-01 on the client's clock. -/
  clientTime : Int
  replyRequested : Bool
deriving DecidableEq, Repr

namespace StatusUpdate

def tag : UInt8 := 0x72

/-- Everything up to `l` is written, flushed and applied. -/
def acknowledge (l : Lsn) (clientTime : Int) : StatusUpdate := ⟨l, l, l, clientTime, false⟩

def layout (u : StatusUpdate) : Bytes :=
  tag :: StreamMessage.lsnBytes u.write ++ StreamMessage.lsnBytes u.flush ++
    StreamMessage.lsnBytes u.apply ++ Bytes.ofInt 8 u.clientTime ++
    [if u.replyRequested then 1 else 0]

def ofBytes? : Bytes → Option StatusUpdate
  | [] => none
  | t :: body =>
    if t = tag ∧ body.length = 33 then
      some ⟨StreamMessage.lsnAt body, StreamMessage.lsnAt (body.drop 8),
        StreamMessage.lsnAt (body.drop 16), StreamMessage.timeAt (body.drop 24),
        (body.drop 32).headD 0 != 0⟩
    else none

end StatusUpdate

end ChangeFeed
