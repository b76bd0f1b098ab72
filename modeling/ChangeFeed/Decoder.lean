import ChangeFeed.Bytes
import ChangeFeed.Error

/-!
What the feed asks of a decoder: to turn payloads of records into messages, and to say how a message
is to be treated. The feed never looks inside a message. A decoder may share metadata with the loader
that loads it anew.
-/
namespace ChangeFeed

inductive MessageClass
  /-- The start of a transaction; its commit time, in microseconds since 2000-01-01, holds for the
  changes up to the next one. -/
  | begin (commitTime : Nat)
  /-- With `ignore` it is not handed on; with `ddl` the metadata that decoding depends on has to be
  loaded anew before anything after it is decoded. -/
  | change (ignore ddl : Bool)
  | other
deriving DecidableEq, Repr

/-- Decoders with states in `δ` and messages in `μ`. Payloads that they filter give no message. -/
class Decoder (δ : Type) (μ : outParam Type) where
  decode : δ → Bytes → Except Error (Option μ) × δ
  /-- The state after the metadata that the decoder depends on has been loaded anew. -/
  refreshed : δ → δ
  classOf : μ → MessageClass

end ChangeFeed
