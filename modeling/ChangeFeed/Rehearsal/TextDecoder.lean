import ChangeFeed.Decoder
import ChangeFeed.Text.Cut
import ChangeFeed.Text.Numeral
import ChangeFeed.Text.Utf8

/-!
A decoder for payloads that are plain texts: the word before the first colon says what becomes of one.
-/
namespace ChangeFeed.Rehearsal

structure TextMessage where
  text : String
  cls : MessageClass

structure TextDecoder where

namespace TextDecoder

def readWord (s : String) : Except Error (Option TextMessage) :=
  if s = "none" then .ok none
  else if s = "fail" then .error (.decode (.other "malformed payload"))
  else .ok (some ⟨s, .other⟩)

/-- The text `s`, which has `rest` after its first colon and `head` before it. -/
def readTagged (s head rest : String) : Except Error (Option TextMessage) :=
  let as := fun (c : MessageClass) => Except.ok (some (TextMessage.mk s c))
  match head with
  | "begin" =>
    match Text.Numeral.unsigned? 10 UInt64.size rest.toList with
    | some n => as (.begin n)
    | none => .error (.decode (.other ("bad commit time: " ++ rest)))
  | "insert" => as (.change false false)
  | "ddl" => as (.change false true)
  | "ddl-ignore" => as (.change true true)
  | "ignore" => as (.change true false)
  | "proto" => .error (.protocol (.other rest))
  | "shutdown" => .error .shutdown
  | _ => as .other

def read (s : String) : Except Error (Option TextMessage) :=
  match Text.cut? ':' s.toList with
  | some (head, rest) => readTagged s (String.ofList head) (String.ofList rest)
  | none => readWord s

instance : Decoder TextDecoder TextMessage where
  decode d bytes := (read (Text.Utf8.lossyString bytes), d)
  refreshed := id
  classOf := TextMessage.cls

end TextDecoder

end ChangeFeed.Rehearsal
