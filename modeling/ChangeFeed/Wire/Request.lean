import ChangeFeed.Bytes
import ChangeFeed.Error

/-!
The messages of a client. Texts in them end at a zero byte, so a text that holds one is refused.
-/
namespace ChangeFeed.Wire.Request

/-- A frame: a tag, the length of the rest, which counts itself, and the body. -/
def frame (tag : Char) (body : Bytes) : Bytes :=
  UInt8.ofNat tag.toNat :: Bytes.ofNat 4 (body.length + 4) ++ body

def terminated (bs : Bytes) : Except IoFault Bytes :=
  if bs.contains 0 then .error .embeddedNull else .ok (bs ++ [0])

def terminatedText (s : String) : Except IoFault Bytes := terminated (Bytes.ofString s)

/-- The first packet of a connection; it has a version in place of a tag. -/
def startup (params : List (String × String)) : Except IoFault Bytes := do
  let texts ← params.mapM fun p => return (← terminatedText p.1) ++ (← terminatedText p.2)
  let body := [0, 3, 0, 0] ++ texts.flatten ++ [0]
  return Bytes.ofNat 4 (body.length + 4) ++ body

def query (command : String) : Except IoFault Bytes :=
  (terminatedText command).map (frame 'Q')

/-- The tag of a query and a length that has not been filled in. -/
def brokenQuery : Bytes := [0x51, 0, 0, 0, 0]

/-- Prepares a statement under no name and asks what it takes and gives. -/
def prepare (statement : String) : Except IoFault Bytes := do
  return frame 'P' ([0] ++ (← terminatedText statement) ++ [0, 0]) ++ frame 'D' [0x53, 0] ++ frame 'S' []

def sized (bs : Bytes) : Bytes := Bytes.ofNat 4 bs.length ++ bs

/-- Runs the statement that has been prepared, with texts for its parameters and its results. -/
def execute (parameters : List String) : Bytes :=
  let values := (parameters.map fun p => sized (Bytes.ofString p)).flatten
  frame 'B' ([0, 0, 0, 0] ++ Bytes.ofNat 2 parameters.length ++ values ++ [0, 0]) ++
    frame 'E' [0, 0, 0, 0, 0] ++ frame 'S' []

def password (bs : Bytes) : Except IoFault Bytes := (terminated bs).map (frame 'p')

def saslInitial (mechanism : String) (data : Bytes) : Bytes :=
  frame 'p' (Bytes.ofString mechanism ++ [0] ++ Bytes.ofNat 4 data.length ++ data)

def saslResponse (data : Bytes) : Bytes := frame 'p' data

def copyData (data : Bytes) : Bytes := frame 'd' data

def copyDone : Bytes := frame 'c' []

def terminate : Bytes := frame 'X' []

end ChangeFeed.Wire.Request
