import ChangeFeed.Bytes

/-!
The settings of a connection string, found by going over its bytes. Pieces are cut out of the bytes by
position, and the cut is refused beyond the end or inside a character.
-/
namespace ChangeFeed.Conninfo.Scanner

/-- A piece that cannot be cut out: its ends are out of order, too far, or inside a character. -/
structure SliceFault where
  start : Nat
  stop : Nat
deriving DecidableEq, Repr

/-- Whether a text can be cut at a position: at its ends, and before a byte that begins a character. -/
def isBoundary (bs : Bytes) (i : Nat) : Bool :=
  i == 0 || i == bs.length || bs[i]?.any fun b => b < 0x80 || 0xC0 ≤ b

def slice (bs : Bytes) (start stop : Nat) : Except SliceFault Bytes :=
  if start ≤ stop && isBoundary bs start && isBoundary bs stop then .ok ((bs.take stop).drop start)
  else .error ⟨start, stop⟩

def quote : UInt8 := 0x27

def backslash : UInt8 := 0x5C

def equals : UInt8 := 0x3D

def isBlankByte (b : UInt8) : Bool := b == 0x20 || b == 0x09 || b == 0x0A || b == 0x0C || b == 0x0D

def isKeyByte (b : UInt8) : Bool := b != equals && !isBlankByte b

/-- The first position from `i` on whose byte is not in a class. -/
def skipWhile (p : UInt8 → Bool) (bs : Bytes) (i : Nat) : Nat :=
  match _h : bs[i]? with
  | none => i
  | some b => if p b then skipWhile p bs (i + 1) else i
termination_by bs.length - i
decreasing_by
  have := (List.getElem?_eq_some_iff.mp _h).1
  omega

/-- Where quotes are closed. What stands behind a backslash is passed over, one byte of it. -/
def closing? (bs : Bytes) (i : Nat) : Option Nat :=
  match _h : bs[i]? with
  | none => none
  | some b =>
    if b = quote then some i
    else if b = backslash then closing? bs (i + 2)
    else closing? bs (i + 1)
termination_by bs.length - i
decreasing_by
  all_goals
    have := (List.getElem?_eq_some_iff.mp _h).1
    omega

/-- Where the value ends that begins at `i`; nowhere if its quotes are not closed. -/
def valueEnd? (bs : Bytes) (i : Nat) : Option Nat :=
  if bs[i]? = some quote then (closing? bs (i + 1)).map (· + 1)
  else some (skipWhile (!isBlankByte ·) bs i)

/-- A setting by the bytes of its key and of its whole text. -/
structure Piece where
  key : Bytes
  text : Bytes
deriving DecidableEq, Repr

theorem le_skipWhile (p : UInt8 → Bool) (bs : Bytes) (i : Nat) : i ≤ skipWhile p bs i := by
  fun_induction skipWhile p bs i <;> omega

theorem le_closing? {bs : Bytes} {i j : Nat} (closes : closing? bs i = some j) : i ≤ j := by
  fun_induction closing? bs i with
  | case1 => cases closes
  | case2 => exact Nat.le_of_eq (Option.some.inj closes)
  | case3 _ _ _ ih =>
    have := ih closes
    omega
  | case4 _ _ _ _ _ ih =>
    have := ih closes
    omega

theorem le_valueEnd? {bs : Bytes} {i j : Nat} (ends : valueEnd? bs i = some j) : i ≤ j := by
  unfold valueEnd? at ends
  split at ends
  · obtain ⟨k, closes, rfl⟩ := Option.map_eq_some_iff.mp ends
    have := le_closing? closes
    omega
  · cases ends
    exact le_skipWhile ..

/-- The settings from `i` on, where no white space is. -/
def scanFrom (bs : Bytes) (i : Nat) : Except SliceFault (Option (List Piece)) :=
  if _h : i < bs.length then
    let keyEnd := skipWhile isKeyByte bs i
    match slice bs i keyEnd with
    | .error fault => .error fault
    | .ok key =>
      let mark := skipWhile isBlankByte bs keyEnd
      if bs[mark]? = some equals then
        match _e : valueEnd? bs (skipWhile isBlankByte bs (mark + 1)) with
        | none => .ok none
        | some stop =>
          match slice bs i stop with
          | .error fault => .error fault
          | .ok text =>
            (scanFrom bs (skipWhile isBlankByte bs stop)).map fun pieces => pieces.map (⟨key, text⟩ :: ·)
      else .ok none
  else .ok (some [])
termination_by bs.length - i
decreasing_by
  have := le_valueEnd? _e
  have := le_skipWhile isBlankByte bs (mark + 1)
  have := le_skipWhile isBlankByte bs keyEnd
  have := le_skipWhile isKeyByte bs i
  have := le_skipWhile isBlankByte bs stop
  omega

/-- The settings of a whole text; nothing if one of them lacks its equals sign or its closing mark. -/
def scan (bs : Bytes) : Except SliceFault (Option (List Piece)) := scanFrom bs (skipWhile isBlankByte bs 0)

end ChangeFeed.Conninfo.Scanner
