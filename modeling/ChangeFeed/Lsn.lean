import ChangeFeed.Text.Cut
import ChangeFeed.Text.Numeral

/-!
Positions in the write-ahead log, and their notation of two hexadecimal halves.
-/
namespace ChangeFeed

/-- A position in the write-ahead log, as a byte offset. -/
structure Lsn where
  offset : Nat
  offset_lt : offset < UInt64.size
deriving DecidableEq, Repr

namespace Lsn

def zero : Lsn := ⟨0, by decide⟩

instance : Inhabited Lsn := ⟨zero⟩
instance : LE Lsn := ⟨fun a b => a.offset ≤ b.offset⟩
instance : LT Lsn := ⟨fun a b => a.offset < b.offset⟩
instance (a b : Lsn) : Decidable (a ≤ b) := inferInstanceAs (Decidable (a.offset ≤ b.offset))
instance (a b : Lsn) : Decidable (a < b) := inferInstanceAs (Decidable (a.offset < b.offset))
instance : Max Lsn := ⟨fun a b => if a ≤ b then b else a⟩

@[ext] theorem ext {a b : Lsn} (h : a.offset = b.offset) : a = b := by
  cases a; cases b; cases h; rfl

theorem offset_max (a b : Lsn) : (max a b).offset = max a.offset b.offset := by
  show (if a.offset ≤ b.offset then b else a).offset = _
  split <;> omega

/-- The position of an offset, counted around from zero where it exceeds the range. -/
def ofNat (n : Nat) : Lsn := ⟨n % UInt64.size, Nat.mod_lt _ (by decide)⟩

theorem offset_ofNat {n : Nat} (h : n < UInt64.size) : (ofNat n).offset = n := Nat.mod_eq_of_lt h

def ofNat? (n : Nat) : Option Lsn :=
  if h : n < UInt64.size then some ⟨n, h⟩ else none

def isZero (l : Lsn) : Bool := l.offset == 0

/-- The position `n` bytes on, unless it exceeds the range. -/
def advance? (l : Lsn) (n : Nat) : Option Lsn := ofNat? (l.offset + n)

/-- The notation of the server: high and low half in upper-case hexadecimal digits. -/
def text (l : Lsn) : String :=
  Text.Numeral.upperHex (l.offset / UInt32.size) ++ "/" ++ Text.Numeral.upperHex (l.offset % UInt32.size)

instance : ToString Lsn := ⟨text⟩

def ofHalves (hi lo : Nat) : Lsn := ofNat (hi * UInt32.size + lo)

/-- Reads the notation of the server; each half may begin with a plus sign or zeros. -/
def ofText? (s : String) : Option Lsn := do
  let (a, b) ← Text.cut? '/' s.toList
  let hi ← Text.Numeral.unsigned? 16 UInt32.size a
  let lo ← Text.Numeral.unsigned? 16 UInt32.size b
  return ofHalves hi lo

end Lsn

end ChangeFeed
