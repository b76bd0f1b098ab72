import ChangeFeed.Bytes

/-!
Words of bytes: numbers of a fixed width, unsigned or in two's complement. Main statements: writing the
number that was read gives its bytes back, and every number within the range of a word is read back.
-/
namespace ChangeFeed.Bytes

theorem values_pos (w : Nat) : 0 < values w := by
  induction w with
  | zero => exact Nat.one_pos
  | succ w ih => exact Nat.mul_pos ih (by decide)

/-- Whatever exceeds a word is not written. -/
theorem ofNat_mul_add (w k n : Nat) : ofNat w (k * values w + n) = ofNat w n := by
  induction w generalizing k with
  | zero => rfl
  | succ w ih =>
    have carry : k * values (w + 1) = k * 256 * values w := by
      rw [values, Nat.mul_comm (values w), Nat.mul_assoc]
    have digit : (k * 256 * values w + n) / values w = k * 256 + n / values w := by
      rw [Nat.add_comm, Nat.add_mul_div_right _ _ (values_pos w), Nat.add_comm]
    rw [carry, ofNat, ofNat, digit, ih]
    congr 1
    apply UInt8.toNat_inj.mp
    rw [UInt8.toNat_ofNat', UInt8.toNat_ofNat']
    omega

theorem ofNat_toNat (bs : Bytes) : ofNat bs.length bs.toNat = bs := by
  induction bs with
  | nil => rfl
  | cons b bs ih =>
    have digit : (b.toNat * values bs.length + toNat bs) / values bs.length = b.toNat := by
      rw [Nat.add_comm, Nat.add_mul_div_right _ _ (values_pos _), Nat.div_eq_of_lt (toNat_lt bs),
        Nat.zero_add]
    rw [List.length_cons, toNat, ofNat, digit, UInt8.ofNat_toNat, ofNat_mul_add, ih]

theorem length_ofInt (w : Nat) (i : Int) : (ofInt w i).length = w := length_ofNat w _

/-- An integer of the lower half of a word's range, or of the negatives of its upper half. -/
def InWord (w : Nat) (i : Int) : Prop := -(values w : Int) ≤ i * 2 ∧ i * 2 < values w

theorem inWord_eight {i : Int} : InWord 8 i ↔ -0x8000000000000000 ≤ i ∧ i < 0x8000000000000000 := by
  unfold InWord
  simp only [values]
  omega

theorem toInt_ofInt {w : Nat} {i : Int} (within : InWord w i) : toInt (ofInt w i) = i := by
  have positive : (0 : Int) < values w := Int.natCast_pos.mpr (values_pos w)
  have below : (i % values w).toNat < values w := by
    have := Int.emod_nonneg i (Int.ne_of_gt positive)
    have := Int.emod_lt_of_pos i positive
    omega
  have residue : (((i % values w).toNat : Nat) : Int) = i % values w :=
    Int.toNat_of_nonneg (Int.emod_nonneg i (Int.ne_of_gt positive))
  rw [toInt, length_ofInt, ofInt, toNat_ofNat, Nat.mod_eq_of_lt below, residue, Int.emod_bmod]
  exact Int.bmod_eq_of_le_mul_two within.1 within.2

theorem ofInt_toInt (bs : Bytes) : ofInt bs.length bs.toInt = bs := by
  have residue : (toNat bs : Int) % values bs.length = toNat bs :=
    Int.emod_eq_of_lt (Int.natCast_nonneg _) (Int.ofNat_lt.mpr (toNat_lt bs))
  rw [ofInt, toInt, Int.bmod_emod, residue, Int.toNat_natCast, ofNat_toNat]

theorem inWord_toInt (bs : Bytes) : InWord bs.length bs.toInt := by
  have low := Int.le_bmod (x := toNat bs) (values_pos bs.length)
  have high := Int.bmod_lt (x := toNat bs) (values_pos bs.length)
  unfold InWord toInt
  omega

end ChangeFeed.Bytes
