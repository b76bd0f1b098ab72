import ChangeFeed.Text.Base64

/-!
Base 64 read back. Main statement: the text of any bytes stands for these bytes, whichever way its
last group is filled up.
-/
namespace ChangeFeed.Text.Base64

theorem value?_symbol {n : Nat} (small : n < 64) : value? (symbol n) = some n := by
  have all : ∀ n < 64, value? (symbol n) = some n := by decide
  exact all n small

theorem symbol_ne_filler {n : Nat} (small : n < 64) : symbol n ≠ '=' := by
  have all : ∀ n < 64, symbol n ≠ '=' := by decide
  exact all n small

/-- The digits of a number of four digits in base 64. -/
theorem four_digits (n : Nat) :
    n / 262144 * 262144 + n / 4096 % 64 * 4096 + n / 64 % 64 * 64 + n % 64 = n := by omega

theorem three_digits (n : Nat) : n / 4096 * 4096 + n / 64 % 64 * 64 + n % 64 = n := by omega

/-- Four characters of the alphabet are three bytes. -/
theorem decode?_whole {a b c d : Nat} (first : a < 64) (second : b < 64) (third : c < 64) (fourth : d < 64)
    (rest : List Char) :
    decode? (symbol a :: symbol b :: symbol c :: symbol d :: rest) =
      (decode? rest).map fun bytes =>
        UInt8.ofNat ((a * 262144 + b * 4096 + c * 64 + d) / 65536) ::
          UInt8.ofNat ((a * 262144 + b * 4096 + c * 64 + d) / 256) ::
          UInt8.ofNat (a * 262144 + b * 4096 + c * 64 + d) :: bytes := by
  rw [decode?]
  · rw [value?_symbol first, value?_symbol second, value?_symbol third, value?_symbol fourth]
    cases decode? rest <;> rfl
  · intro _ filler _
    exact symbol_ne_filler fourth filler
  · intro filler _
    exact symbol_ne_filler fourth filler

theorem decode?_pair {a b c : Nat} (first : a < 64) (second : b < 64) (third : c < 64)
    (clear : (a * 4096 + b * 64 + c) % 4 = 0) :
    decode? [symbol a, symbol b, symbol c, '='] =
      some [UInt8.ofNat ((a * 4096 + b * 64 + c) / 1024), UInt8.ofNat ((a * 4096 + b * 64 + c) / 4)] := by
  rw [decode?]
  · rw [value?_symbol first, value?_symbol second, value?_symbol third]
    exact if_pos clear
  · exact symbol_ne_filler third

theorem decode?_single {a b : Nat} (first : a < 64) (second : b < 64) (clear : (a * 64 + b) % 16 = 0) :
    decode? [symbol a, symbol b, '=', '='] = some [UInt8.ofNat ((a * 64 + b) / 16)] := by
  rw [decode?, value?_symbol first, value?_symbol second]
  exact if_pos clear

/-- A byte is what is left of a larger number that ends in it. -/
theorem ofNat_eq {n : Nat} {b : UInt8} (low : n % 256 = b.toNat) : UInt8.ofNat n = b := by
  apply UInt8.toNat_inj.mp
  rw [← low]
  exact UInt8.toNat_ofNat'

/-- Bytes are read back from their text. -/
theorem decode?_encode (bs : Bytes) : decode? (encode bs) = some bs := by
  induction bs using encode.induct with
  | case1 a b c rest ih =>
    have small : a.toNat < 256 ∧ b.toNat < 256 ∧ c.toNat < 256 := ⟨a.toNat_lt, b.toNat_lt, c.toNat_lt⟩
    rw [encode]
    generalize value : a.toNat * 65536 + b.toNat * 256 + c.toNat = n
    rw [decode?_whole (by omega) (by omega) (by omega) (by omega), ih, four_digits, Option.map_some]
    have first : UInt8.ofNat (n / 65536) = a := ofNat_eq (by omega)
    have second : UInt8.ofNat (n / 256) = b := ofNat_eq (by omega)
    have third : UInt8.ofNat n = c := ofNat_eq (by omega)
    rw [first, second, third]
  | case2 a b =>
    have small : a.toNat < 256 ∧ b.toNat < 256 := ⟨a.toNat_lt, b.toNat_lt⟩
    rw [encode]
    generalize value : a.toNat * 1024 + b.toNat * 4 = n
    rw [decode?_pair (by omega) (by omega) (by omega) (by rw [three_digits]; omega), three_digits]
    have first : UInt8.ofNat (n / 1024) = a := ofNat_eq (by omega)
    have second : UInt8.ofNat (n / 4) = b := ofNat_eq (by omega)
    rw [first, second]
  | case3 a =>
    have small : a.toNat < 256 := a.toNat_lt
    rw [encode]
    generalize value : a.toNat * 16 = n
    have together : n / 64 * 64 + n % 64 = n := Nat.div_add_mod' n 64
    rw [decode?_single (by omega) (by omega) (by omega), together]
    have first : UInt8.ofNat (n / 16) = a := ofNat_eq (by omega)
    rw [first]
  | case4 => rfl

end ChangeFeed.Text.Base64
