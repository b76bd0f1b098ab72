import ChangeFeed.Text.Numeral
import Mathlib.Algebra.Group.Nat.Defs

/-!
Numerals that are written and read. Main statement: a numeral reads back as the number that it was
written for, also when it was filled up with zeros.
-/
namespace ChangeFeed.Text.Numeral

variable {base n : Nat}

theorem digit?_digitChar {d : Nat} (small : d < 36) : digit? (digitChar d) = some d := by
  have all : ∀ d < 36, digit? (digitChar d) = some d := by decide
  exact all d small

theorem digitOf?_digitChar (small : base ≤ 36) {d : Nat} (digit : d < base) :
    digitOf? base (digitChar d) = some d := by
  rw [digitOf?, digit?_digitChar (Nat.lt_of_lt_of_le digit small)]
  simp [digit]

theorem readFrom_append (acc : Nat) (a b : List Char) :
    readFrom base acc (a ++ b) = (readFrom base acc a).bind fun v => readFrom base v b := by
  induction a generalizing acc with
  | nil => rfl
  | cons c cs ih =>
    rw [List.cons_append, readFrom, readFrom]
    cases digitOf? base c with
    | none => rfl
    | some d => exact ih _

theorem read?_concat {cs : List Char} (some : cs ≠ []) (c : Char) :
    read? base (cs ++ [c]) = (read? base cs).bind fun n => (digitOf? base c).map (n * base + ·) := by
  have first : (cs ++ [c]).isEmpty = false ∧ cs.isEmpty = false := by simp [some]
  rw [read?, read?, first.1, first.2]
  change readFrom base 0 (cs ++ [c]) = (readFrom base 0 cs).bind _
  rw [readFrom_append]
  congr 1
  funext n
  rw [readFrom]
  cases digitOf? base c <;> rfl

theorem read?_append_zeros {cs : List Char} (some : cs ≠ []) (k : Nat) :
    read? 10 (cs ++ List.replicate k '0') = (read? 10 cs).map (· * 10 ^ k) := by
  induction k with
  | zero => simp
  | succ k ih =>
    have zero : digitOf? 10 '0' = .some 0 := rfl
    rw [List.replicate_succ', ← List.append_assoc, read?_concat (by simp [some]), ih, zero]
    cases read? 10 cs with
    | none => rfl
    | some n => exact congrArg Option.some (Nat.mul_assoc n (10 ^ k) 10)

theorem readFrom_lt {acc : Nat} {cs : List Char} (read : readFrom base acc cs = some n) :
    n < (acc + 1) * base ^ cs.length := by
  induction cs generalizing acc with
  | nil =>
    cases read
    simp
  | cons c cs ih =>
    rw [readFrom] at read
    cases digit : digitOf? base c with
    | none =>
      rw [digit] at read
      cases read
    | some d =>
      rw [digit] at read
      have small : d < base := by simpa using (Option.filter_eq_some_iff.mp digit).2
      have step : acc * base + d + 1 ≤ (acc + 1) * base := by rw [Nat.add_one_mul]; omega
      calc n < (acc * base + d + 1) * base ^ cs.length := ih read
        _ ≤ (acc + 1) * base * base ^ cs.length := Nat.mul_le_mul_right _ step
        _ = (acc + 1) * base ^ (c :: cs).length := by
          rw [List.length_cons, Nat.pow_succ, Nat.mul_comm (base ^ cs.length), Nat.mul_assoc]

theorem read?_lt {cs : List Char} (read : read? base cs = some n) : n < base ^ cs.length := by
  rw [read?] at read
  split at read
  · cases read
  · simpa using readFrom_lt read

theorem write_of_lt (small : n < base) : write base n = [digitChar n] := by
  rw [write, dif_pos (Or.inr small)]

theorem write_of_le (two : 2 ≤ base) (large : base ≤ n) :
    write base n = write base (n / base) ++ [digitChar (n % base)] := by
  rw [write, dif_neg (by omega)]

theorem write_ne_nil : write base n ≠ [] := by
  rw [write]
  split <;> simp

theorem readFrom_write (two : 2 ≤ base) (few : base ≤ 36) : readFrom base 0 (write base n) = some n := by
  induction n using Nat.strongRecOn with
  | ind n ih =>
    by_cases small : n < base
    · rw [write_of_lt small, readFrom, digitOf?_digitChar few small]
      simp [readFrom]
    · have large : base ≤ n := Nat.le_of_not_lt small
      have last : n % base < base := Nat.mod_lt n (by omega)
      have value : n / base * base + n % base = n := by rw [Nat.mul_comm]; exact Nat.div_add_mod n base
      rw [write_of_le two large, readFrom_append, ih _ (Nat.div_lt_self (by omega) two), Option.bind_some,
        readFrom, digitOf?_digitChar few last]
      simp [readFrom, value]

/-- A written numeral reads back as its number. -/
theorem read?_write (two : 2 ≤ base) (few : base ≤ 36) : read? base (write base n) = some n := by
  have some : (write base n).isEmpty = false := by simp [write_ne_nil]
  rw [read?, some]
  exact readFrom_write two few

theorem forall_mem_write {P : Char → Prop} (two : 2 ≤ base) (digits : ∀ d < base, P (digitChar d)) :
    ∀ c ∈ write base n, P c := by
  induction n using Nat.strongRecOn with
  | ind n ih =>
    by_cases small : n < base
    · rw [write_of_lt small, List.forall_mem_singleton]
      exact digits n small
    · rw [write_of_le two (Nat.le_of_not_lt small), List.forall_mem_append, List.forall_mem_singleton]
      exact ⟨ih _ (Nat.div_lt_self (by omega) two), digits _ (Nat.mod_lt n (by omega))⟩

theorem isDigit_write : ∀ c ∈ write 10 n, c.isDigit = true :=
  forall_mem_write (by decide) (by decide)

/-- Only zero begins with the digit zero. -/
theorem write_eq_zero_cons {cs : List Char} (zero : write 10 n = '0' :: cs) : n = 0 ∧ cs = [] := by
  induction n using Nat.strongRecOn generalizing cs with
  | ind n ih =>
    by_cases single : n < 10
    · have all : ∀ d < 10, digitChar d = '0' → d = 0 := by decide
      rw [write_of_lt single, List.cons.injEq] at zero
      exact ⟨all n single zero.1, zero.2.symm⟩
    · rw [write_of_le (by decide) (Nat.le_of_not_lt single)] at zero
      have more : write 10 (n / 10) ≠ [] := write_ne_nil
      obtain ⟨c, ds, higher⟩ := List.exists_cons_of_ne_nil more
      rw [higher, List.cons_append, List.cons.injEq] at zero
      rw [zero.1] at higher
      have none := (ih (n / 10) (Nat.div_lt_self (by omega) (by decide)) higher).1
      omega

theorem length_write_le {width : Nat} (some : 0 < width) (small : n < 10 ^ width) :
    (write 10 n).length ≤ width := by
  induction width generalizing n with
  | zero => omega
  | succ width ih =>
    by_cases single : n < 10
    · rw [write_of_lt single, List.length_singleton]
      exact some
    · have shorter : n / 10 < 10 ^ width := Nat.div_lt_of_lt_mul (by rwa [Nat.mul_comm, ← Nat.pow_succ])
      have still : 0 < width := by
        rcases Nat.eq_zero_or_pos width with rfl | still
        · simp at small
          omega
        · exact still
      rw [write_of_le (by decide) (Nat.le_of_not_lt single), List.length_append, List.length_singleton]
      exact Nat.succ_le_succ (ih still shorter)

theorem readFrom_zeros (few : 0 < base) (k : Nat) (cs : List Char) :
    readFrom base 0 (List.replicate k '0' ++ cs) = readFrom base 0 cs := by
  induction k with
  | zero => rfl
  | succ k ih =>
    have zero : digitOf? base '0' = some 0 := by simp [digitOf?, digit?, few]
    rw [List.replicate_succ, List.cons_append, readFrom, zero]
    simpa using ih

section Padded

variable {width : Nat}

theorem toList_padded :
    (padded width n).toList = List.replicate (width - (write 10 n).length) '0' ++ write 10 n :=
  String.toList_ofList

theorem read?_padded : read? 10 (padded width n).toList = some n := by
  have some : ((padded width n).toList).isEmpty = false := by simp [toList_padded, write_ne_nil]
  rw [read?, some, toList_padded]
  exact (readFrom_zeros (by decide) _ _).trans (readFrom_write (by decide) (by decide))

theorem isDigit_padded : ∀ c ∈ (padded width n).toList, c.isDigit = true := by
  rw [toList_padded, List.forall_mem_append]
  refine ⟨fun c member => ?_, isDigit_write⟩
  rw [List.eq_of_mem_replicate member]
  rfl

theorem length_padded (some : 0 < width) (small : n < 10 ^ width) :
    (padded width n).toList.length = width := by
  have short := length_write_le some small
  rw [toList_padded, List.length_append, List.length_replicate]
  omega

end Padded

end ChangeFeed.Text.Numeral
