import ChangeFeed.Json.Reader
import ChangeFeed.Proofs.Text.Numerals

/-!
Strings and numbers in JSON texts. Main statements: a quoted text and a written integer read back as
what they were written for.
-/
namespace ChangeFeed.Json

open Text

/-- Whether a character is written by its number: a control character that has no letter. -/
def isNumbered (c : Char) : Bool :=
  c.toNat < 32 && c != '\n' && c != '\r' && c != '\t' && c != '\x08' && c != '\x0c'

/-- What the escape of a character is read as. -/
def piece (c : Char) : Piece := if isNumbered c then .unit c.toNat else .char c

theorem unit?_digits {n : Nat} (small : n < 32) (rest : List Char) :
    unit? ('0' :: '0' :: Numeral.digitChar (n / 16) :: Numeral.digitChar (n % 16) :: rest) =
      some (n, rest) := by
  have all : ∀ n < 32, Numeral.read? 16
      ['0', '0', Numeral.digitChar (n / 16), Numeral.digitChar (n % 16)] = some n := by decide
  rw [unit?, all n small]
  rfl

theorem pieces?_escape (fuel : Nat) (c : Char) (rest : List Char) :
    pieces? (fuel + 1) (escape c ++ rest) =
      (pieces? fuel rest).map fun p => (piece c :: p.1, p.2) := by
  have lettered {e : Char} (known : simpleEscape? e = some c) (other : e ≠ 'u')
      (plain : isNumbered c = false) (escaped : escape c = ['\\', e]) :
      pieces? (fuel + 1) (escape c ++ rest) = (pieces? fuel rest).map fun p => (piece c :: p.1, p.2) := by
    rw [escaped]
    change pieces? (fuel + 1) ('\\' :: e :: rest) = _
    rw [pieces?, if_neg (by decide), if_pos rfl, known, piece, plain]
    · cases pieces? fuel rest <;> rfl
    · exact other
  by_cases letter : c = '"' ∨ c = '\\' ∨ c = '\n' ∨ c = '\r' ∨ c = '\t' ∨ c = '\x08' ∨ c = '\x0c'
  · rcases letter with rfl | rfl | rfl | rfl | rfl | rfl | rfl <;>
      exact lettered rfl (by decide) rfl rfl
  · simp only [not_or] at letter
    obtain ⟨mark, slash, others⟩ := letter
    by_cases low : c.toNat < 32
    · have numbered : isNumbered c = true := by simp [isNumbered, low, others]
      have escaped : escape c =
          ['\\', 'u', '0', '0', Numeral.digitChar (c.toNat / 16), Numeral.digitChar (c.toNat % 16)] := by
        simp [escape, mark, slash, others, low]
      rw [escaped]
      change pieces? (fuel + 1) ('\\' :: 'u' :: '0' :: '0' :: _ :: _ :: rest) = _
      rw [pieces?, if_neg (by decide), if_pos rfl, unit?_digits low, piece, numbered, Option.bind_eq_bind,
        Option.bind_some]
      dsimp only
      cases pieces? fuel rest <;> rfl
    · have plain : isNumbered c = false := by simp [isNumbered, low]
      have escaped : escape c = [c] := by simp [escape, mark, slash, others, low]
      rw [escaped, piece, plain]
      change pieces? (fuel + 1) (c :: rest) = _
      conv => lhs; unfold pieces?
      dsimp only
      rw [if_neg mark, if_neg slash, if_neg low]
      cases pieces? fuel rest <;> rfl

theorem pieces?_quoted {fuel : Nat} {cs : List Char} (enough : cs.length < fuel) (rest : List Char) :
    pieces? fuel (cs.flatMap escape ++ '"' :: rest) = some (cs.map piece, rest) := by
  induction cs generalizing fuel with
  | nil =>
    obtain ⟨fuel, rfl⟩ := Nat.exists_eq_succ_of_ne_zero (Nat.ne_of_gt enough)
    rfl
  | cons c cs ih =>
    obtain ⟨fuel, rfl⟩ := Nat.exists_eq_succ_of_ne_zero (Nat.ne_of_gt (Nat.zero_lt_of_lt enough))
    rw [List.flatMap_cons, List.append_assoc, pieces?_escape, ih (Nat.lt_of_succ_lt_succ enough)]
    rfl

theorem join?_unit {n : Nat} (high : isHigh n = false) (trailing : isLow n = false) (ps : List Piece) :
    join? (.unit n :: ps) = (join? ps).map (Char.ofNat n :: ·) := by
  obtain _ | ⟨_ | _, _⟩ := ps <;> simp [join?, high, trailing]

theorem join?_pieces (cs : List Char) : join? (cs.map piece) = some cs := by
  induction cs with
  | nil => rfl
  | cons c cs ih =>
    rw [List.map_cons, piece]
    split
    · rename_i numbered
      have low : c.toNat < 32 := by
        simp only [isNumbered, Bool.and_eq_true, decide_eq_true_eq] at numbered
        exact numbered.1.1.1.1.1
      have high : isHigh c.toNat = false := by simp [isHigh]; omega
      have trailing : isLow c.toNat = false := by simp [isLow]; omega
      rw [join?_unit high trailing, ih, Char.ofNat_toNat]
      rfl
    · rw [join?, ih]
      rfl

theorem length_le_escape (cs : List Char) : cs.length ≤ (cs.flatMap escape).length := by
  induction cs with
  | nil => exact Nat.le_refl _
  | cons c cs ih =>
    have some : 1 ≤ (escape c).length := by
      unfold escape
      repeat' split
      all_goals simp
    rw [List.flatMap_cons, List.length_append, List.length_cons]
    omega

theorem string?_quote (s : String) (rest : List Char) :
    string? (s.toList.flatMap escape ++ '"' :: rest) = some (some s, rest) := by
  have enough : s.toList.length < (s.toList.flatMap escape ++ '"' :: rest).length + 1 := by
    have long := length_le_escape s.toList
    rw [List.length_append]
    omega
  rw [string?, pieces?_quoted enough, Option.map_some, join?_pieces, Option.map_some, String.ofList_toList]

/-- No number goes on with such a text. -/
def Ends (rest : List Char) : Prop :=
  ∀ c ∈ rest.head?, c.isDigit = false ∧ c ≠ '.' ∧ c ≠ 'e' ∧ c ≠ 'E'

section Numbers

variable {rest : List Char} (ends : Ends rest)
include ends

theorem digits_append {ds : List Char} (all : ∀ c ∈ ds, c.isDigit = true) : digits (ds ++ rest) = (ds, rest) := by
  have stops : rest.takeWhile (·.isDigit) = [] ∧ rest.dropWhile (·.isDigit) = rest := by
    cases rest with
    | nil => exact ⟨rfl, rfl⟩
    | cons c cs => simp [(ends c rfl).1]
  rw [digits, List.takeWhile_append_of_pos all, List.dropWhile_append_of_pos all, stops.1, stops.2,
    List.append_nil]

theorem whole?_write (n : Nat) : whole? (Numeral.write 10 n ++ rest) = some (Numeral.write 10 n, rest) := by
  have all := digits_append ends (Numeral.isDigit_write (n := n))
  have some : Numeral.write 10 n ≠ [] := Numeral.write_ne_nil
  have zero (cs : List Char) := @Numeral.write_eq_zero_cons n cs
  generalize Numeral.write 10 n = ds at *
  rw [whole?, all]
  split
  · rename_i none; cases none; exact absurd rfl some
  · rename_i same; cases same; rfl
  · rename_i other same
    cases same
    exact (other (zero _ rfl).2).elim
  · rename_i same; cases same; rfl

theorem fraction?_none : fraction? rest = some ([], rest) := by
  unfold fraction?
  split
  · exact absurd rfl (ends '.' rfl).2.1
  · rfl

theorem exponent?_none : exponent? rest = some (none, rest) := by
  cases rest with
  | nil => rfl
  | cons c cs =>
    obtain ⟨-, -, small, capital⟩ := ends c rfl
    change (if c = 'e' ∨ c = 'E' then _ else some (none, c :: cs)) = _
    exact if_neg (by simp [small, capital])

theorem number?_write (negative : Bool) (n : Nat) : number? negative (Numeral.write 10 n ++ rest) =
    some (⟨if negative then -(n : Int) else n, 0, !(negative && n == 0)⟩, rest) := by
  have value : Numeral.read? 10 (Numeral.write 10 n) = some n := Numeral.read?_write (by decide) (by decide)
  simp [number?, whole?_write ends, fraction?_none ends, exponent?_none ends, value]

end Numbers

end ChangeFeed.Json
