import ChangeFeed.Json.Value
import ChangeFeed.Proofs.Text.Numerals
import ChangeFeed.Proofs.Text.Utf8

/-!
The compact text of a value as bytes. Main statement: whatever the value, none of them is a control
character, so that the text stands on one line.
-/
namespace ChangeFeed.Json

open Text

/-- Without control characters below the blank. -/
def Clean (cs : List Char) : Prop := ∀ c ∈ cs, 32 ≤ c.toNat

instance (cs : List Char) : Decidable (Clean cs) :=
  decidable_of_iff (cs.all fun c => 32 ≤ c.toNat) (by simp [Clean])

section Clean

variable {c : Char} {cs cs' : List Char}

theorem Clean.nil : Clean [] := by simp [Clean]

theorem Clean.cons (first : 32 ≤ c.toNat) (rest : Clean cs) : Clean (c :: cs) :=
  List.forall_mem_cons.mpr ⟨first, rest⟩

theorem Clean.append (front : Clean cs) (back : Clean cs') : Clean (cs ++ cs') :=
  List.forall_mem_append.mpr ⟨front, back⟩

theorem Clean.ite {p : Prop} [Decidable p] (yes : Clean cs) (no : Clean cs') :
    Clean (if p then cs else cs') := by
  split
  · exact yes
  · exact no

theorem Clean.singleton (only : 32 ≤ c.toNat) : Clean [c] := .cons only .nil

end Clean

theorem clean_decimal (n : Nat) : Clean (Numeral.decimal n).toList := by
  intro c member
  rw [Numeral.decimal, String.toList_ofList] at member
  have digit := Numeral.isDigit_write c member
  rw [Char.isDigit_iff_toNat] at digit
  exact Nat.le_trans (by decide) digit.1

theorem clean_integer (i : Int) : Clean (Numeral.integer i).toList := by
  cases i with
  | ofNat n => exact clean_decimal n
  | negSucc n =>
    rw [Numeral.integer, String.toList_append]
    exact .append (.singleton (by decide)) (clean_decimal (n + 1))

theorem clean_numberText (n : JsonNumber) : Clean (numberText n).toList := by
  unfold numberText
  split
  · exact clean_integer n.mantissa
  · rw [String.toList_append, String.toList_append]
    exact .append (.append (clean_integer n.mantissa) (.singleton (by decide))) (clean_integer n.exponent)

theorem clean_digitChar {d : Nat} (small : d < 16) : 32 ≤ (Numeral.digitChar d).toNat := by
  have all : ∀ d < 16, 32 ≤ (Numeral.digitChar d).toNat := by decide
  exact all d small

/-- A control character is told by others. -/
theorem clean_escape (c : Char) : Clean (escape c) := by
  unfold escape
  iterate 7 refine .ite (by decide) ?_
  split
  · rename_i low
    have digits : Clean [Numeral.digitChar (c.toNat / 16), Numeral.digitChar (c.toNat % 16)] :=
      .cons (clean_digitChar (by omega)) (.singleton (clean_digitChar (by omega)))
    have mark : Clean ['\\', 'u', '0', '0'] := by decide
    exact mark.append digits
  · rename_i high
    exact .singleton (Nat.le_of_not_lt high)

theorem clean_quote (s : String) : Clean (quote s) := by
  refine .cons (by decide) (.append ?_ (.singleton (by decide)))
  exact List.forall_mem_flatMap.mpr fun c _ => clean_escape c

mutual

theorem clean_compact (v : Json) : Clean (compact v) := by
  match v with
  | .null | .bool true | .bool false => decide
  | .number n => exact clean_numberText n
  | .string s => exact clean_quote (s.getD "")
  | .array items => exact .cons (by decide) (.append (clean_compactItems items) (.singleton (by decide)))
  | .object members =>
    exact .cons (by decide) (.append (clean_compactMembers members) (.singleton (by decide)))

theorem clean_compactItems (vs : List Json) : Clean (compactItems vs) := by
  match vs with
  | [] => exact .nil
  | [v] => exact clean_compact v
  | v :: w :: vs => exact .append (clean_compact v) (.cons (by decide) (clean_compactItems (w :: vs)))

theorem clean_compactMembers (ms : List (Option String × Json)) : Clean (compactMembers ms) := by
  match ms with
  | [] => exact .nil
  | [(key, v)] => exact .append (clean_quote (key.getD "")) (.cons (by decide) (clean_compact v))
  | (key, v) :: m :: ms =>
    exact .append (.append (clean_quote (key.getD "")) (.cons (by decide) (clean_compact v)))
      (.cons (by decide) (clean_compactMembers (m :: ms)))

end

/-- No byte of a value's text is that of a control character. -/
theorem compactText_low (v : Json) : ∀ b ∈ Bytes.ofString v.compactText, 0x20 ≤ b := by
  have clean : ∀ c ∈ v.compactText.toList, 32 ≤ c.toNat := by
    rw [compactText, String.toList_ofList]
    exact clean_compact v
  exact fun b own => UInt8.le_iff_toNat_le.mpr (Bytes.le_of_mem_ofString (by decide) clean b own)

end ChangeFeed.Json
