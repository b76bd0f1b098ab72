import ChangeFeed.Error
import ChangeFeed.Proofs.Text.Numerals
import Mathlib.Data.List.Induction

/-!
The notation of positions. Main statement: a text is read as a position exactly if it has two halves in
hexadecimal digits with a slash between them, and of all texts that are read as a position one is
written in capitals and without leading zeros, the text of that position.
-/
namespace ChangeFeed.Text.Numeral

/-- A hexadecimal digit of that value, in either case. -/
def HexDigit (c : Char) (d : Nat) : Prop :=
  "0123456789abcdef".toList[d]? = some c ∨ "0123456789ABCDEF".toList[d]? = some c

/-- One or more hexadecimal digits, and their value. -/
inductive HexDigits : List Char → Nat → Prop
  | digit {c d} : HexDigit c d → HexDigits [c] d
  | more {cs n c d} : HexDigits cs n → HexDigit c d → HexDigits (cs ++ [c]) (n * 16 + d)

/-- Digits in capitals; the first is zero only if it is the only one. -/
structure Capital (cs : List Char) : Prop where
  ne_nil : cs ≠ []
  upper : ∀ c ∈ cs, c ∈ "0123456789ABCDEF".toList
  leading : cs.head? = some '0' → cs = ['0']

section Digits

variable {c : Char} {d : Nat}

theorem HexDigit.lt (digit : HexDigit c d) : d < 16 := by
  rcases digit with lower | upper
  · exact (List.getElem?_eq_some_iff.mp lower).1
  · exact (List.getElem?_eq_some_iff.mp upper).1

/-- A digit that is read is the character of its value in one of the three ranges. -/
theorem digit?_eq_some (read : digit? c = some d) :
    d < 10 ∧ c = Char.ofNat (48 + d) ∨ 10 ≤ d ∧ (c = Char.ofNat (87 + d) ∨ c = Char.ofNat (55 + d)) := by
  have here {n : Nat} (same : c.toNat = n) : c = Char.ofNat n := by rw [← same, Char.ofNat_toNat]
  unfold digit? at read
  simp only [Char.le_def, UInt32.le_iff_toNat_le] at read
  change (if 48 ≤ c.toNat ∧ c.toNat ≤ 57 then _ else if 97 ≤ c.toNat ∧ c.toNat ≤ 122 then _ else
    if 65 ≤ c.toNat ∧ c.toNat ≤ 90 then _ else _) = _ at read
  split at read
  · cases read
    exact .inl ⟨by omega, here (by omega)⟩
  split at read
  · cases read
    exact .inr ⟨by omega, .inl (here (by omega))⟩
  split at read
  · cases read
    exact .inr ⟨by omega, .inr (here (by omega))⟩
  · cases read

theorem eq_getD {cs : List Char} (here : c ∈ cs[d]?) : c = cs.getD d '0' := by
  rw [List.getD_eq_getElem?_getD, Option.mem_def.mp here]
  rfl

theorem digitOf?_sixteen_eq_some : digitOf? 16 c = some d ↔ HexDigit c d := by
  constructor
  · intro read
    obtain ⟨value, small⟩ := Option.filter_eq_some_iff.mp read
    have small : d < 16 := by simpa using small
    have decimal : ∀ d < 10, HexDigit (Char.ofNat (48 + d)) d := by unfold HexDigit; decide
    have letters : ∀ d < 16, 10 ≤ d → HexDigit (Char.ofNat (87 + d)) d ∧ HexDigit (Char.ofNat (55 + d)) d := by
      unfold HexDigit
      decide
    rcases digit?_eq_some value with ⟨low, rfl⟩ | ⟨high, rfl | rfl⟩
    · exact decimal d low
    · exact (letters d small high).1
    · exact (letters d small high).2
  · intro digit
    have lowers : ∀ d < 16, digitOf? 16 ("0123456789abcdef".toList.getD d '0') = some d := by decide
    have uppers : ∀ d < 16, digitOf? 16 ("0123456789ABCDEF".toList.getD d '0') = some d := by decide
    have small := HexDigit.lt digit
    rcases digit with lower | upper
    · rw [eq_getD lower]
      exact lowers d small
    · rw [eq_getD upper]
      exact uppers d small

/-- The capital of a value. -/
theorem HexDigit.eq_capital (digit : HexDigit c d) (upper : c ∈ "0123456789ABCDEF".toList) :
    c = (digitChar d).toUpper := by
  have lowers : ∀ d < 16, "0123456789abcdef".toList.getD d '0' ∈ "0123456789ABCDEF".toList →
      "0123456789abcdef".toList.getD d '0' = (digitChar d).toUpper := by decide
  have uppers : ∀ d < 16, "0123456789ABCDEF".toList.getD d '0' = (digitChar d).toUpper := by decide
  have small := digit.lt
  rcases digit with lower | upper'
  · rw [eq_getD lower] at upper ⊢
    exact lowers d small upper
  · rw [eq_getD upper']
    exact uppers d small

theorem hexDigit_capital (small : d < 16) : HexDigit (digitChar d).toUpper d := by
  have all : ∀ d < 16, HexDigit (digitChar d).toUpper d := by unfold HexDigit; decide
  exact all d small

theorem capital_mem (small : d < 16) : (digitChar d).toUpper ∈ "0123456789ABCDEF".toList := by
  have all : ∀ d < 16, (digitChar d).toUpper ∈ "0123456789ABCDEF".toList := by decide
  exact all d small

end Digits

section Numerals

variable {cs : List Char} {n : Nat}

theorem HexDigits.ne_nil (digits : HexDigits cs n) : cs ≠ [] := by
  cases digits with
  | digit => simp
  | more => simp

theorem HexDigits.read (digits : HexDigits cs n) : read? 16 cs = some n := by
  induction digits with
  | digit digit => simp [read?, readFrom, digitOf?_sixteen_eq_some.mpr digit]
  | more digits digit ih =>
    rw [read?_concat digits.ne_nil, ih, Option.bind_some, digitOf?_sixteen_eq_some.mpr digit]
    rfl

theorem read?_sixteen_eq_some : read? 16 cs = some n ↔ HexDigits cs n := by
  refine ⟨fun read => ?_, HexDigits.read⟩
  induction cs using List.reverseRecOn generalizing n with
  | nil => cases read
  | append_singleton cs c ih =>
    by_cases single : cs = []
    · subst single
      have digit : digitOf? 16 c = some n := by
        change readFrom 16 0 [c] = some n at read
        rw [readFrom] at read
        cases value : digitOf? 16 c <;> rw [value] at read <;> cases read
        simp
      exact .digit (digitOf?_sixteen_eq_some.mp digit)
    · rw [read?_concat single] at read
      obtain ⟨m, before, rest⟩ := Option.bind_eq_some_iff.mp read
      obtain ⟨d, digit, rfl⟩ := Option.map_eq_some_iff.mp rest
      exact .more (ih before) (digitOf?_sixteen_eq_some.mp digit)

theorem head?_concat (some : cs ≠ []) (c : Char) : (cs ++ [c]).head? = cs.head? := by
  obtain ⟨d, ds, rfl⟩ := List.exists_cons_of_ne_nil some
  rfl

theorem HexDigits.notMem {c : Char} (digits : HexDigits cs n) (other : ∀ d, ¬ HexDigit c d) : c ∉ cs := by
  induction digits with
  | digit digit =>
    rw [List.mem_singleton]
    rintro rfl
    exact other _ digit
  | more _ digit ih =>
    rw [List.mem_append, List.mem_singleton]
    rintro (before | rfl)
    · exact ih before
    · exact other _ digit

/-- The capitals of a number. -/
def capitals (n : Nat) : List Char := (write 16 n).map Char.toUpper

theorem capitals_of_lt (small : n < 16) : capitals n = [(digitChar n).toUpper] := by
  rw [capitals, write_of_lt small]
  rfl

theorem capitals_step {d : Nat} (some : 0 < n) (small : d < 16) :
    capitals (n * 16 + d) = capitals n ++ [(digitChar d).toUpper] := by
  have higher : (n * 16 + d) / 16 = n := by omega
  have last : (n * 16 + d) % 16 = d := by omega
  rw [capitals, write_of_le (by decide) (by omega), higher, last, List.map_append]
  rfl

theorem hexDigits_capitals (n : Nat) : HexDigits (capitals n) n := by
  induction n using Nat.strongRecOn with
  | ind n ih =>
    by_cases small : n < 16
    · rw [capitals_of_lt small]
      exact .digit (hexDigit_capital small)
    · have split : n / 16 * 16 + n % 16 = n := by omega
      have last : n % 16 < 16 := Nat.mod_lt n (by decide)
      rw [← split, capitals_step (by omega) last]
      exact .more (ih (n / 16) (by omega)) (hexDigit_capital last)

theorem capital_capitals (n : Nat) : Capital (capitals n) := by
  have zero : ∀ d < 16, (digitChar d).toUpper = '0' → d = 0 := by decide
  refine ⟨by simp [capitals, write_ne_nil], ?_, ?_⟩
  · intro c member
    obtain ⟨d, written, rfl⟩ := List.mem_map.mp member
    exact forall_mem_write (P := fun c => c.toUpper ∈ "0123456789ABCDEF".toList) (by decide)
      (fun d small => capital_mem small) d written
  · induction n using Nat.strongRecOn with
    | ind n ih =>
      intro leading
      by_cases small : n < 16
      · rw [capitals_of_lt small] at leading ⊢
        simpa using leading
      · -- The digits before the last are those of a smaller number, which is not zero.
        have split : n / 16 * 16 + n % 16 = n := by omega
        rw [← split, capitals_step (by omega) (Nat.mod_lt n (by decide)),
          head?_concat (hexDigits_capitals _).ne_nil] at leading
        have single := ih (n / 16) (by omega) leading
        have value := (hexDigits_capitals (n / 16)).read
        rw [single] at value
        have none : n / 16 = 0 := (Option.some.inj (value.symm.trans rfl))
        omega

/-- There is one way to write a number in capitals without leading zeros. -/
theorem HexDigits.eq_capitals (digits : HexDigits cs n) (capital : Capital cs) : cs = capitals n := by
  induction digits with
  | digit digit =>
    rw [capitals_of_lt digit.lt, ← digit.eq_capital (capital.upper _ List.mem_cons_self)]
  | @more cs n c d digits digit ih =>
    have unzero : cs.head? ≠ some '0' := fun zero => by
      have whole := capital.leading ((head?_concat digits.ne_nil c).trans zero)
      have single : cs = [] := by simpa using congrArg List.dropLast whole
      exact digits.ne_nil single
    have before := ih ⟨digits.ne_nil, fun c member => capital.upper c (List.mem_append_left _ member),
      fun zero => absurd zero unzero⟩
    have some : 0 < n := Nat.pos_of_ne_zero fun none => by
      subst none
      exact unzero (by rw [before, capitals_of_lt (by decide)]; rfl)
    rw [capitals_step some digit.lt, ← before,
      ← digit.eq_capital (capital.upper c (List.mem_append_right _ List.mem_cons_self))]

end Numerals

end ChangeFeed.Text.Numeral

namespace ChangeFeed.Lsn

open Text Numeral

/-- A half of a position: hexadecimal digits, which a plus sign may precede, of a value of 32 bits. -/
inductive Half : List Char → Nat → Prop
  | unsigned {cs n} : HexDigits cs n → n < 2 ^ 32 → Half cs n
  | signed {cs n} : HexDigits cs n → n < 2 ^ 32 → Half ('+' :: cs) n

/-- A text stands for a position: its two halves with a slash between them. -/
def Denotes (s : String) (l : Lsn) : Prop :=
  ∃ a b high low, s.toList = a ++ '/' :: b ∧ Half a high ∧ Half b low ∧ l.offset = high * 2 ^ 32 + low

/-- Both halves are in capitals and have no leading zeros. -/
def Canonical (s : String) : Prop := ∃ a b, s.toList = a ++ '/' :: b ∧ Capital a ∧ Capital b

theorem not_hexDigit_slash (d : Nat) : ¬ HexDigit '/' d := by
  intro digit
  have all : ∀ d < 16, ¬ HexDigit '/' d := by unfold HexDigit; decide
  exact all d digit.lt digit

theorem not_hexDigit_plus (d : Nat) : ¬ HexDigit '+' d := by
  intro digit
  have all : ∀ d < 16, ¬ HexDigit '+' d := by unfold HexDigit; decide
  exact all d digit.lt digit

section Halves

variable {cs : List Char} {n : Nat}

theorem unsigned?_of_notMem (bare : '+' ∉ cs) :
    unsigned? 16 UInt32.size cs = (read? 16 cs).filter (· < UInt32.size) := by
  unfold unsigned?
  split
  · exact absurd List.mem_cons_self bare
  · rfl

theorem unsigned?_eq_some : unsigned? 16 UInt32.size cs = some n ↔ Half cs n := by
  have size : UInt32.size = 2 ^ 32 := rfl
  constructor
  · intro read
    obtain ⟨value, small⟩ := Option.filter_eq_some_iff.mp read
    have small : n < 2 ^ 32 := by simpa [size] using small
    split at value
    · exact .signed (read?_sixteen_eq_some.mp value) small
    · exact .unsigned (read?_sixteen_eq_some.mp value) small
  · rintro (⟨digits, small⟩ | ⟨digits, small⟩)
    · rw [unsigned?_of_notMem (digits.notMem not_hexDigit_plus), digits.read, size]
      simpa using small
    · rw [unsigned?, digits.read, size]
      simpa using small

theorem Half.slash_notMem (half : Half cs n) : '/' ∉ cs := by
  cases half with
  | unsigned digits => exact digits.notMem not_hexDigit_slash
  | signed digits =>
    rw [List.mem_cons, not_or]
    exact ⟨by decide, digits.notMem not_hexDigit_slash⟩

theorem Half.lt (half : Half cs n) : n < 2 ^ 32 := by
  cases half with
  | unsigned _ small | signed _ small => exact small

/-- A half in capitals has no sign. -/
theorem Half.eq_capitals (half : Half cs n) (capital : Capital cs) : cs = capitals n := by
  cases half with
  | unsigned digits => exact digits.eq_capitals capital
  | signed => exact absurd (capital.upper '+' List.mem_cons_self) (by decide)

end Halves

section Texts

variable {s : String} {l : Lsn}

theorem offset_ofHalves {high low : Nat} (small : high < 2 ^ 32) (small' : low < 2 ^ 32) :
    (ofHalves high low).offset = high * 2 ^ 32 + low :=
  offset_ofNat (by change high * 2 ^ 32 + low < 2 ^ 64; omega)

theorem ofText?_eq_some : ofText? s = some l ↔ Denotes s l := by
  unfold ofText?
  simp only [Option.bind_eq_bind, Option.bind_eq_some_iff, Option.pure_def, Option.some.injEq, Prod.exists,
    cut?_eq_some_iff, unsigned?_eq_some]
  constructor
  · rintro ⟨a, b, ⟨whole, -⟩, high, first, low, second, rfl⟩
    exact ⟨a, b, high, low, whole, first, second, offset_ofHalves first.lt second.lt⟩
  · rintro ⟨a, b, high, low, whole, first, second, value⟩
    refine ⟨a, b, ⟨whole, first.slash_notMem⟩, high, first, low, second, Lsn.ext ?_⟩
    rw [offset_ofHalves first.lt second.lt, value]

theorem text_toList (l : Lsn) :
    l.text.toList = capitals (l.offset / 2 ^ 32) ++ '/' :: capitals (l.offset % 2 ^ 32) := by
  simp [text, upperHex, capitals, UInt32.size]

theorem denotes_text (l : Lsn) : Denotes l.text l := by
  have high : l.offset / 2 ^ 32 < 2 ^ 32 := Nat.div_lt_of_lt_mul l.offset_lt
  have low : l.offset % 2 ^ 32 < 2 ^ 32 := Nat.mod_lt _ (by decide)
  exact ⟨_, _, _, _, text_toList l, .unsigned (hexDigits_capitals _) high,
    .unsigned (hexDigits_capitals _) low, by omega⟩

theorem canonical_text (l : Lsn) : Canonical l.text :=
  ⟨_, _, text_toList l, capital_capitals _, capital_capitals _⟩

/-- A text has one slash that halves can stand beside. -/
theorem Denotes.eq_text (denotes : Denotes s l) (canonical : Canonical s) : s = l.text := by
  obtain ⟨a, b, high, low, whole, first, second, value⟩ := denotes
  obtain ⟨a', b', whole', capital, capital'⟩ := canonical
  have slash {cs : List Char} (capital : Capital cs) : '/' ∉ cs := fun member =>
    absurd (capital.upper _ member) (by decide)
  have cut := cut?_append (slash capital) b'
  rw [← whole', whole, cut?_append first.slash_notMem] at cut
  cases cut
  have halves : l.offset / 2 ^ 32 = high ∧ l.offset % 2 ^ 32 = low := by
    have := second.lt
    omega
  apply String.toList_injective
  rw [text_toList, halves.1, halves.2, whole, first.eq_capitals capital, second.eq_capitals capital']

theorem parse_eq_ok : parse s = .ok l ↔ ofText? s = some l := by
  unfold parse
  cases ofText? s <;> simp

theorem parse_eq_ok_iff_denotes : parse s = .ok l ↔ Denotes s l := parse_eq_ok.trans ofText?_eq_some

end Texts

/-- The text of a position is read as that position; a text is read as a position exactly if it is two
halves with a slash between them, each a plus sign or none and hexadecimal digits of a value below
`2 ^ 32`, and the position is then that of the halves; the text of a position is the only one in capitals
and without leading zeros that is read as it; and whatever else is read breaks the protocol. -/
theorem parse_notation :
    (∀ l : Lsn, parse l.text = .ok l) ∧
    (∀ s l, parse s = .ok l ↔ Denotes s l) ∧
    (∀ l : Lsn, Canonical l.text ∧ ∀ s, Canonical s → parse s = .ok l → s = l.text) ∧
    (∀ s, (∃ l, Denotes s l) ∨ parse s = .error (.protocol (.invalidLsn s))) := by
  refine ⟨fun l => parse_eq_ok_iff_denotes.mpr (denotes_text l), fun s l => parse_eq_ok_iff_denotes,
    fun l => ⟨canonical_text l, fun s canonical read => ?_⟩, fun s => ?_⟩
  · exact (parse_eq_ok_iff_denotes.mp read).eq_text canonical
  · unfold parse
    cases read : ofText? s with
    | none => exact .inr rfl
    | some l => exact .inl ⟨l, ofText?_eq_some.mp read⟩

example : Denotes "+00a/FF" ⟨10 * 2 ^ 32 + 255, by decide⟩ := ofText?_eq_some.mp (by decide +kernel)

end ChangeFeed.Lsn
