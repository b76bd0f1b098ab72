import ChangeFeed.Proofs.Text.Utf8

/-!
Classes of characters that each of their bytes tells. Main statement: where bytes tell a class, going
over the bytes of a text as long as they are in the class is going over its characters.
-/
namespace ChangeFeed.Text.Utf8

/-- The bytes of a text. -/
def encode (cs : List Char) : Bytes := cs.flatMap String.utf8EncodeChar

@[simp] theorem encode_nil : encode [] = [] := rfl

@[simp] theorem encode_cons (c : Char) (cs : List Char) :
    encode (c :: cs) = String.utf8EncodeChar c ++ encode cs := List.flatMap_cons

@[simp] theorem encode_append (a b : List Char) : encode (a ++ b) = encode a ++ encode b :=
  List.flatMap_append

theorem ofString_eq_encode (s : String) : Bytes.ofString s = encode s.toList := Bytes.ofString_eq s

theorem encode_ascii {c : Char} (ascii : c.toNat < 128) :
    String.utf8EncodeChar c = [UInt8.ofNat c.toNat] := by
  unfold String.utf8EncodeChar
  exact if_pos (Nat.le_of_lt_succ ascii)

/-- A text begins with the first byte of its first character, which is no byte that goes on with one. -/
theorem encode_begins (c : Char) : ∃ b bs, String.utf8EncodeChar c = b :: bs ∧ (b < 0x80 ∨ 0xC0 ≤ b) := by
  obtain ⟨b, bs, encoded, begins⟩ := head_encode c []
  refine ⟨b, bs, encoded, ?_⟩
  by_cases ascii : b < 0x80
  · exact .inl ascii
  rw [head, if_neg ascii] at begins
  refine .inr (UInt8.not_lt.mp fun low => ?_)
  have none : lead? b = none := by
    have less : b < 0xC2 := UInt8.lt_trans low (by decide)
    rw [lead?, if_pos less]
  rw [none] at begins
  cases begins

theorem encode_eq_nil {cs : List Char} : encode cs = [] ↔ cs = [] := by
  constructor
  · intro empty
    cases cs with
    | nil => rfl
    | cons c cs =>
      obtain ⟨b, bs, encoded, -⟩ := encode_begins c
      rw [encode_cons, encoded] at empty
      cases empty
  · rintro rfl
    rfl

/-- Each byte of a character is in the one class exactly if the character is in the other. -/
def Tells (p : UInt8 → Bool) (q : Char → Bool) : Prop := ∀ c, ∀ b ∈ String.utf8EncodeChar c, p b = q c

/-- Classes that agree on ASCII and hold all else, or nothing of it. -/
theorem tells_of_ascii {p : UInt8 → Bool} {q : Char → Bool} (others : Bool)
    (ascii : ∀ n < 128, p (UInt8.ofNat n) = q (Char.ofNat n))
    (bytes : ∀ n < 256, 128 ≤ n → p (UInt8.ofNat n) = others)
    (characters : ∀ c : Char, 128 ≤ c.toNat → q c = others) : Tells p q := by
  intro c b own
  by_cases low : c.toNat < 128
  · rw [encode_ascii low, List.mem_singleton] at own
    rw [own, ascii _ low, Char.ofNat_toNat]
  · have high := Nat.le_of_not_lt low
    have byte := bytes b.toNat b.toNat_lt (Bytes.le_of_mem_encode (Nat.le_refl 128) high b own)
    rw [UInt8.ofNat_toNat] at byte
    rw [byte, characters c high]

section Tells

variable {p : UInt8 → Bool} {q : Char → Bool}

theorem Tells.head (tells : Tells p q) (c : Char) :
    ∃ b bs, String.utf8EncodeChar c = b :: bs ∧ p b = q c := by
  obtain ⟨b, bs, encoded, -⟩ := encode_begins c
  exact ⟨b, bs, encoded, tells c b (by rw [encoded]; exact List.mem_cons_self)⟩

theorem Tells.all_encode (tells : Tells p q) (cs : List Char) : (encode cs).all p = cs.all q := by
  induction cs with
  | nil => rfl
  | cons c cs ih =>
    obtain ⟨b, bs, encoded, first⟩ := tells.head c
    have character : (String.utf8EncodeChar c).all p = q c := by
      cases same : q c with
      | true => exact List.all_eq_true.mpr fun b own => (tells c b own).trans same
      | false => rw [encoded, List.all_cons, first, same, Bool.false_and]
    rw [encode_cons, List.all_append, character, ih, List.all_cons]

theorem Tells.span_encode (tells : Tells p q) (cs : List Char) :
    (encode cs).takeWhile p = encode (cs.takeWhile q) ∧
      (encode cs).dropWhile p = encode (cs.dropWhile q) := by
  induction cs with
  | nil => exact ⟨rfl, rfl⟩
  | cons c cs ih =>
    cases same : q c with
    | true =>
      have inside : ∀ b ∈ String.utf8EncodeChar c, p b = true := fun b own => (tells c b own).trans same
      rw [encode_cons, List.takeWhile_append_of_pos inside, List.dropWhile_append_of_pos inside, ih.1, ih.2,
        List.takeWhile_cons_of_pos same, List.dropWhile_cons_of_pos same]
      exact ⟨(encode_cons c _).symm, rfl⟩
    | false =>
      obtain ⟨b, bs, encoded, first⟩ := tells.head c
      have outside : ¬ p b = true := by rw [first, same]; nofun
      have outside' : ¬ q c = true := by rw [same]; nofun
      rw [List.takeWhile_cons_of_neg outside', List.dropWhile_cons_of_neg outside', encode_cons, encoded,
        List.cons_append, List.takeWhile_cons_of_neg outside, List.dropWhile_cons_of_neg outside]
      exact ⟨rfl, rfl⟩

end Tells

end ChangeFeed.Text.Utf8
