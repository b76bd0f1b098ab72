import ChangeFeed.Text.Utf8

/-!
Texts in UTF-8 as Lean encodes them. Main statement: decoding the bytes of a text gives the text back.
-/
namespace ChangeFeed

theorem Bytes.ofString_toByteArray {s : String} {bs : List UInt8} (data : s.toByteArray = bs.toByteArray) :
    Bytes.ofString s = bs := by
  have loop (a : ByteArray) (i : Nat) (acc : List UInt8) :
      ByteArray.toList.loop a i acc = acc.reverse ++ a.data.toList.drop i := by
    fun_induction ByteArray.toList.loop a i acc with
    | case1 i acc within ih =>
      have within' : i < a.data.toList.length := by simpa using within
      have item : a.get! i = a.data.toList[i] := by
        rw [show a.get! i = a.data[i]! from rfl, getElem!_pos a.data i within]
        simp
      rw [ih, List.drop_eq_getElem_cons within', item]
      simp
    | case2 i acc past =>
      rw [List.drop_eq_nil_of_le (by simpa using Nat.le_of_not_lt past)]
      simp
  rw [Bytes.ofString, String.toUTF8, data, ByteArray.toList, loop, List.data_toByteArray]
  simp

theorem Bytes.ofString_ofList (cs : List Char) :
    Bytes.ofString (String.ofList cs) = cs.flatMap String.utf8EncodeChar :=
  ofString_toByteArray (String.toByteArray_ofList (l := cs))

theorem Bytes.ofString_eq (s : String) : Bytes.ofString s = s.toList.flatMap String.utf8EncodeChar := by
  rw [← Bytes.ofString_ofList, String.ofList_toList]

/-- Characters from some ASCII character on have bytes from its byte on. -/
theorem Bytes.le_of_mem_encode {n : Nat} {c : Char} (ascii : n ≤ 128) (high : n ≤ c.toNat) :
    ∀ b ∈ String.utf8EncodeChar c, n ≤ b.toNat := by
  have byte {k : Nat} (low : n ≤ k) (small : k < 256) : n ≤ (UInt8.ofNat k).toNat := by
    rwa [UInt8.toNat_ofNat_of_lt' small]
  have valid : c.toNat < 0xD800 ∨ 0xDFFF < c.toNat ∧ c.toNat < 0x110000 := c.valid
  unfold String.utf8EncodeChar
  change ∀ b ∈ (if c.toNat ≤ 127 then [UInt8.ofNat c.toNat] else
    if c.toNat ≤ 2047 then _ else if c.toNat ≤ 65535 then _ else _), _
  repeat' split
  all_goals simp only [List.forall_mem_cons]
  · exact ⟨byte high (by omega), by simp⟩
  · exact ⟨byte (by omega) (by omega), byte (by omega) (by omega), by simp⟩
  · exact ⟨byte (by omega) (by omega), byte (by omega) (by omega), byte (by omega) (by omega), by simp⟩
  · exact ⟨byte (by omega) (by omega), byte (by omega) (by omega), byte (by omega) (by omega),
      byte (by omega) (by omega), by simp⟩

theorem Bytes.le_of_mem_ofString {n : Nat} {s : String} (ascii : n ≤ 128) (high : ∀ c ∈ s.toList, n ≤ c.toNat) :
    ∀ b ∈ Bytes.ofString s, n ≤ b.toNat := by
  rw [Bytes.ofString_eq]
  exact List.forall_mem_flatMap.mpr fun c own => le_of_mem_encode ascii (high c own)

namespace Text.Utf8

theorem toNat_ofNat {n : Nat} (byte : n < 256) : (UInt8.ofNat n).toNat = n :=
  UInt8.toNat_ofNat_of_lt' byte

theorem follow_first {value size count n : Nat} {low high : UInt8} (byte : n < 256)
    (fits : low.toNat ≤ n ∧ n ≤ high.toNat) (rest : Bytes) :
    follow value size (count + 1) low high (UInt8.ofNat n :: rest) =
      follow (value * 64 + (n - 0x80)) (size + 1) count 0x80 0xBF rest := by
  have fits' : low ≤ UInt8.ofNat n ∧ UInt8.ofNat n ≤ high := by
    rw [UInt8.le_iff_toNat_le, UInt8.le_iff_toNat_le, toNat_ofNat byte]
    exact fits
  rw [follow, if_pos fits', toNat_ofNat byte]

theorem follow_tail {value size count n : Nat} (small : n < 64) (rest : Bytes) :
    follow value size (count + 1) 0x80 0xBF (UInt8.ofNat (n + 128) :: rest) =
      follow (value * 64 + n) (size + 1) count 0x80 0xBF rest := by
  have fits : (0x80 : UInt8).toNat ≤ n + 128 ∧ n + 128 ≤ (0xBF : UInt8).toNat :=
    ⟨Nat.le_add_left _ _, by change n + 128 ≤ 191; omega⟩
  rw [follow_first (by omega) fits, Nat.add_sub_cancel]

section Heads

variable {v : Nat} (rest : Bytes)

theorem head_one (small : v < 0x80) : head (UInt8.ofNat v) rest = .char (Char.ofNat v) 1 rest := by
  have byte : v < 256 := by omega
  have first : UInt8.ofNat v < 0x80 := by
    rw [UInt8.lt_iff_toNat_lt, toNat_ofNat byte]
    exact small
  rw [head, if_pos first, toNat_ofNat byte]

theorem lead?_two {n : Nat} (low : 0xC2 ≤ n) (high : n < 0xE0) :
    lead? (UInt8.ofNat n) = some ⟨1, n - 0xC0, 0x80, 0xBF⟩ := by
  have byte : n < 256 := by omega
  unfold lead?
  simp only [UInt8.lt_iff_toNat_lt, toNat_ofNat byte]
  rw [if_neg (by change ¬ n < 0xC2; omega), if_pos (by change n < 0xE0; omega)]

theorem lead?_three {n : Nat} (low : 0xE0 ≤ n) (high : n < 0xF0) :
    lead? (UInt8.ofNat n) = some ⟨2, n - 0xE0, if n = 0xE0 then 0xA0 else 0x80,
      if n = 0xED then 0x9F else 0xBF⟩ := by
  have byte : n < 256 := by omega
  unfold lead?
  simp only [UInt8.lt_iff_toNat_lt, ← UInt8.toNat_inj, toNat_ofNat byte]
  rw [if_neg (by change ¬ n < 0xC2; omega), if_neg (by change ¬ n < 0xE0; omega),
    if_pos (by change n < 0xF0; omega)]
  rfl

theorem lead?_four {n : Nat} (low : 0xF0 ≤ n) (high : n < 0xF5) :
    lead? (UInt8.ofNat n) = some ⟨3, n - 0xF0, if n = 0xF0 then 0x90 else 0x80,
      if n = 0xF4 then 0x8F else 0xBF⟩ := by
  have byte : n < 256 := by omega
  unfold lead?
  simp only [UInt8.lt_iff_toNat_lt, ← UInt8.toNat_inj, toNat_ofNat byte]
  rw [if_neg (by change ¬ n < 0xC2; omega), if_neg (by change ¬ n < 0xE0; omega),
    if_neg (by change ¬ n < 0xF0; omega), if_pos (by change n < 0xF5; omega)]
  rfl

theorem head_of_lead {n : Nat} {l : Lead} (high : 0x80 ≤ n) (byte : n < 256)
    (lead : lead? (UInt8.ofNat n) = some l) :
    head (UInt8.ofNat n) rest = follow l.bits 1 l.count l.low l.high rest := by
  have later : ¬ UInt8.ofNat n < 0x80 := by
    rw [UInt8.lt_iff_toNat_lt, toNat_ofNat byte]
    exact Nat.not_lt.mpr high
  rw [head, if_neg later, lead]

theorem head_two (low : 0x80 ≤ v) (high : v < 0x800) :
    head (UInt8.ofNat (v / 64 % 32 + 192)) (UInt8.ofNat (v % 64 + 128) :: rest) =
      .char (Char.ofNat v) 2 rest := by
  have value : v / 64 % 32 * 64 + v % 64 = v := by omega
  rw [head_of_lead _ (by omega) (by omega) (lead?_two (by omega) (by omega))]
  dsimp only
  rw [follow_tail (by omega), Nat.add_sub_cancel, value]
  rfl

theorem head_three (low : 0x800 ≤ v) (high : v < 0x10000) (valid : v < 0xD800 ∨ 0xDFFF < v) :
    head (UInt8.ofNat (v / 4096 % 16 + 224))
        (UInt8.ofNat (v / 64 % 64 + 128) :: UInt8.ofNat (v % 64 + 128) :: rest) =
      .char (Char.ofNat v) 3 rest := by
  have value : (v / 4096 % 16 * 64 + v / 64 % 64) * 64 + v % 64 = v := by omega
  rw [head_of_lead _ (by omega) (by omega) (lead?_three (by omega) (by omega))]
  dsimp only
  rw [follow_first (by omega), Nat.add_sub_cancel, Nat.add_sub_cancel, follow_tail (by omega), value]
  · rfl
  · constructor
    · split
      · change 0xA0 ≤ _; omega
      · change 0x80 ≤ _; omega
    · split
      · change _ ≤ 0x9F; omega
      · change _ ≤ 0xBF; omega

theorem head_four (low : 0x10000 ≤ v) (high : v < 0x110000) :
    head (UInt8.ofNat (v / 262144 % 8 + 240))
        (UInt8.ofNat (v / 4096 % 64 + 128) :: UInt8.ofNat (v / 64 % 64 + 128) ::
          UInt8.ofNat (v % 64 + 128) :: rest) =
      .char (Char.ofNat v) 4 rest := by
  have value : ((v / 262144 % 8 * 64 + v / 4096 % 64) * 64 + v / 64 % 64) * 64 + v % 64 = v := by omega
  rw [head_of_lead _ (by omega) (by omega) (lead?_four (by omega) (by omega))]
  dsimp only
  rw [follow_first (by omega), Nat.add_sub_cancel, Nat.add_sub_cancel, follow_tail (by omega),
    follow_tail (by omega), value]
  · rfl
  · constructor
    · split
      · change 0x90 ≤ _; omega
      · change 0x80 ≤ _; omega
    · split
      · change _ ≤ 0x8F; omega
      · change _ ≤ 0xBF; omega

end Heads

theorem head_encode (c : Char) (rest : Bytes) :
    ∃ b bs, String.utf8EncodeChar c = b :: bs ∧
      head b (bs ++ rest) = .char c (bs.length + 1) rest := by
  have valid : c.toNat < 0xD800 ∨ 0xDFFF < c.toNat ∧ c.toNat < 0x110000 := c.valid
  have same : Char.ofNat c.toNat = c := Char.ofNat_toNat c
  unfold String.utf8EncodeChar
  change ∃ b bs, (if c.toNat ≤ 127 then _ else if c.toNat ≤ 2047 then _ else if c.toNat ≤ 65535 then _ else _) =
    b :: bs ∧ _
  split
  · have begins := head_one rest (v := c.toNat) (by omega)
    exact ⟨_, _, rfl, by rw [same] at begins; exact begins⟩
  split
  · have begins := head_two rest (v := c.toNat) (by omega) (by omega)
    exact ⟨_, _, rfl, by rw [same] at begins; exact begins⟩
  split
  · have begins := head_three rest (v := c.toNat) (by omega) (by omega) (by omega)
    exact ⟨_, _, rfl, by rw [same] at begins; exact begins⟩
  · have begins := head_four rest (v := c.toNat) (by omega) (by omega)
    exact ⟨_, _, rfl, by rw [same] at begins; exact begins⟩

theorem decodeFrom_encode (start : Nat) (c : Char) (rest : Bytes) :
    decodeFrom start (String.utf8EncodeChar c ++ rest) =
      (decodeFrom (start + (String.utf8EncodeChar c).length) rest).map (c :: ·) := by
  obtain ⟨b, bs, encoded, begins⟩ := head_encode c rest
  rw [encoded, List.cons_append, decodeFrom]
  split <;> rename_i found <;> rw [begins] at found <;> cases found
  rfl

theorem decodeFrom_flatMap (start : Nat) (cs : List Char) :
    decodeFrom start (cs.flatMap String.utf8EncodeChar) = .ok cs := by
  induction cs generalizing start with
  | nil => rw [List.flatMap_nil, decodeFrom]
  | cons c cs ih =>
    rw [List.flatMap_cons, decodeFrom_encode, ih]
    rfl

theorem lossy_flatMap (cs : List Char) : lossy (cs.flatMap String.utf8EncodeChar) = cs := by
  induction cs with
  | nil => rw [List.flatMap_nil, lossy]
  | cons c cs ih =>
    obtain ⟨b, bs, encoded, begins⟩ := head_encode c (cs.flatMap String.utf8EncodeChar)
    rw [List.flatMap_cons, encoded, List.cons_append, lossy, begins]
    exact congrArg (c :: ·) ih

/-- Nothing is lost of a text. -/
theorem lossyString_ofString (s : String) : lossyString (Bytes.ofString s) = s := by
  rw [lossyString, Bytes.ofString_eq, lossy_flatMap, String.ofList_toList]

/-- A text is read back from its bytes. -/
theorem decode_ofString (s : String) : decode (Bytes.ofString s) = .ok s := by
  rw [decode, Bytes.ofString_eq, decodeFrom_flatMap]
  exact congrArg Except.ok String.ofList_toList

end Text.Utf8

theorem Bytes.ofString_injective {a b : String} (same : Bytes.ofString a = Bytes.ofString b) : a = b := by
  have decoded := Text.Utf8.decode_ofString a
  rw [same, Text.Utf8.decode_ofString] at decoded
  cases decoded
  rfl

end ChangeFeed
