import ChangeFeed.Conninfo.Scanner
import ChangeFeed.Proofs.Conninfo.Dividing
import ChangeFeed.Proofs.Text.Classes

/-!
Going over the bytes of a connection string. Main statement: the reader that goes by position finds the
settings of every text, whatever characters are in it, and never cuts outside it or inside a character.
-/
namespace ChangeFeed.Conninfo.Scanner

open Text Text.Utf8

section Classes

theorem ne_of_high {c d : Char} (high : 128 ≤ c.toNat) (low : d.toNat < 128) : c ≠ d := by
  rintro rfl
  omega

theorem isAsciiBlank_of_high {c : Char} (high : 128 ≤ c.toNat) : isAsciiBlank c = false := by
  have other {d : Char} (low : d.toNat < 128) : c ≠ d := ne_of_high high low
  simp [isAsciiBlank, other]

theorem tells_blank : Tells isBlankByte isAsciiBlank :=
  tells_of_ascii false (by decide +kernel) (by decide +kernel) fun _ => isAsciiBlank_of_high

theorem tells_solid : Tells (!isBlankByte ·) (!isAsciiBlank ·) :=
  fun c b own => congrArg not (tells_blank c b own)

theorem tells_key : Tells isKeyByte isKeyCharacter :=
  tells_of_ascii true (by decide +kernel) (by decide +kernel) fun c high => by
    simp [isKeyCharacter, isAsciiBlank_of_high high, ne_of_high high (show '='.toNat < 128 by decide)]

/-- A byte that stands for itself in quotes. -/
def isPlainByte (b : UInt8) : Bool := b != quote && b != backslash

theorem tells_plain : Tells isPlainByte fun c => c != '\'' && c != '\\' :=
  tells_of_ascii true (by decide +kernel) (by decide +kernel) fun c high => by
    simp [ne_of_high high (show '\''.toNat < 128 by decide), ne_of_high high (show '\\'.toNat < 128 by decide)]

end Classes

section Positions

variable {p : UInt8 → Bool} {q : Char → Bool} {bs : Bytes} {i : Nat}

theorem getElem?_encode (front cs : List Char) :
    (encode (front ++ cs))[(encode front).length]? = (encode cs).head? := by
  rw [encode_append, List.getElem?_append_right (Nat.le_refl _), Nat.sub_self, List.head?_eq_getElem?]

/-- A byte of ASCII stands at the front exactly if its character does. -/
theorem head?_encode {d : Char} (low : d.toNat < 128) {cs : List Char} :
    (encode cs).head? = some (UInt8.ofNat d.toNat) ↔ cs.head? = some d := by
  have byte : (UInt8.ofNat d.toNat).toNat = d.toNat := toNat_ofNat (by omega)
  cases cs with
  | nil => simp
  | cons c cs =>
    obtain ⟨b, bs, encoded, -⟩ := encode_begins c
    have first : (encode (c :: cs)).head? = some b := by rw [encode_cons, encoded]; rfl
    rw [first, List.head?_cons, Option.some_inj, Option.some_inj]
    by_cases ascii : c.toNat < 128
    · rw [encode_ascii ascii] at encoded
      cases encoded
      refine ⟨fun same => Char.toNat_inj.mp ?_, fun same => by rw [same]⟩
      rw [← toNat_ofNat (n := c.toNat) (by omega), same, byte]
    · have high := Nat.le_of_not_lt ascii
      have large := Bytes.le_of_mem_encode (Nat.le_refl 128) high b (by rw [encoded]; exact List.mem_cons_self)
      refine ⟨fun same => ?_, fun same => absurd same (ne_of_high high low)⟩
      rw [same, byte] at large
      omega

theorem isBoundary_encode (front cs : List Char) :
    isBoundary (encode (front ++ cs)) (encode front).length = true := by
  unfold isBoundary
  cases cs with
  | nil => simp
  | cons c cs =>
    obtain ⟨b, bs, encoded, begins⟩ := encode_begins c
    rw [getElem?_encode, encode_cons, encoded]
    simp [begins]

theorem slice_encode {a b c whole : List Char} (same : a ++ b ++ c = whole) :
    slice (encode whole) (encode a).length (encode (a ++ b)).length = .ok (encode b) := by
  subst same
  have first : isBoundary (encode (a ++ b ++ c)) (encode a).length = true := by
    rw [List.append_assoc]
    exact isBoundary_encode a (b ++ c)
  have order : (encode a).length ≤ (encode (a ++ b)).length := by simp
  have cut : (encode (a ++ b ++ c)).take (encode (a ++ b)).length = encode a ++ encode b := by
    rw [encode_append (a ++ b), List.take_left, encode_append]
  rw [slice, first, isBoundary_encode (a ++ b) c, decide_eq_true order, cut, List.drop_left]
  rfl

theorem skipWhile_eq (p : UInt8 → Bool) (bs : Bytes) (i : Nat) :
    skipWhile p bs i = i + ((bs.drop i).takeWhile p).length := by
  fun_induction skipWhile p bs i with
  | case1 i beyond =>
    rw [List.drop_eq_nil_of_le (List.getElem?_eq_none_iff.mp beyond)]
    rfl
  | case2 i b here own ih =>
    obtain ⟨inside, here⟩ := List.getElem?_eq_some_iff.mp here
    rw [ih, List.drop_eq_getElem_cons inside, here, List.takeWhile_cons_of_pos own, List.length_cons]
    omega
  | case3 i b here other =>
    obtain ⟨inside, here⟩ := List.getElem?_eq_some_iff.mp here
    rw [List.drop_eq_getElem_cons inside, here, List.takeWhile_cons_of_neg other]
    rfl

/-- Bytes are passed over as far as their characters are in the class. -/
theorem skipWhile_encode (tells : Tells p q) {front cs rest whole : List Char} (same : front ++ cs ++ rest = whole)
    (own : ∀ c ∈ cs, q c = true) (ends : ∀ c ∈ rest.head?, q c = false) :
    skipWhile p (encode whole) (encode front).length = (encode (front ++ cs)).length := by
  rw [skipWhile_eq, ← same, List.append_assoc, encode_append, List.drop_left, (tells.span_encode _).1,
    (Grammar.span_append own rest ends).1, encode_append, List.length_append]

theorem closing?_eq (bs : Bytes) (i : Nat) :
    closing? bs i =
      match bs[i]? with
      | none => none
      | some b =>
        if b = quote then some i
        else if b = backslash then closing? bs (i + 2)
        else closing? bs (i + 1) := by
  rw [closing?]
  split <;> rename_i here <;> simp only [here]

/-- Bytes that stand for themselves are passed over. -/
theorem closing?_append (front : Bytes) {bytes : Bytes} (plain : ∀ b ∈ bytes, isPlainByte b = true) (rest : Bytes) :
    closing? (front ++ bytes ++ rest) front.length = closing? (front ++ bytes ++ rest) (front ++ bytes).length := by
  induction bytes generalizing front with
  | nil => simp
  | cons b bytes ih =>
    have here : (front ++ b :: bytes ++ rest)[front.length]? = some b := by simp
    have own := plain b List.mem_cons_self
    simp only [isPlainByte, Bool.and_eq_true, bne_iff_ne] at own
    rw [closing?_eq, here]
    dsimp only
    rw [if_neg own.1, if_neg own.2]
    have later := ih (front ++ [b]) fun b' member => plain b' (List.mem_cons_of_mem b member)
    simpa using later

/-- A character that stands for itself is passed over, and so is what a jump behind a backslash leaves of
one. -/
theorem closing?_character {c : Char} (front cs : List Char) (plain : (c != '\'' && c != '\\') = true) :
    closing? (encode (front ++ c :: cs)) (encode front).length =
      closing? (encode (front ++ c :: cs)) (encode (front ++ [c])).length := by
  have own : ∀ b ∈ String.utf8EncodeChar c, isPlainByte b = true := fun b member =>
    (tells_plain c b member).trans plain
  have passed := closing?_append (encode front) own (encode cs)
  simpa using passed

theorem isPlainByte_of_high {b : UInt8} (high : 128 ≤ b.toNat) : isPlainByte b = true := by
  have other {d : UInt8} (low : d.toNat < 128) : b ≠ d := by
    rintro rfl
    omega
  simp [isPlainByte, other (show quote.toNat < 128 by decide), other (show backslash.toNat < 128 by decide)]

theorem closing?_escaped (front : List Char) (c : Char) (cs : List Char) :
    closing? (encode (front ++ '\\' :: c :: cs)) (encode front).length =
      closing? (encode (front ++ '\\' :: c :: cs)) (encode (front ++ ['\\', c])).length := by
  have here : (encode (front ++ '\\' :: c :: cs))[(encode front).length]? = some backslash := by
    rw [getElem?_encode]
    exact (head?_encode (d := '\\') (by decide)).mpr rfl
  obtain ⟨b, bytes, encoded, -⟩ := encode_begins c
  -- The jump is over one byte, and those behind it are none of ASCII.
  have later : ∀ b' ∈ bytes, isPlainByte b' = true := by
    by_cases ascii : c.toNat < 128
    · rw [encode_ascii ascii] at encoded
      cases encoded
      nofun
    · have high := Bytes.le_of_mem_encode (Nat.le_refl 128) (Nat.le_of_not_lt ascii)
      rw [encoded] at high
      exact fun b' member => isPlainByte_of_high (high b' (List.mem_cons_of_mem b member))
  have passed := closing?_append (encode front ++ [backslash, b]) later (encode cs)
  have mark : String.utf8EncodeChar '\\' = [backslash] := by decide
  have whole : encode (front ++ '\\' :: c :: cs) = encode front ++ [backslash, b] ++ bytes ++ encode cs := by
    simp [mark, encoded]
  have jump : (encode front ++ [backslash, b]).length = (encode front).length + 2 := by simp
  have behind : (encode (front ++ ['\\', c])).length = (encode front ++ [backslash, b] ++ bytes).length := by
    simp [mark, encoded]
  rw [closing?_eq, here, behind, whole, ← passed, jump]
  rfl

/-- Quotes are found to be closed where they are in the text. -/
theorem closing?_encode (front cs : List Char) :
    (closing? (encode (front ++ cs)) (encode front).length).map (· + 1) =
      (quoted? cs).map fun p => (encode (front ++ p.1)).length := by
  fun_induction quoted? cs generalizing front with
  | case1 =>
    have beyond : (encode (front ++ []))[(encode front).length]? = none := getElem?_encode front []
    rw [closing?_eq, beyond]
    rfl
  | case2 cs =>
    have here : (encode (front ++ '\'' :: cs))[(encode front).length]? = some quote := by
      rw [getElem?_encode]
      exact (head?_encode (d := '\'') (by decide)).mpr rfl
    have mark : String.utf8EncodeChar '\'' = [quote] := by decide
    rw [closing?_eq, here]
    simp [mark]
  | case3 c cs ih =>
    rw [closing?_escaped, Option.map_map]
    have later := ih (front ++ ['\\', c])
    simpa [Function.comp_def] using later
  | case4 c cs mark next ih =>
    by_cases other : c = '\\'
    · obtain rfl : cs = [] := by
        cases cs with
        | nil => rfl
        | cons d cs => exact absurd rfl (next d cs other)
      subst other
      have here : (encode (front ++ ['\\']))[(encode front).length]? = some backslash := by
        rw [getElem?_encode]
        exact (head?_encode (d := '\\') (by decide)).mpr rfl
      have beyond : (encode (front ++ ['\\']))[(encode front).length + 2]? = none := by
        rw [List.getElem?_eq_none_iff, encode_append, List.length_append]
        exact Nat.add_le_add_left (by decide) _
      rw [closing?_eq, here]
      dsimp only
      rw [if_neg (by decide), if_pos rfl, closing?_eq, beyond]
      rfl
    · have plain : (c != '\'' && c != '\\') = true := by
        simp only [Bool.and_eq_true, bne_iff_ne]
        exact ⟨mark, other⟩
      rw [closing?_character front cs plain, Option.map_map]
      have later := ih (front ++ [c])
      simpa [Function.comp_def] using later

theorem valueEnd?_encode (front cs : List Char) :
    valueEnd? (encode (front ++ cs)) (encode front).length =
      (value? cs).map fun p => (encode (front ++ p.1)).length := by
  have quoted : (encode (front ++ cs))[(encode front).length]? = some quote ↔ cs.head? = some '\'' := by
    rw [getElem?_encode]
    exact head?_encode (d := '\'') (by decide)
  unfold valueEnd?
  by_cases mark : cs.head? = some '\''
  · rw [if_pos (quoted.mpr mark)]
    obtain ⟨tail, rfl⟩ := List.head?_eq_some_iff.mp mark
    have opened : (encode front).length + 1 = (encode (front ++ ['\''])).length := by
      rw [encode_append, List.length_append]
      rfl
    have closes := closing?_encode (front ++ ['\'']) tail
    rw [List.append_assoc, List.singleton_append] at closes
    rw [opened, closes, value?, Option.map_map]
    simp [Function.comp_def]
  · have whole : front ++ cs.takeWhile (!isAsciiBlank ·) ++ cs.dropWhile (!isAsciiBlank ·) = front ++ cs := by
      rw [List.append_assoc, List.takeWhile_append_dropWhile]
    have ends := skipWhile_encode tells_solid whole (fun _ => List.mem_takeWhile_imp) (head?_dropWhile _ cs)
    rw [if_neg (mt quoted.mp mark), value?_of_unquoted mark, ends]
    rfl

end Positions

section Settings

/-- A setting by its bytes. -/
def Piece.ofSetting (t : Setting) : Piece := ⟨encode t.key, encode t.text⟩

theorem scanFrom_eq {bs : Bytes} {i : Nat} (inside : i < bs.length) :
    scanFrom bs i =
      (slice bs i (skipWhile isKeyByte bs i)).bind fun key =>
        let mark := skipWhile isBlankByte bs (skipWhile isKeyByte bs i)
        if bs[mark]? = some equals then
          match valueEnd? bs (skipWhile isBlankByte bs (mark + 1)) with
          | none => .ok none
          | some stop =>
            (slice bs i stop).bind fun text =>
              (scanFrom bs (skipWhile isBlankByte bs stop)).map fun pieces => pieces.map (⟨key, text⟩ :: ·)
        else .ok none := by
  rw [scanFrom, dif_pos inside]
  dsimp only
  split <;> rename_i cut <;> rw [cut]
  · rfl
  dsimp only [Except.bind]
  split
  · split <;> rename_i ends <;> rw [ends]
    dsimp only
    split <;> rename_i cut <;> rw [cut]
  · rfl

/-- The reader by position finds the key of a setting, and whether its equals sign is there. -/
theorem scanFrom_of_opens {front key gap rest whole : List Char} (same : front ++ (key ++ gap ++ rest) = whole)
    (present : key ++ gap ++ rest ≠ []) (opens : Setting.Opens key gap)
    (ends : gap = [] → ∀ c ∈ rest.head?, isKeyCharacter c = false)
    (solid : ∀ c ∈ rest.head?, isAsciiBlank c = false) :
    scanFrom (encode whole) (encode front).length =
      if rest.head? = some '=' then
        match valueEnd? (encode whole)
          (skipWhile isBlankByte (encode whole) ((encode (front ++ key ++ gap)).length + 1)) with
        | none => .ok none
        | some stop =>
          (slice (encode whole) (encode front).length stop).bind fun text =>
            (scanFrom (encode whole) (skipWhile isBlankByte (encode whole) stop)).map fun pieces =>
              pieces.map (⟨encode key, text⟩ :: ·)
      else .ok none := by
  have inside : (encode front).length < (encode whole).length := by
    rw [← same, encode_append, List.length_append]
    exact Nat.lt_add_of_pos_right (List.length_pos_iff.mpr (mt encode_eq_nil.mp present))
  have divided : front ++ key ++ (gap ++ rest) = whole := by simp [← same]
  have divided' : front ++ key ++ gap ++ rest = whole := by simp [← same]
  have keyEnd : skipWhile isKeyByte (encode whole) (encode front).length = (encode (front ++ key)).length :=
    skipWhile_encode tells_key divided opens.keyed (opens.apart ends)
  have mark : skipWhile isBlankByte (encode whole) (encode (front ++ key)).length =
      (encode (front ++ key ++ gap)).length :=
    skipWhile_encode tells_blank divided' opens.blank solid
  have marked : (encode whole)[(encode (front ++ key ++ gap)).length]? = some equals ↔ rest.head? = some '=' := by
    rw [← divided', getElem?_encode]
    exact head?_encode (d := '=') (by decide)
  rw [scanFrom_eq inside, keyEnd, slice_encode divided]
  dsimp only [Except.bind]
  rw [mark]
  simp only [marked]

/-- The reader by position finds the setting that the text from there on begins with. -/
theorem scanFrom_encode (front : List Char) {cs : List Char} (present : cs ≠ [])
    (first : ∀ c ∈ cs.head?, isAsciiBlank c = false) :
    scanFrom (encode (front ++ cs)) (encode front).length =
      match Setting.read? cs with
      | none => .ok none
      | some (t, _) =>
        (scanFrom (encode (front ++ cs))
          (skipWhile isBlankByte (encode (front ++ cs)) (encode (front ++ t.text)).length)).map
            fun pieces => pieces.map (Piece.ofSetting t :: ·) := by
  obtain ⟨key, gap, gap', tail, opens, blank, solid, rfl⟩ | ⟨key, gap, rest, opens, -, ends, other, rfl⟩ :=
    Setting.opens_or_unmarked present first
  · rw [Setting.read?_of_opens opens blank solid]
    rw [List.append_assoc (key ++ gap)] at present
    generalize same : front ++ (key ++ gap ++ '=' :: gap' ++ tail) = whole
    have divided : front ++ (key ++ gap ++ '=' :: (gap' ++ tail)) = whole := by simp [← same]
    have before : front ++ key ++ gap ++ ['='] ++ gap' ++ tail = whole := by simp [← same]
    have marked : (encode (front ++ key ++ gap)).length + 1 = (encode (front ++ key ++ gap ++ ['='])).length := by
      rw [encode_append _ ['='], List.length_append]
      rfl
    have behind : skipWhile isBlankByte (encode whole) (encode (front ++ key ++ gap ++ ['='])).length =
        (encode (front ++ key ++ gap ++ ['='] ++ gap')).length :=
      skipWhile_encode tells_blank before blank solid
    have ends := valueEnd?_encode (front ++ key ++ gap ++ ['='] ++ gap') tail
    rw [before] at ends
    rw [scanFrom_of_opens divided present opens (fun _ => by rintro _ ⟨⟩; decide) (by rintro _ ⟨⟩; decide),
      if_pos List.head?_cons, marked, behind, ends]
    cases reads : value? tail with
    | none => rfl
    | some p =>
      obtain ⟨v, rest⟩ := p
      have text : front ++ (key ++ gap ++ '=' :: gap' ++ v) ++ rest = whole := by
        simp [← same, append_of_value? reads]
      have stop : front ++ key ++ gap ++ ['='] ++ gap' ++ v = front ++ (key ++ gap ++ '=' :: gap' ++ v) := by simp
      dsimp only [Option.map_some]
      rw [stop, slice_encode text]
      rfl
  · have unmarked : rest.head? ≠ some '=' := fun equal => (other '=' equal).1 rfl
    rw [Setting.read?_of_unmarked opens ends other,
      scanFrom_of_opens rfl present opens (fun none => by rw [ends none]; nofun) fun c first => (other c first).2,
      if_neg unmarked]

/-- From anywhere between two settings on, those that follow are found, and no cut is refused. -/
theorem scanFrom_eq_settings? (front cs : List Char) :
    scanFrom (encode (front ++ cs)) (skipWhile isBlankByte (encode (front ++ cs)) (encode front).length) =
      .ok ((settings? cs).map (·.map Piece.ofSetting)) := by
  induction length : cs.length using Nat.strongRecOn generalizing front cs with
  | _ n ih =>
    obtain ⟨gap, tail, rfl, blank, first⟩ := exists_blank cs
    have start := skipWhile_encode tells_blank (List.append_assoc front gap tail) blank first
    rw [start, Grammar.settings?_append blank, ← List.append_assoc]
    by_cases empty : tail = []
    · subst empty
      rw [List.append_nil, scanFrom, dif_neg (Nat.lt_irrefl _), settings?]
      rfl
    rw [settings?_of_solid empty first, scanFrom_encode _ empty first]
    cases reads : Setting.read? tail with
    | none => rfl
    | some p =>
      obtain ⟨t, rest⟩ := p
      have fewer := Setting.length_of_read? reads
      rw [List.length_append] at length
      have later := ih rest.length (by omega) (front ++ gap ++ t.text) rest rfl
      rw [List.append_assoc (front ++ gap), ← Setting.append_of_read? reads] at later
      dsimp only [Option.bind_some]
      rw [later]
      cases settings? rest <;> rfl

theorem scan_ofString (s : String) :
    scan (Bytes.ofString s) = .ok ((settings? s.toList).map (·.map Piece.ofSetting)) := by
  rw [ofString_eq_encode]
  exact scanFrom_eq_settings? [] s.toList

theorem ofSetting_injective : Function.Injective Piece.ofSetting := by
  have decode {a b : List Char} (same : encode a = encode b) : a = b := by
    have texts : Bytes.ofString (String.ofList a) = Bytes.ofString (String.ofList b) := by
      simpa [ofString_eq_encode] using same
    exact String.ofList_injective (Bytes.ofString_injective texts)
  intro t t' same
  obtain ⟨key, text⟩ := Piece.mk.inj same
  obtain ⟨_, _⟩ := t
  exact Setting.mk.injEq .. ▸ ⟨decode key, decode text⟩

theorem scan_eq_some {s : String} {ss : List Setting} :
    scan (Bytes.ofString s) = .ok (some (ss.map Piece.ofSetting)) ↔ Divides s.toList ss := by
  rw [scan_ofString, ← settings?_eq_some]
  constructor
  · intro same
    obtain ⟨ss', reads, same⟩ := Option.map_eq_some_iff.mp (Except.ok.inj same)
    rw [reads, List.map_injective_iff.mpr ofSetting_injective same]
  · intro reads
    rw [reads]
    rfl

theorem scan_eq_none {s : String} : scan (Bytes.ofString s) = .ok none ↔ Breaks s.toList := by
  rw [scan_ofString, ← settings?_eq_none, Except.ok.injEq, Option.map_eq_none_iff]

end Settings

/-- Going over the bytes of a text comes to an end without a cut that is refused, and finds the settings that
the text is divided into where the replication option is taken out. There are settings exactly if the text is
written as them with white space around them, and none exactly if behind some settings one has no equals
sign or its quotes are not closed. So a text that is no URL and does not set the option keeps its settings
as they are written. -/
theorem scan_divides (s : String) :
    scan (Bytes.ofString s) = .ok ((settings? s.toList).map (·.map Piece.ofSetting)) ∧
    (∀ ss : List Setting,
      scan (Bytes.ofString s) = .ok (some (ss.map Piece.ofSetting)) ↔ Divides s.toList ss) ∧
    (scan (Bytes.ofString s) = .ok none ↔ Breaks s.toList) ∧
    (Url.afterScheme? (trimEnd (trimStart s.toList)) = none →
      (∀ ss, Divides (trimEnd (trimStart s.toList)) ss → ∀ t ∈ ss, t.key ≠ replicationKey) →
      ∃ front middle back, s.toList = front ++ middle ++ back ∧
        (∀ c ∈ front, isBlank c = true) ∧ (∀ c ∈ back, isBlank c = true) ∧
        ((stripReplication s).toList = middle ∧ Breaks middle ∨
          ∃ ss, Divides middle ss ∧ Divides (stripReplication s).toList ss ∧
            (stripReplication s).toList = join ' ' (ss.map (·.text)))) := by
  refine ⟨scan_ofString s, fun _ => scan_eq_some, scan_eq_none, fun unlocated unset => ?_⟩
  exact stripReplication_keeps unlocated fun ss reads => unset ss (settings?_eq_some.mp reads)

/-- A backslash stands before a character of two bytes, and white space or nothing between settings. -/
theorem scan_divides_escaped :
    let s := "\tuser = u\n\npassword='a\\é\\' b'application_name=x "
    let ss : List Setting := [⟨"user".toList, "user = u".toList⟩,
      ⟨"password".toList, "password='a\\é\\' b'".toList⟩, ⟨"application_name".toList, "application_name=x".toList⟩]
    scan (Bytes.ofString s) = .ok (some (ss.map Piece.ofSetting)) ∧ Divides s.toList ss ∧
      (∃ front middle back, s.toList = front ++ middle ++ back ∧ Divides middle ss ∧
        Divides (stripReplication s).toList ss) ∧
      stripReplication s = "user = u password='a\\é\\' b' application_name=x" := by
  intro s ss
  have reads : settings? s.toList = some ss := by decide +kernel
  have trimmed : settings? (trimEnd (trimStart s.toList)) = some ss := by decide +kernel
  have stripped : settings? (stripReplication s).toList = some ss := by decide +kernel
  have unset : ∀ t ∈ ss, t.key ≠ replicationKey := by decide +kernel
  obtain ⟨found, divides, -, strips⟩ := scan_divides s
  rw [reads] at found
  refine ⟨found, (divides ss).mp found, ?_, by decide +kernel⟩
  obtain ⟨front, middle, back, whole, -, -, outcome⟩ := strips (by decide +kernel) fun ss' divides' => by
    have same := settings?_of_divides divides'
    rw [trimmed] at same
    exact Option.some.inj same ▸ unset
  rcases outcome with ⟨rfl, breaks⟩ | ⟨ss', divides', kept, -⟩
  · rw [settings?_of_breaks breaks] at stripped
    cases stripped
  · have same := settings?_of_divides kept
    rw [stripped] at same
    cases same
    exact ⟨front, middle, back, whole, divides', kept⟩

end ChangeFeed.Conninfo.Scanner
