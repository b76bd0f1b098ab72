import ChangeFeed.Proofs.Json.Strings

/-!
JSON values and the texts that stand for them. Main statement: a value of texts and whole numbers is
read back from either of its texts, the compact one and the pretty one.
-/
namespace ChangeFeed.Json

open Text

/-- The blanks between the parts of a text: before each item and before the bracket that closes, by
how deep that is, and after each colon. -/
structure Layout where
  gap : Nat → List Char
  space : List Char
  gap_blank : ∀ depth, (gap depth).all isBlank = true
  space_blank : space.all isBlank = true

namespace Layout

def compact : Layout := ⟨fun _ => [], [], fun _ => rfl, rfl⟩

def pretty : Layout where
  gap := indent
  space := [' ']
  gap_blank depth := by simp [indent, isBlank]
  space_blank := rfl

end Layout

mutual

/-- The text of a value in a layout. -/
def spell (l : Layout) (depth : Nat) : Json → List Char
  | .array [] => ['[', ']']
  | .array items => '[' :: spellItems l (depth + 1) items ++ l.gap depth ++ [']']
  | .object [] => ['\x7b', '\x7d']
  | .object members => '\x7b' :: spellMembers l (depth + 1) members ++ l.gap depth ++ ['\x7d']
  | .null => "null".toList
  | .bool b => (if b then "true" else "false").toList
  | .number n => (numberText n).toList
  | .string s => quote (s.getD "")

def spellItems (l : Layout) (depth : Nat) : List Json → List Char
  | [] => []
  | [v] => l.gap depth ++ spell l depth v
  | v :: vs => l.gap depth ++ spell l depth v ++ ',' :: spellItems l depth vs

def spellMembers (l : Layout) (depth : Nat) : List (Option String × Json) → List Char
  | [] => []
  | [m] => l.gap depth ++ quote (m.1.getD "") ++ ':' :: l.space ++ spell l depth m.2
  | m :: ms =>
    l.gap depth ++ quote (m.1.getD "") ++ ':' :: l.space ++ spell l depth m.2 ++
      ',' :: spellMembers l depth ms

end

section Layouts

mutual

theorem spell_compact (depth : Nat) (v : Json) : spell .compact depth v = compact v := by
  match v with
  | .array [] | .object [] | .null | .bool _ | .number _ | .string _ => rfl
  | .array (v :: vs) =>
    rw [spell, compact, spellItems_compact]
    · simp [Layout.compact]
    · exact List.cons_ne_nil v vs
  | .object (m :: ms) =>
    rw [spell, compact, spellMembers_compact]
    · simp [Layout.compact]
    · exact List.cons_ne_nil m ms

theorem spellItems_compact (depth : Nat) (vs : List Json) :
    spellItems .compact depth vs = compactItems vs := by
  match vs with
  | [] => rfl
  | [v] =>
    rw [spellItems, compactItems, spell_compact]
    rfl
  | v :: w :: vs =>
    rw [spellItems, compactItems, spell_compact, spellItems_compact]
    · rfl
    all_goals exact List.cons_ne_nil w vs

theorem spellMembers_compact (depth : Nat) (ms : List (Option String × Json)) :
    spellMembers .compact depth ms = compactMembers ms := by
  match ms with
  | [] => rfl
  | [(key, v)] =>
    rw [spellMembers, compactMembers, spell_compact]
    simp [Layout.compact]
  | (key, v) :: m :: ms =>
    rw [spellMembers, compactMembers, spell_compact, spellMembers_compact]
    · simp [Layout.compact]
    all_goals exact List.cons_ne_nil m ms

end

mutual

theorem spell_pretty (depth : Nat) (v : Json) : spell .pretty depth v = pretty depth v := by
  match v with
  | .array [] | .object [] | .null | .bool _ | .number _ | .string _ => rfl
  | .array (v :: vs) =>
    rw [spell, pretty, spellItems_pretty]
    · rfl
    all_goals exact List.cons_ne_nil v vs
  | .object (m :: ms) =>
    rw [spell, pretty, spellMembers_pretty]
    · rfl
    all_goals exact List.cons_ne_nil m ms

theorem spellItems_pretty (depth : Nat) (vs : List Json) :
    spellItems .pretty depth vs = prettyItems depth vs := by
  match vs with
  | [] => rfl
  | [v] =>
    rw [spellItems, prettyItems, spell_pretty]
    rfl
  | v :: w :: vs =>
    rw [spellItems, prettyItems, spell_pretty, spellItems_pretty]
    · rfl
    all_goals exact List.cons_ne_nil w vs

theorem spellMembers_pretty (depth : Nat) (ms : List (Option String × Json)) :
    spellMembers .pretty depth ms = prettyMembers depth ms := by
  match ms with
  | [] => rfl
  | [(key, v)] =>
    rw [spellMembers, prettyMembers, spell_pretty]
    simp [Layout.pretty]
  | (key, v) :: m :: ms =>
    rw [spellMembers, prettyMembers, spell_pretty, spellMembers_pretty]
    · simp [Layout.pretty]
    all_goals exact List.cons_ne_nil m ms

end

end Layouts

mutual

/-- All strings are texts, and all numbers are whole and written without an exponent. -/
def Plain : Json → Prop
  | .null | .bool _ => True
  | .number n => n.exponent = 0 ∧ n.integral = true
  | .string s => s.isSome
  | .array items => PlainItems items
  | .object members => PlainMembers members

def PlainItems : List Json → Prop
  | [] => True
  | v :: vs => Plain v ∧ PlainItems vs

def PlainMembers : List (Option String × Json) → Prop
  | [] => True
  | m :: ms => m.1.isSome ∧ Plain m.2 ∧ PlainMembers ms

end

section Reading

theorem skip_append {g : List Char} (blank : g.all isBlank = true) (cs : List Char) :
    skip (g ++ cs) = skip cs :=
  List.dropWhile_append_of_pos (List.all_eq_true.mp blank)

theorem skip_cons {c : Char} (dark : isBlank c = false) (cs : List Char) : skip (c :: cs) = c :: cs := by
  rw [skip, List.dropWhile_cons, dark]
  rfl

/-- A mark that no number goes on with. -/
def IsMark (c : Char) : Prop := c = ',' ∨ c = ']' ∨ c = '\x7d'

theorem ends_of_skip {c : Char} {rest tail : List Char} (mark : IsMark c) (next : skip rest = c :: tail) :
    Ends rest := by
  rintro d member
  obtain ⟨cs, rfl⟩ := List.head?_eq_some_iff.mp member
  by_cases blank : isBlank d
  · simp only [isBlank, Bool.or_eq_true, beq_iff_eq] at blank
    rcases blank with ((rfl | rfl) | rfl) | rfl <;> decide
  · rw [skip_cons (by simpa using blank)] at next
    cases next
    rcases mark with rfl | rfl | rfl <;> decide

theorem value?_gap {g : List Char} (blank : g.all isBlank = true) (fuel : Nat) (cs : List Char) :
    value? fuel (g ++ cs) = value? fuel cs := by
  cases fuel with
  | zero => rfl
  | succ fuel => rw [value?, value?, skip_append blank]

theorem value?_quote (fuel : Nat) (s : String) (rest : List Char) :
    value? (fuel + 1) (quote s ++ rest) = some (text s, rest) := by
  have marked : quote s ++ rest = '"' :: (s.toList.flatMap escape ++ '"' :: rest) := by simp [quote]
  rw [marked, value?, skip_cons rfl]
  exact congrArg (Option.map _) (string?_quote s rest)

theorem isBlank_of_isDigit {c : Char} (digit : c.isDigit = true) : isBlank c = false :=
  Bool.eq_false_iff.mpr fun blank => by
    simp only [isBlank, Bool.or_eq_true, beq_iff_eq] at blank
    rcases blank with ((rfl | rfl) | rfl) | rfl <;> cases digit

theorem value?_array {fuel : Nat} {c : Char} {rest tail : List Char} (begins : skip rest = c :: tail)
    (other : c ≠ ']') :
    value? (fuel + 1) ('[' :: rest) = (items? fuel rest).map fun p => (.array p.1, p.2) := by
  have bracket : skip ('[' :: rest) = '[' :: rest := skip_cons rfl rest
  simp [value?, bracket, begins, other]

theorem value?_object {fuel : Nat} {rest tail : List Char} (begins : skip rest = '"' :: tail) :
    value? (fuel + 1) ('\x7b' :: rest) = (members? fuel rest).map fun p => (.object p.1, p.2) := by
  have brace : skip ('\x7b' :: rest) = '\x7b' :: rest := skip_cons rfl rest
  simp [value?, brace, begins]

theorem value?_digit {c : Char} (digit : c.isDigit = true) (fuel : Nat) (cs : List Char) :
    value? (fuel + 1) (c :: cs) = (number? false (c :: cs)).map fun p => (.number p.1, p.2) := by
  rw [value?, skip_cons (isBlank_of_isDigit digit)]
  split <;> rename_i same <;> try (cases same; cases digit)
  rfl

theorem value?_number {n : JsonNumber} (plain : n.exponent = 0 ∧ n.integral = true) (fuel : Nat)
    {rest : List Char} (ends : Ends rest) :
    value? (fuel + 1) ((numberText n).toList ++ rest) = some (.number n, rest) := by
  obtain ⟨mantissa, exponent, integral⟩ := n
  obtain ⟨rfl, rfl⟩ := plain
  rw [numberText, if_pos rfl]
  cases mantissa with
  | ofNat n =>
    change value? (fuel + 1) ((String.ofList (Numeral.write 10 n)).toList ++ rest) = _
    have number := number?_write ends false n
    have all : ∀ c ∈ Numeral.write 10 n, c.isDigit = true := Numeral.isDigit_write
    rw [String.toList_ofList]
    obtain ⟨c, cs, written⟩ := List.exists_cons_of_ne_nil (Numeral.write_ne_nil : Numeral.write 10 n ≠ [])
    rw [written] at number all ⊢
    rw [List.cons_append, value?_digit (all c List.mem_cons_self), ← List.cons_append, number]
    rfl
  | negSucc n =>
    have number := number?_write ends true (n + 1)
    have signed : ("-" ++ Numeral.decimal (n + 1)).toList = '-' :: Numeral.write 10 (n + 1) := by
      simp [Numeral.decimal]
    change value? (fuel + 1) (("-" ++ Numeral.decimal (n + 1)).toList ++ rest) = _
    rw [signed, List.cons_append, value?, skip_cons rfl]
    change (number? true _).map _ = _
    rw [number]
    rfl

variable (l : Layout)

/-- What a text of a value begins with. -/
theorem spell_head (depth : Nat) {v : Json} (plain : Plain v) :
    ∃ c cs, spell l depth v = c :: cs ∧ isBlank c = false ∧ c ≠ ']' ∧ c ≠ '\x7d' := by
  match v with
  | .null | .array [] | .array (_ :: _) | .object [] | .object (_ :: _) | .string _ =>
    exact ⟨_, _, rfl, rfl, by decide, by decide⟩
  | .bool true | .bool false => exact ⟨_, _, rfl, rfl, by decide, by decide⟩
  | .number ⟨.ofNat n, exponent, integral⟩ =>
    obtain ⟨rfl, rfl⟩ := plain
    obtain ⟨c, cs, written⟩ := List.exists_cons_of_ne_nil (Numeral.write_ne_nil : Numeral.write 10 n ≠ [])
    have digit : c.isDigit = true := Numeral.isDigit_write c (by rw [written]; exact List.mem_cons_self)
    refine ⟨c, cs, ?_, isBlank_of_isDigit digit, ?_, ?_⟩
    · change (String.ofList (Numeral.write 10 n)).toList = c :: cs
      rw [String.toList_ofList, written]
    all_goals rintro rfl; cases digit
  | .number ⟨.negSucc n, exponent, integral⟩ =>
    obtain ⟨rfl, rfl⟩ := plain
    have signed : ("-" ++ Numeral.decimal (n + 1)).toList = '-' :: Numeral.write 10 (n + 1) := by
      simp [Numeral.decimal]
    exact ⟨'-', Numeral.write 10 (n + 1), signed, rfl, by decide, by decide⟩

/-- What follows an item of a list that is not the last. -/
theorem ends_comma (rest : List Char) : Ends (',' :: rest) :=
  ends_of_skip (.inl rfl) (skip_cons rfl rest)

theorem closes_gap (depth : Nat) {c : Char} (dark : isBlank c = false) (rest : List Char) :
    skip (l.gap depth ++ c :: rest) = c :: rest := by
  rw [skip_append (l.gap_blank depth), skip_cons dark]

theorem skip_spellItems (depth : Nat) {v : Json} (vs : List Json) (plain : Plain v) (rest : List Char) :
    ∃ c tail, skip (spellItems l depth (v :: vs) ++ rest) = c :: tail ∧ c ≠ ']' := by
  obtain ⟨c, cs, first, dark, other, -⟩ := spell_head l depth plain
  have begins : ∃ more, spellItems l depth (v :: vs) = l.gap depth ++ c :: more := by
    cases vs with
    | nil => exact ⟨cs, by rw [spellItems, first]⟩
    | cons w ws => exact ⟨cs ++ ',' :: spellItems l depth (w :: ws), by simp [spellItems, first]⟩
  obtain ⟨more, begins⟩ := begins
  exact ⟨c, more ++ rest, by rw [begins, List.append_assoc]; exact closes_gap l depth dark _, other⟩

theorem skip_spellMembers (depth : Nat) (m : Option String × Json) (ms : List (Option String × Json))
    (rest : List Char) : ∃ tail, skip (spellMembers l depth (m :: ms) ++ rest) = '"' :: tail := by
  have begins : ∃ more, spellMembers l depth (m :: ms) = l.gap depth ++ '"' :: more := by
    cases ms <;> exact ⟨_, by simp [spellMembers, quote]; rfl⟩
  obtain ⟨more, begins⟩ := begins
  exact ⟨more ++ rest, by rw [begins, List.append_assoc]; exact closes_gap l depth rfl _⟩

mutual

/-- A text of a value is read as the value, whatever follows it that does not go on with a number. -/
theorem value?_spell (depth : Nat) {v : Json} (plain : Plain v) {fuel : Nat} {rest : List Char}
    (enough : (spell l depth v).length < fuel) (ends : Ends rest) :
    value? fuel (spell l depth v ++ rest) = some (v, rest) := by
  obtain ⟨fuel, rfl⟩ := Nat.exists_eq_succ_of_ne_zero (Nat.ne_of_gt (Nat.zero_lt_of_lt enough))
  match v with
  | .null | .array [] | .object [] => rfl
  | .bool true | .bool false => rfl
  | .number n => exact value?_number plain fuel ends
  | .string (some s) => exact value?_quote fuel s rest
  | .array (w :: ws) =>
    have text : spell l depth (.array (w :: ws)) ++ rest =
        '[' :: (spellItems l (depth + 1) (w :: ws) ++ (l.gap depth ++ ']' :: rest)) := by
      simp [spell]
    have shorter : (spellItems l (depth + 1) (w :: ws)).length + 1 < fuel := by
      simp [spell] at enough
      omega
    have items := items?_spell (depth + 1) (List.cons_ne_nil w ws) plain shorter
      (closes_gap l depth rfl rest)
    obtain ⟨c, begun, begins, other⟩ := skip_spellItems l (depth + 1) ws plain.1 (l.gap depth ++ ']' :: rest)
    rw [text, value?_array begins other, items]
    rfl
  | .object (m :: ms) =>
    have text : spell l depth (.object (m :: ms)) ++ rest =
        '\x7b' :: (spellMembers l (depth + 1) (m :: ms) ++ (l.gap depth ++ '\x7d' :: rest)) := by
      simp [spell]
    have shorter : (spellMembers l (depth + 1) (m :: ms)).length + 1 < fuel := by
      simp [spell] at enough
      omega
    have members := members?_spell (depth + 1) (List.cons_ne_nil m ms) plain shorter
      (closes_gap l depth rfl rest)
    obtain ⟨begun, begins⟩ := skip_spellMembers l (depth + 1) m ms (l.gap depth ++ '\x7d' :: rest)
    rw [text, value?_object begins, members]
    rfl

theorem items?_spell (depth : Nat) {vs : List Json} (some : vs ≠ []) (plain : PlainItems vs) {fuel : Nat}
    {rest tail : List Char} (enough : (spellItems l depth vs).length + 1 < fuel)
    (closes : skip rest = ']' :: tail) :
    items? fuel (spellItems l depth vs ++ rest) = .some (vs, tail) := by
  obtain ⟨fuel, rfl⟩ := Nat.exists_eq_succ_of_ne_zero (Nat.ne_of_gt (Nat.zero_lt_of_lt enough))
  match vs with
  | [v] =>
    have shorter : (spell l depth v).length < fuel := by
      simp [spellItems] at enough
      omega
    have value := value?_spell depth plain.1 shorter (ends_of_skip (.inr (.inl rfl)) closes)
    rw [spellItems, List.append_assoc, items?, value?_gap (l.gap_blank depth), value]
    simp [closes]
  | v :: w :: ws =>
    have text : spellItems l depth (v :: w :: ws) ++ rest =
        l.gap depth ++ (spell l depth v ++ ',' :: (spellItems l depth (w :: ws) ++ rest)) := by
      simp [spellItems]
    have shorter : (spell l depth v).length < fuel ∧ (spellItems l depth (w :: ws)).length + 1 < fuel := by
      simp [spellItems] at enough ⊢
      omega
    have value := value?_spell depth plain.1 shorter.1 (ends_comma (spellItems l depth (w :: ws) ++ rest))
    have items := items?_spell depth (List.cons_ne_nil w ws) plain.2 shorter.2 closes
    rw [text, items?, value?_gap (l.gap_blank depth), value]
    simp [skip_cons, isBlank, items]

theorem members?_spell (depth : Nat) {ms : List (Option String × Json)} (some : ms ≠ [])
    (plain : PlainMembers ms) {fuel : Nat} {rest tail : List Char}
    (enough : (spellMembers l depth ms).length + 1 < fuel) (closes : skip rest = '\x7d' :: tail) :
    members? fuel (spellMembers l depth ms ++ rest) = .some (ms, tail) := by
  obtain ⟨fuel, rfl⟩ := Nat.exists_eq_succ_of_ne_zero (Nat.ne_of_gt (Nat.zero_lt_of_lt enough))
  match ms with
  | [(.some key, v)] =>
    have text : spellMembers l depth [(.some key, v)] ++ rest = l.gap depth ++ '"' ::
        (key.toList.flatMap escape ++ '"' :: (':' :: (l.space ++ (spell l depth v ++ rest)))) := by
      simp [spellMembers, quote]
    have shorter : (spell l depth v).length < fuel := by
      simp [spellMembers] at enough
      omega
    have value := value?_spell depth plain.2.1 shorter (ends_of_skip (.inr (.inr rfl)) closes)
    rw [text, members?, closes_gap l depth rfl]
    simp [string?_quote, skip_cons, isBlank, value?_gap l.space_blank, value, closes]
  | (.some key, v) :: m :: ms =>
    have text : spellMembers l depth ((.some key, v) :: m :: ms) ++ rest = l.gap depth ++ '"' ::
        (key.toList.flatMap escape ++ '"' :: (':' :: (l.space ++
          (spell l depth v ++ ',' :: (spellMembers l depth (m :: ms) ++ rest))))) := by
      simp [spellMembers, quote]
    have shorter : (spell l depth v).length < fuel ∧ (spellMembers l depth (m :: ms)).length + 1 < fuel := by
      simp [spellMembers] at enough ⊢
      omega
    have value := value?_spell depth plain.2.1 shorter.1 (ends_comma (spellMembers l depth (m :: ms) ++ rest))
    have members := members?_spell depth (List.cons_ne_nil m ms) plain.2.2 shorter.2 closes
    rw [text, members?, closes_gap l depth rfl]
    simp [string?_quote, skip_cons, isBlank, value?_gap l.space_blank, value, members]

end

theorem read?_eq (s : String) : read? s = (value? (s.toList.length + 1) s.toList).bind fun p =>
    if (skip p.2).isEmpty then some p.1 else none := rfl

theorem read?_spell {v : Json} (plain : Plain v) : read? (String.ofList (spell l 0 v)) = some v := by
  have ends : Ends [] := by rintro _ ⟨⟩
  have value := value?_spell l 0 plain (Nat.lt_succ_self _) ends
  rw [List.append_nil] at value
  rw [read?_eq, String.toList_ofList, value]
  rfl

end Reading

variable {v : Json}

/-- Reading the compact text of a plain value gives the value back. -/
theorem read?_compactText (plain : Plain v) : read? v.compactText = some v := by
  rw [compactText, ← spell_compact 0]
  exact read?_spell .compact plain

/-- Reading the pretty text of a plain value gives the value back. -/
theorem read?_prettyText (plain : Plain v) : read? v.prettyText = some v := by
  rw [prettyText, ← spell_pretty]
  exact read?_spell .pretty plain

end ChangeFeed.Json
