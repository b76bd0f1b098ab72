import ChangeFeed.Proofs.Conninfo.Stripping

/-!
How a text is divided into settings. Main statement: the settings of a text are those that are written in it
one after the other with white space around them, and there are none exactly if behind some of them one has
no equals sign or its quotes are not closed.
-/
namespace ChangeFeed.Conninfo

open Text

/-- White space and nothing else. -/
def Blank (cs : List Char) : Prop := ∀ c ∈ cs, isAsciiBlank c = true

/-- What may stand in quotes: a mark that would close them only behind a backslash. -/
inductive Inside : List Char → Prop
  | nil : Inside []
  | plain {c cs} : c ≠ '\'' → c ≠ '\\' → Inside cs → Inside (c :: cs)
  | escaped {c cs} : Inside cs → Inside ('\\' :: c :: cs)

/-- Quotes that are not closed; the last backslash may have nothing behind it. -/
inductive Unclosed : List Char → Prop
  | inside {cs} : Inside cs → Unclosed cs
  | backslash {cs} : Inside cs → Unclosed (cs ++ ['\\'])

/-- The text of a value, where `rest` follows it: up to the first mark that closes its quotes, or up to
white space if it has none. -/
inductive ValueText (rest : List Char) : List Char → Prop
  | quoted {body} : Inside body → ValueText rest ('\'' :: (body ++ ['\'']))
  | bare {v} : (∀ c ∈ v, isAsciiBlank c = false) → v.head? ≠ some '\'' →
      (∀ c ∈ rest.head?, isAsciiBlank c = true) → (v = [] → rest = []) → ValueText rest v

namespace Setting

/-- What stands before the equals sign of a setting: its key, and white space behind it. -/
structure Opens (key gap : List Char) : Prop where
  keyed : ∀ c ∈ key, isKeyCharacter c = true
  keyless : key = [] → gap = []
  blank : Blank gap

/-- A setting as it is written, where `rest` follows it. -/
inductive Written (rest : List Char) : Setting → Prop
  | intro {key gap gap' v} : Opens key gap → Blank gap' → ValueText rest v →
      Written rest ⟨key, key ++ gap ++ '=' :: gap' ++ v⟩

/-- A text that begins like a setting and is none: its equals sign is missing, or its quotes are not
closed. -/
inductive Malformed : List Char → Prop
  | unmarked {key gap rest} : Opens key gap → key ≠ [] → (gap = [] → rest = []) →
      (∀ c ∈ rest.head?, c ≠ '=' ∧ isAsciiBlank c = false) → Malformed (key ++ gap ++ rest)
  | unclosed {key gap gap' body} : Opens key gap → Blank gap' → Unclosed body →
      Malformed (key ++ gap ++ '=' :: gap' ++ '\'' :: body)

end Setting

/-- A text that is written as some settings. -/
inductive Divides : List Char → List Setting → Prop
  | nil {gap} : Blank gap → Divides gap []
  | cons {gap t rest ss} : Blank gap → t.Written rest → Divides rest ss →
      Divides (gap ++ t.text ++ rest) (t :: ss)

/-- A text that is written as some settings and one that is malformed. -/
inductive Breaks : List Char → Prop
  | first {gap cs} : Blank gap → Setting.Malformed cs → Breaks (gap ++ cs)
  | later {gap t rest} : Blank gap → Setting.Written rest t → Breaks rest → Breaks (gap ++ t.text ++ rest)

/-- What is left of a text behind the characters of a class does not begin with one of them. -/
theorem head?_dropWhile (p : Char → Bool) (cs : List Char) : ∀ c ∈ (cs.dropWhile p).head?, p c = false := by
  intro c first
  have stops := List.head?_dropWhile_not p cs
  rw [first] at stops
  simpa using stops

/-- A text begins with some blanks, and behind them with none. -/
theorem exists_blank (cs : List Char) :
    ∃ gap tail, cs = gap ++ tail ∧ Blank gap ∧ ∀ c ∈ tail.head?, isAsciiBlank c = false :=
  ⟨cs.takeWhile isAsciiBlank, cs.dropWhile isAsciiBlank, List.takeWhile_append_dropWhile.symm,
    fun _ => List.mem_takeWhile_imp, head?_dropWhile isAsciiBlank cs⟩

section Values

variable {cs body a b v rest : List Char}

theorem quoted?_append (inside : Inside body) (more : List Char) :
    quoted? (body ++ more) = (quoted? more).map fun p => (body ++ p.1, p.2) := by
  induction inside with
  | nil => simp
  | @plain c cs mark other _ ih =>
    rw [List.cons_append, quoted?, ih, Option.map_map]
    · rfl
    · exact mark
    · rintro _ _ rfl
      exact absurd rfl other
  | escaped _ ih =>
    rw [List.cons_append, List.cons_append, quoted?, ih, Option.map_map]
    rfl

theorem quoted?_of_unclosed (unclosed : Unclosed cs) : quoted? cs = none := by
  cases unclosed with
  | inside inside => rw [← List.append_nil cs, quoted?_append inside]; rfl
  | backslash inside => rw [quoted?_append inside]; rfl

theorem inside_of_quoted? (reads : quoted? cs = some (a, b)) :
    ∃ body, Inside body ∧ a = body ++ ['\''] ∧ cs = body ++ '\'' :: b := by
  fun_induction quoted? cs generalizing a with
  | case1 => cases reads
  | case2 cs =>
    cases reads
    exact ⟨[], .nil, rfl, rfl⟩
  | case3 c cs ih =>
    obtain ⟨⟨_, _⟩, later, same⟩ := Option.map_eq_some_iff.mp reads
    cases same
    obtain ⟨body, inside, rfl, rfl⟩ := ih later
    exact ⟨'\\' :: c :: body, inside.escaped, rfl, rfl⟩
  | case4 c cs mark next ih =>
    obtain ⟨⟨_, _⟩, later, same⟩ := Option.map_eq_some_iff.mp reads
    cases same
    have other : c ≠ '\\' :=
      Grammar.ne_backslash (fun _ empty => by rw [empty] at later; cases later) next
    obtain ⟨body, inside, rfl, rfl⟩ := ih later
    exact ⟨c :: body, inside.plain mark other, rfl, rfl⟩

theorem unclosed_of_quoted? (reads : quoted? cs = none) : Unclosed cs := by
  fun_induction quoted? cs with
  | case1 => exact .inside .nil
  | case2 => cases reads
  | case3 c cs ih =>
    cases ih (Option.map_eq_none_iff.mp reads) with
    | inside inside => exact .inside inside.escaped
    | backslash inside => exact .backslash inside.escaped
  | case4 c cs mark next ih =>
    by_cases other : c = '\\'
    · cases cs with
      | nil => subst other; exact .backslash .nil
      | cons d ds => exact absurd rfl (next d ds other)
    · cases ih (Option.map_eq_none_iff.mp reads) with
      | inside inside => exact .inside (inside.plain mark other)
      | backslash inside => exact .backslash (inside.plain mark other)

theorem value?_of_unquoted (unquoted : cs.head? ≠ some '\'') :
    value? cs = some (cs.takeWhile (!isAsciiBlank ·), cs.dropWhile (!isAsciiBlank ·)) := by
  rw [value?]
  rintro _ rfl
  exact unquoted rfl

theorem value?_of_text (text : ValueText rest v) : value? (v ++ rest) = some (v, rest) := by
  cases text with
  | quoted inside =>
    rw [List.cons_append, List.append_assoc, value?, quoted?_append inside]
    simp [quoted?]
  | bare solid unquoted blank last =>
    have unquoted' : (v ++ rest).head? ≠ some '\'' := by
      cases v with
      | nil => simp [last rfl]
      | cons => exact unquoted
    obtain ⟨front, behind⟩ := Grammar.span_append (p := (!isAsciiBlank ·)) (fun c own => by simp [solid c own])
      rest fun c own => by simp [blank c own]
    rw [value?_of_unquoted unquoted', front, behind]

theorem text_of_value? (first : ∀ c ∈ cs.head?, isAsciiBlank c = false) (reads : value? cs = some (v, rest)) :
    ValueText rest v ∧ cs = v ++ rest := by
  refine ⟨?_, append_of_value? reads⟩
  by_cases mark : cs.head? = some '\''
  · obtain ⟨tail, rfl⟩ := List.head?_eq_some_iff.mp mark
    rw [value?] at reads
    obtain ⟨⟨_, _⟩, later, same⟩ := Option.map_eq_some_iff.mp reads
    cases same
    obtain ⟨body, inside, rfl, -⟩ := inside_of_quoted? later
    exact .quoted inside
  · rw [value?_of_unquoted mark] at reads
    cases reads
    have whole := List.takeWhile_append_dropWhile (p := (!isAsciiBlank ·)) (l := cs)
    refine .bare (fun c own => ?_) (fun front => mark ?_)
      (fun c front => by simpa using head?_dropWhile _ cs c front) fun empty => ?_
    · simpa using List.mem_takeWhile_imp own
    · obtain ⟨tail, front⟩ := List.head?_eq_some_iff.mp front
      rw [← whole, front]
      rfl
    · rw [empty, List.nil_append] at whole
      rw [whole]
      cases cs with
      | nil => rfl
      | cons c cs =>
        rw [List.takeWhile_cons_of_pos (by simp [first c rfl])] at empty
        cases empty

theorem unclosed_of_value? (reads : value? cs = none) : ∃ body, cs = '\'' :: body ∧ Unclosed body := by
  by_cases mark : cs.head? = some '\''
  · obtain ⟨body, rfl⟩ := List.head?_eq_some_iff.mp mark
    rw [value?] at reads
    exact ⟨body, rfl, unclosed_of_quoted? (Option.map_eq_none_iff.mp reads)⟩
  · rw [value?_of_unquoted mark] at reads
    cases reads

/-- A text behind which something else follows than before; what has white space at its front, or nothing
where nothing was. -/
theorem ValueText.before {more : List Char} (text : ValueText rest v) (last : rest = [] → more = [])
    (blank : ∀ c ∈ more.head?, isAsciiBlank c = true) : ValueText more v := by
  cases text with
  | quoted inside => exact .quoted inside
  | bare solid unquoted _ empty => exact .bare solid unquoted blank fun none => last (empty none)

theorem ValueText.solid (text : ValueText rest v) : ∀ c ∈ (v ++ rest).head?, isAsciiBlank c = false := by
  cases text with
  | quoted =>
    rintro _ ⟨⟩
    decide
  | bare solid _ _ last =>
    cases v with
    | nil => rw [last rfl]; nofun
    | cons c v =>
      rintro _ ⟨⟩
      exact solid c List.mem_cons_self

end Values

namespace Setting

variable {cs rest more key gap gap' tail : List Char} {t : Setting}

theorem solid_of_isKeyCharacter {c : Char} (own : isKeyCharacter c = true) : isAsciiBlank c = false := by
  simp only [isKeyCharacter, Bool.and_eq_true, Bool.not_eq_true'] at own
  exact own.2

/-- A setting begins with a character of its key, or with its equals sign. -/
theorem Opens.solid (opens : Opens key gap) (mark : key = [] → rest.head? = some '=') {c : Char}
    (first : c ∈ (key ++ gap ++ rest).head?) : isAsciiBlank c = false := by
  cases key with
  | nil =>
    rw [opens.keyless rfl, List.nil_append, List.nil_append, mark rfl] at first
    cases first
    decide
  | cons k ks =>
    cases first
    exact solid_of_isKeyCharacter (opens.keyed c List.mem_cons_self)

/-- A key ends where white space or something else follows it that is no part of a key. -/
theorem Opens.apart (opens : Opens key gap) (ends : gap = [] → ∀ c ∈ rest.head?, isKeyCharacter c = false) :
    ∀ c ∈ (gap ++ rest).head?, isKeyCharacter c = false := by
  intro c first
  cases gap with
  | nil => exact ends rfl c first
  | cons b gap =>
    cases first
    simp [isKeyCharacter, opens.blank c List.mem_cons_self]

theorem Written.solid (written : t.Written rest) {c : Char} (first : c ∈ (t.text ++ rest).head?) :
    isAsciiBlank c = false := by
  obtain ⟨opens, -, -⟩ := written
  rw [List.append_assoc, List.append_assoc] at first
  exact opens.solid (fun _ => rfl) first

theorem Malformed.solid (malformed : Malformed cs) {c : Char} (first : c ∈ cs.head?) :
    isAsciiBlank c = false := by
  cases malformed with
  | unmarked opens named => exact opens.solid (fun none => absurd none named) first
  | unclosed opens =>
    rw [List.append_assoc] at first
    exact opens.solid (fun _ => rfl) first

theorem Written.text_ne_nil (written : t.Written rest) : t.text ≠ [] := by
  obtain ⟨-, -, -⟩ := written
  simp

theorem Malformed.ne_nil (malformed : Malformed cs) : cs ≠ [] := by
  cases malformed <;> simp_all

theorem Written.before (written : t.Written rest) (last : rest = [] → more = [])
    (blank : ∀ c ∈ more.head?, isAsciiBlank c = true) : t.Written more := by
  obtain ⟨opens, behind, text⟩ := written
  exact .intro opens behind (text.before last blank)

/-- A reader that finds the equals sign goes on with the value. -/
theorem read?_of_opens (opens : Opens key gap) (behind : Blank gap')
    (first : ∀ c ∈ tail.head?, isAsciiBlank c = false) :
    read? (key ++ gap ++ '=' :: gap' ++ tail) =
      (value? tail).map fun p => (⟨key, key ++ gap ++ '=' :: gap' ++ p.1⟩, p.2) := by
  obtain ⟨⟨ownKey, afterKey⟩, ⟨ownGap, afterGap⟩, ownGap', afterGap'⟩ :=
    Grammar.parts_of_written opens.keyed opens.blank behind tail first
      (fun c blank => by simp [isKeyCharacter, blank]) (by decide)
  rw [List.append_assoc, List.append_assoc, List.cons_append]
  simp only [read?, ownKey, afterKey, ownGap, afterGap, ownGap', afterGap']

theorem read?_of_unmarked (opens : Opens key gap) (ends : gap = [] → rest = [])
    (other : ∀ c ∈ rest.head?, c ≠ '=' ∧ isAsciiBlank c = false) : read? (key ++ gap ++ rest) = none := by
  obtain ⟨ownKey, afterKey⟩ := Grammar.span_append opens.keyed (gap ++ rest)
    (opens.apart fun none => by rw [ends none]; nofun)
  obtain ⟨-, afterGap⟩ := Grammar.span_append opens.blank rest fun c first => (other c first).2
  rw [List.append_assoc]
  simp only [read?, afterKey, afterGap]
  split
  · rename_i tail
    exact absurd rfl (other '=' rfl).1
  · rfl

/-- What a text that does not begin with white space begins with. -/
theorem opens_or_unmarked (present : cs ≠ []) (first : ∀ c ∈ cs.head?, isAsciiBlank c = false) :
    (∃ key gap gap' tail, Opens key gap ∧ Blank gap' ∧ (∀ c ∈ tail.head?, isAsciiBlank c = false) ∧
        cs = key ++ gap ++ '=' :: gap' ++ tail) ∨
      ∃ key gap rest, Opens key gap ∧ key ≠ [] ∧ (gap = [] → rest = []) ∧
        (∀ c ∈ rest.head?, c ≠ '=' ∧ isAsciiBlank c = false) ∧ cs = key ++ gap ++ rest := by
  have divided (p : Char → Bool) (xs : List Char) : xs.takeWhile p ++ xs.dropWhile p = xs :=
    List.takeWhile_append_dropWhile
  have whole := divided isKeyCharacter cs
  have ends := head?_dropWhile isKeyCharacter cs
  have keyed : ∀ c ∈ cs.takeWhile isKeyCharacter, isKeyCharacter c = true := fun _ => List.mem_takeWhile_imp
  generalize cs.takeWhile isKeyCharacter = key at whole keyed
  generalize cs.dropWhile isKeyCharacter = tail at whole ends
  -- Where the key is empty the equals sign stands at the front.
  have front (none : key = []) : ∃ rest, tail = '=' :: rest := by
    subst none whole
    cases tail with
    | nil => exact absurd rfl present
    | cons c rest =>
      have mark : c = '=' := by simpa [isKeyCharacter, first c rfl] using ends c rfl
      exact ⟨rest, by rw [mark]⟩
  have opens : Opens key (tail.takeWhile isAsciiBlank) := by
    refine ⟨keyed, fun none => ?_, fun _ => List.mem_takeWhile_imp⟩
    obtain ⟨rest, rfl⟩ := front none
    exact List.takeWhile_cons_of_neg (by decide)
  have later := divided isAsciiBlank tail
  have solid := head?_dropWhile isAsciiBlank tail
  by_cases mark : (tail.dropWhile isAsciiBlank).head? = some '='
  · obtain ⟨values, mark⟩ := List.head?_eq_some_iff.mp mark
    refine .inl ⟨key, _, values.takeWhile isAsciiBlank, values.dropWhile isAsciiBlank, opens,
      fun _ => List.mem_takeWhile_imp, head?_dropWhile isAsciiBlank values, ?_⟩
    simp only [List.append_assoc, List.cons_append, divided, ← mark, whole]
  · refine .inr ⟨key, _, _, opens, fun none => ?_, fun empty => ?_, fun c first => ⟨?_, solid c first⟩, ?_⟩
    · obtain ⟨rest, rfl⟩ := front none
      exact mark (by rw [List.dropWhile_cons_of_neg (by decide)]; rfl)
    · rw [empty, List.nil_append] at later
      rw [later] at mark solid ⊢
      cases tail with
      | nil => rfl
      | cons c rest =>
        have equals : c = '=' := by simpa [isKeyCharacter, solid c rfl] using ends c rfl
        exact absurd (congrArg some equals) mark
    · rintro rfl
      exact mark first
    · rw [List.append_assoc, later, whole]

theorem read?_of_written (written : t.Written rest) : read? (t.text ++ rest) = some (t, rest) := by
  obtain ⟨opens, behind, text⟩ := written
  rw [List.append_assoc, read?_of_opens opens behind text.solid, value?_of_text text]
  rfl

theorem read?_of_malformed (malformed : Malformed cs) : read? cs = none := by
  cases malformed with
  | unmarked opens _ ends other => exact read?_of_unmarked opens ends other
  | unclosed opens behind unclosed =>
    rw [read?_of_opens opens behind (by rintro _ ⟨⟩; decide), value?, quoted?_of_unclosed unclosed]
    rfl

theorem written_of_read? (present : cs ≠ []) (first : ∀ c ∈ cs.head?, isAsciiBlank c = false)
    (reads : read? cs = some (t, rest)) : t.Written rest := by
  obtain ⟨key, gap, gap', tail, opens, behind, solid, rfl⟩ | ⟨key, gap, rest, opens, -, ends, other, rfl⟩ :=
    opens_or_unmarked present first
  · rw [read?_of_opens opens behind solid] at reads
    obtain ⟨⟨v, rest⟩, valued, same⟩ := Option.map_eq_some_iff.mp reads
    cases same
    exact .intro opens behind (text_of_value? solid valued).1
  · rw [read?_of_unmarked opens ends other] at reads
    cases reads

theorem malformed_of_read? (present : cs ≠ []) (first : ∀ c ∈ cs.head?, isAsciiBlank c = false)
    (reads : read? cs = none) : Malformed cs := by
  obtain ⟨key, gap, gap', tail, opens, behind, solid, rfl⟩ | ⟨key, gap, rest, opens, named, ends, other, rfl⟩ :=
    opens_or_unmarked present first
  · rw [read?_of_opens opens behind solid, Option.map_eq_none_iff] at reads
    obtain ⟨body, rfl, unclosed⟩ := unclosed_of_value? reads
    exact .unclosed opens behind unclosed
  · exact .unmarked opens named ends other

end Setting

section Settings

variable {cs gap rest : List Char} {t : Setting} {ss : List Setting}

theorem settings?_of_solid (present : cs ≠ []) (first : ∀ c ∈ cs.head?, isAsciiBlank c = false) :
    settings? cs = (Setting.read? cs).bind fun p => (settings? p.2).map (p.1 :: ·) := by
  obtain ⟨c, cs, rfl⟩ := List.exists_cons_of_ne_nil present
  exact Grammar.settings?_cons (first c rfl) cs

theorem settings?_of_written (blank : Blank gap) (written : t.Written rest) :
    settings? (gap ++ t.text ++ rest) = (settings? rest).map (t :: ·) := by
  have present : t.text ++ rest ≠ [] := fun none => written.text_ne_nil (List.append_eq_nil_iff.mp none).1
  rw [List.append_assoc, Grammar.settings?_append blank, settings?_of_solid present fun _ => written.solid,
    Setting.read?_of_written written]
  rfl

theorem settings?_of_divides (divides : Divides cs ss) : settings? cs = some ss := by
  induction divides with
  | @nil gap blank =>
    rw [← List.append_nil gap, Grammar.settings?_append blank, settings?]
    rfl
  | cons blank written _ ih => rw [settings?_of_written blank written, ih, Option.map_some]

theorem settings?_of_breaks (breaks : Breaks cs) : settings? cs = none := by
  induction breaks with
  | first blank malformed =>
    rw [Grammar.settings?_append blank, settings?_of_solid malformed.ne_nil fun _ => malformed.solid,
      Setting.read?_of_malformed malformed]
    rfl
  | later blank written _ ih => rw [settings?_of_written blank written, ih, Option.map_none]

/-- A text is written as settings, or one of them is malformed. -/
theorem divides_or_breaks (cs : List Char) :
    (∃ ss, settings? cs = some ss ∧ Divides cs ss) ∨ settings? cs = none ∧ Breaks cs := by
  induction length : cs.length using Nat.strongRecOn generalizing cs with
  | _ n ih =>
    obtain ⟨gap, tail, rfl, blank, first⟩ := exists_blank cs
    by_cases empty : tail = []
    · have divides : Divides (gap ++ tail) [] := by
        rw [empty, List.append_nil]
        exact .nil blank
      exact .inl ⟨[], settings?_of_divides divides, divides⟩
    cases reads : Setting.read? tail with
    | none =>
      have breaks : Breaks (gap ++ tail) := .first blank (Setting.malformed_of_read? empty first reads)
      exact .inr ⟨settings?_of_breaks breaks, breaks⟩
    | some p =>
      obtain ⟨t, rest⟩ := p
      have written := Setting.written_of_read? empty first reads
      have fewer := Setting.length_of_read? reads
      rw [List.length_append] at length
      rw [Setting.append_of_read? reads, ← List.append_assoc]
      obtain ⟨ss, -, divides⟩ | ⟨-, breaks⟩ := ih rest.length (by omega) rest rfl
      · have divides := Divides.cons blank written divides
        exact .inl ⟨t :: ss, settings?_of_divides divides, divides⟩
      · have breaks := Breaks.later blank written breaks
        exact .inr ⟨settings?_of_breaks breaks, breaks⟩

theorem settings?_eq_some : settings? cs = some ss ↔ Divides cs ss := by
  refine ⟨fun same => ?_, settings?_of_divides⟩
  obtain ⟨ss', same', divides⟩ | ⟨none, -⟩ := divides_or_breaks cs
  · rw [same] at same'
    cases same'
    exact divides
  · rw [same] at none
    cases none

theorem settings?_eq_none : settings? cs = none ↔ Breaks cs := by
  refine ⟨fun same => ?_, settings?_of_breaks⟩
  obtain ⟨ss, same', -⟩ | ⟨-, breaks⟩ := divides_or_breaks cs
  · rw [same] at same'
    cases same'
  · exact breaks

/-- The texts of the settings, joined again, are written as the same settings. -/
theorem Divides.join (divides : Divides cs ss) : Divides (join ' ' (ss.map (·.text))) ss := by
  have nothing : Blank [] := nofun
  induction divides with
  | nil => exact .nil nothing
  | @cons gap t rest ss blank written divides ih =>
    cases ss with
    | nil =>
      have last : t.Written [] := written.before (fun _ => rfl) nofun
      simpa [Text.join] using Divides.cons nothing last (.nil nothing)
    | cons t' ss =>
      have more : Divides (' ' :: Text.join ' ' ((t' :: ss).map (·.text))) (t' :: ss) := by
        have front : Blank [' '] := List.forall_mem_singleton.mpr (by decide)
        rw [← settings?_eq_some, ← List.singleton_append, Grammar.settings?_append front, settings?_eq_some]
        exact ih
      have ahead : rest ≠ [] := by
        rintro rfl
        have never := settings?_of_divides divides
        rw [settings?] at never
        cases never
      have written : t.Written (' ' :: Text.join ' ' ((t' :: ss).map (·.text))) :=
        written.before (fun none => absurd none ahead) (by rintro _ ⟨⟩; decide)
      exact Divides.cons nothing written more

/-- What trimming takes off a text is white space at its ends. -/
theorem trim_divides (cs : List Char) :
    ∃ front back, cs = front ++ trimEnd (trimStart cs) ++ back ∧
      (∀ c ∈ front, isBlank c = true) ∧ ∀ c ∈ back, isBlank c = true := by
  refine ⟨cs.takeWhile isBlank, (trimStart cs).rtakeWhile isBlank, ?_, fun _ => List.mem_takeWhile_imp,
    fun _ => List.mem_rtakeWhile_imp⟩
  have behind : trimEnd (trimStart cs) ++ (trimStart cs).rtakeWhile isBlank = trimStart cs :=
    List.rdropWhile_append_rtakeWhile ..
  rw [List.append_assoc, behind]
  exact List.takeWhile_append_dropWhile.symm

/-- A text that is no URL and does not set the replication option keeps its settings as they are written,
and all of it but white space at its ends if it is malformed. -/
theorem stripReplication_keeps {s : String} (unlocated : Url.afterScheme? (trimEnd (trimStart s.toList)) = none)
    (unset : ∀ ss, settings? (trimEnd (trimStart s.toList)) = some ss → ∀ t ∈ ss, t.key ≠ replicationKey) :
    ∃ front middle back, s.toList = front ++ middle ++ back ∧
      (∀ c ∈ front, isBlank c = true) ∧ (∀ c ∈ back, isBlank c = true) ∧
      ((stripReplication s).toList = middle ∧ Breaks middle ∨
        ∃ ss, Divides middle ss ∧ Divides (stripReplication s).toList ss ∧
          (stripReplication s).toList = join ' ' (ss.map (·.text))) := by
  obtain ⟨front, back, whole, first, last⟩ := trim_divides s.toList
  refine ⟨front, _, back, whole, first, last, ?_⟩
  rw [stripReplication, unlocated, Option.isSome_none, if_neg (by decide), String.toList_ofList, stripSettings]
  obtain ⟨ss, reads, divides⟩ | ⟨reads, breaks⟩ := divides_or_breaks (trimEnd (trimStart s.toList))
  · have kept : ss.filter (·.key != replicationKey) = ss :=
      List.filter_eq_self.mpr fun t own => by simpa using unset ss reads t own
    rw [reads]
    dsimp only
    rw [kept]
    exact .inr ⟨ss, divides, divides.join, rfl⟩
  · rw [reads]
    exact .inl ⟨rfl, breaks⟩

end Settings

end ChangeFeed.Conninfo
