import ChangeFeed.Conninfo.Grammar
import ChangeFeed.Conninfo.Strip
import Mathlib.Data.List.DropRight

/-!
What is left of a connection string without its `replication` option. Main statement: a text that the
grammar reads as settings is read as the same settings without those of that key afterwards, as long as
the text is plain, so that the reader that takes the option out divides it in the same places.
-/
namespace ChangeFeed.Text

theorem trimEnd_append {a : List Char} (solid : ∃ cs c, a = cs ++ [c] ∧ isBlank c = false)
    (b : List Char) : trimEnd (a ++ b) = a ++ trimEnd b := by
  obtain ⟨cs, c, rfl, solid⟩ := solid
  simp only [trimEnd, List.reverse_append, List.dropWhile_append]
  split <;> rename_i blank
  · simp [List.isEmpty_iff.mp blank, solid]
  · simp

theorem trimEnd_of_blank {cs : List Char} (blank : cs.all isBlank = true) : trimEnd cs = [] :=
  List.rdropWhile_eq_nil_iff.mpr (List.all_eq_true.mp blank)

theorem isBlank_of_trimStart {cs rest : List Char} {c : Char} (front : trimStart cs = c :: rest) :
    isBlank c = false := by
  have stops := List.head?_dropWhile_not isBlank cs
  rwa [← trimStart.eq_def, front] at stops

theorem isAsciiBlank_of_solid {c : Char} (solid : isBlank c = false) : isAsciiBlank c = false := by
  simpa using mt isBlank_of_isAsciiBlank (by simp [solid])

/-- What trimming leaves of a text that is not blank: its white space at the front is all there. -/
theorem trimEnd_of_solid {cs : List Char} (solid : cs.all isBlank = false) :
    ∃ c rest, trimStart cs = c :: rest ∧ isBlank c = false ∧
      trimEnd cs = cs.takeWhile isBlank ++ c :: trimEnd rest := by
  cases front : trimStart cs with
  | nil =>
    rw [trimStart, List.dropWhile_eq_nil_iff, ← List.all_eq_true, solid] at front
    cases front
  | cons c rest =>
    have stops := isBlank_of_trimStart front
    refine ⟨c, rest, rfl, stops, ?_⟩
    calc trimEnd cs = trimEnd ((cs.takeWhile isBlank ++ [c]) ++ rest) := by
          rw [List.append_assoc, List.singleton_append, ← front, trimStart,
            List.takeWhile_append_dropWhile]
      _ = cs.takeWhile isBlank ++ c :: trimEnd rest := by
          rw [trimEnd_append ⟨_, c, rfl, stops⟩, List.append_assoc, List.singleton_append]

theorem length_trimStart_le (cs : List Char) : (trimStart cs).length ≤ cs.length :=
  length_dropWhile_le isBlank cs

end ChangeFeed.Text

namespace ChangeFeed.Conninfo

open Text

namespace Grammar

/-- White space at the front is that of plain text files, unless nothing else follows. -/
def plainGap (cs : List Char) : Bool :=
  (cs.takeWhile isBlank).all isAsciiBlank || cs.all isBlank

/-- No backslash stands before white space in a bare value. -/
def plainBare : List Char → Bool
  | [] => true
  | c :: cs =>
    if c = '\\' then
      match cs with
      | [] => true
      | d :: cs => !isBlank d && plainBare cs
    else isBlank c || plainBare cs

def plainValue : List Char → Bool
  | '\'' :: _ => true
  | cs => plainBare cs

/-- Where the grammar reads a text, both ways to divide it into settings agree: between the parts is no
white space but that of plain text files, no bare value has any behind a backslash, and what stands where
a key is missing, which the grammar leaves alone, has its equals signs and closing marks. -/
def isPlain (cs : List Char) : Bool :=
  if (trimStart cs).takeWhile isKeyCharacter = [] then (settings? (trimEnd (trimStart cs))).isSome
  else
    plainGap ((trimStart cs).dropWhile isKeyCharacter) &&
      match _gap : trimStart ((trimStart cs).dropWhile isKeyCharacter) with
      | '=' :: values =>
        plainGap values && plainValue (trimStart values) &&
          match _value : value (trimStart values) with
          | .ok (_, rest) => plainGap rest && isPlain rest
          | .error _ => true
      | _ => true
termination_by cs.length
decreasing_by
  have := length_of_value _value
  have := length_trimStart_le values
  have := length_trimStart_le ((trimStart cs).dropWhile isKeyCharacter)
  have := length_dropWhile_le isKeyCharacter (trimStart cs)
  have := length_trimStart_le cs
  rw [_gap, List.length_cons] at *
  omega

theorem ne_backslash {c : Char} {cs : List Char} (other : c = '\\' → cs = [] → False)
    (next : ∀ c' cs', c = '\\' → cs = c' :: cs' → False) : c ≠ '\\' := by
  cases cs with
  | nil => exact fun same => other same rfl
  | cons => exact fun same => next _ _ same rfl

theorem bare_escaped (c : Char) (cs : List Char) :
    bare ('\\' :: c :: cs) = (c :: (bare cs).1, (bare cs).2) := rfl

theorem bare_cons {c : Char} (plain : c ≠ '\\') (cs : List Char) :
    bare (c :: cs) = if isBlank c then ([], c :: cs) else (c :: (bare cs).1, (bare cs).2) := by
  unfold bare
  split <;> rename_i same <;> cases same
  · exact absurd rfl plain
  · exact absurd rfl plain
  · rw [bare.eq_def]

theorem bare_of_blank {cs : List Char} (blank : ∀ c ∈ cs.head?, isBlank c = true) :
    bare cs = ([], cs) := by
  cases cs with
  | nil => rfl
  | cons c cs =>
    have blank : isBlank c = true := blank c rfl
    have plain : c ≠ '\\' := by rintro rfl; revert blank; decide
    rw [bare_cons plain, if_pos blank]

/-- A bare value that leaves the whole text is nothing. -/
theorem nil_of_bare {cs v : List Char} (reads : bare cs = (v, cs)) : v = [] := by
  have short := length_bare_le
  fun_cases bare cs with
  | case1 => exact (congrArg Prod.fst reads).symm
  | case2 => exact (congrArg Prod.fst reads).symm
  | case3 c cs =>
    have same := congrArg (·.2.length) reads
    simp only [bare_escaped, List.length_cons] at same
    have := short cs
    omega
  | case4 c cs other next blank =>
    rw [bare_of_blank (by simpa using blank)] at reads
    exact (congrArg Prod.fst reads).symm
  | case5 c cs other next solid =>
    have plain := ne_backslash other next
    have same := congrArg (·.2.length) reads
    simp only [bare_cons plain, if_neg solid, List.length_cons] at same
    have := short cs
    omega

theorem bare_divides {cs : List Char} (plain : plainBare cs = true) :
    ∃ raw, cs = raw ++ (bare cs).2 ∧ (∀ c ∈ raw, isBlank c = false) ∧
      ∀ c ∈ (bare cs).2.head?, isBlank c = true := by
  fun_induction bare cs with
  | case1 => exact ⟨[], by simp⟩
  | case2 => exact ⟨['\\'], rfl, List.forall_mem_singleton.mpr (by decide), by rintro _ ⟨⟩⟩
  | case3 c cs ih =>
    have plain : (!isBlank c && plainBare cs) = true := plain
    simp only [Bool.and_eq_true, Bool.not_eq_true'] at plain
    obtain ⟨raw, whole, solid, ends⟩ := ih plain.2
    exact ⟨'\\' :: c :: raw, by simp [← whole],
      List.forall_mem_cons.mpr ⟨by decide, List.forall_mem_cons.mpr ⟨plain.1, solid⟩⟩, ends⟩
  | case4 c cs _ _ blank => exact ⟨[], by simp, by simp, by simpa using blank⟩
  | case5 c cs other next solid ih =>
    have plain : plainBare cs = true := by
      rw [plainBare.eq_def] at plain
      simpa [ne_backslash other next, solid] using plain
    obtain ⟨raw, whole, inside, ends⟩ := ih plain
    exact ⟨c :: raw, by simp [← whole],
      List.forall_mem_cons.mpr ⟨by simpa using solid, inside⟩, ends⟩

theorem bare_append {raw rest more v : List Char} (solid : ∀ c ∈ raw, isBlank c = false)
    (reads : bare (raw ++ rest) = (v, rest)) (last : rest = [] → more = [])
    (ends : ∀ c ∈ more.head?, isBlank c = true) : bare (raw ++ more) = (v, more) := by
  fun_induction bare raw generalizing v with
  | case1 =>
    rw [nil_of_bare reads]
    exact bare_of_blank ends
  | case2 =>
    cases rest with
    | nil => rw [last rfl]; exact reads
    | cons c cs =>
      -- A backslash at the end would take the first character of the rest.
      have same := congrArg (·.2.length) reads
      have := length_bare_le cs
      simp only [List.singleton_append, bare_escaped, List.length_cons] at same
      omega
  | case3 c cs ih =>
    simp only [List.cons_append, bare_escaped, Prod.mk.injEq] at reads ⊢
    have same := ih (fun c inside => solid c (by simp [inside])) (Prod.ext rfl reads.2)
    rw [same]
    exact ⟨reads.1, rfl⟩
  | case4 c cs _ _ blank => exact absurd blank (by simp [solid c])
  | case5 c cs other next inside ih =>
    have plain := ne_backslash other next
    rw [List.cons_append, bare_cons plain, if_neg inside] at reads ⊢
    simp only [Prod.mk.injEq] at reads
    rw [ih (fun c inside => solid c (by simp [inside])) (Prod.ext rfl reads.2)]
    exact Prod.ext reads.1 rfl

/-- Both readers take `raw` for the text of the value `v` when `more` follows. -/
def Spells (raw v more : List Char) : Prop :=
  value? (raw ++ more) = some (raw, more) ∧ value (raw ++ more) = .ok (v, more)

theorem quoted?_alike {cs v rest : List Char} (reads : quoted? cs = some (v, rest)) :
    ∃ raw, cs = raw ++ rest ∧ raw.getLast? = some '\'' ∧ ∀ more,
      Conninfo.quoted? (raw ++ more) = some (raw, more) ∧ quoted? (raw ++ more) = some (v, more) := by
  fun_induction quoted? cs generalizing v with
  | case1 => cases reads
  | case2 cs =>
    cases reads
    exact ⟨['\''], rfl, rfl, fun more => ⟨rfl, rfl⟩⟩
  | case3 c cs ih =>
    simp only [Option.map_eq_some_iff, Prod.mk.injEq] at reads
    obtain ⟨⟨w, _⟩, reads, rfl, rfl⟩ := reads
    obtain ⟨raw, whole, closed, alike⟩ := ih reads
    refine ⟨'\\' :: c :: raw, by rw [whole]; rfl, ?_, fun more => ?_⟩
    · simp [List.getLast?_cons, closed]
    · simp [Conninfo.quoted?, quoted?, alike more]
  | case4 c cs mark next ih =>
    simp only [Option.map_eq_some_iff, Prod.mk.injEq] at reads
    obtain ⟨⟨w, _⟩, reads, rfl, rfl⟩ := reads
    have plain : c ≠ '\\' :=
      ne_backslash (fun _ empty => by rw [empty] at reads; cases reads) next
    obtain ⟨raw, whole, closed, alike⟩ := ih reads
    refine ⟨c :: raw, by rw [whole]; rfl, ?_, fun more => ?_⟩
    · simp [List.getLast?_cons, closed]
    · simp [Conninfo.quoted?, quoted?, alike more, plain]

/-- `raw` is the text of the value `v`, read where `rest` follows it. -/
structure Stands (raw v rest : List Char) : Prop where
  first : ∃ c cs, raw = c :: cs ∧ isBlank c = false
  last : ∃ cs c, raw = cs ++ [c] ∧ isBlank c = false
  closed : (∀ more, Spells raw v more) ∨ ∀ c ∈ rest.head?, isBlank c = true
  /-- A bare value may only go on being read where it was not at the end before. -/
  apart : ∀ more, (rest = [] → more = []) → (∀ c ∈ more.head?, isAsciiBlank c = true) → Spells raw v more

/-- The mark that opens a quoted value also begins its text. -/
theorem spells_quoted {raw v more : List Char}
    (alike : Conninfo.quoted? (raw ++ more) = some (raw, more) ∧
      quoted? (raw ++ more) = some (v, more)) :
    Spells ('\'' :: raw) v more := by
  simp [Spells, value?, value, alike]

/-- What stands for itself is divided at the first character that does not. -/
theorem span_append {p : Char → Bool} {raw : List Char} (inside : ∀ c ∈ raw, p c = true)
    (more : List Char) (ends : ∀ c ∈ more.head?, p c = false) :
    (raw ++ more).takeWhile p = raw ∧ (raw ++ more).dropWhile p = more := by
  rw [List.takeWhile_append_of_pos inside, List.dropWhile_append_of_pos inside]
  cases more with
  | nil => simp
  | cons c cs => simp [ends c rfl]

theorem value_of_bare {cs v rest : List Char} (unquoted : cs.head? ≠ some '\'') (some : v ≠ [])
    (reads : bare cs = (v, rest)) : value cs = .ok (v, rest) := by
  rw [value]
  · simp [reads, some]
  · rintro _ rfl
    exact unquoted rfl

theorem spells_bare {raw v more : List Char} (solid : ∀ c ∈ raw, isBlank c = false)
    (unquoted : (raw ++ more).head? ≠ some '\'') (some : v ≠ [])
    (reads : bare (raw ++ more) = (v, more)) (ends : ∀ c ∈ more.head?, isAsciiBlank c = true) :
    Spells raw v more := by
  have inside : ∀ c ∈ raw, (!isAsciiBlank c) = true := fun c member => by
    simp [isAsciiBlank_of_solid (solid c member)]
  obtain ⟨front, behind⟩ := span_append inside more fun c first => by simp [ends c first]
  refine ⟨?_, value_of_bare unquoted some reads⟩
  rw [value?, front, behind]
  intro cs same
  exact unquoted (by rw [same]; rfl)

theorem bare_stands {cs v rest : List Char} (unquoted : cs.head? ≠ some '\'') (some : v ≠ [])
    (plain : plainBare cs = true) (reads : bare cs = (v, rest)) :
    ∃ raw, cs = raw ++ rest ∧ Stands raw v rest := by
  obtain ⟨raw, whole, solid, ends⟩ := bare_divides plain
  rw [reads] at whole ends
  subst whole
  have inhabited : raw ≠ [] := by
    rintro rfl
    exact some (nil_of_bare reads)
  obtain ⟨c, cs, rfl⟩ := List.exists_cons_of_ne_nil inhabited
  exact ⟨_, rfl, ⟨c, cs, rfl, solid c (by simp)⟩,
    ⟨_, _, (List.dropLast_append_getLast inhabited).symm, solid _ (List.getLast_mem inhabited)⟩,
    Or.inr ends, fun more last first => spells_bare solid unquoted some
      (bare_append solid reads last fun c member => isBlank_of_isAsciiBlank (first c member)) first⟩

theorem value_stands {cs v rest : List Char} (reads : value cs = .ok (v, rest))
    (plain : plainValue cs = true) : ∃ raw, cs = raw ++ rest ∧ Stands raw v rest := by
  fun_cases value cs with
  | case1 cs p closes =>
    simp only [value, closes, Except.ok.injEq] at reads
    subst reads
    obtain ⟨raw, whole, closed, alike⟩ := quoted?_alike closes
    refine ⟨'\'' :: raw, by rw [whole]; rfl, ⟨_, _, rfl, by decide⟩, ?_,
      Or.inl fun more => spells_quoted (alike more), fun more _ _ => spells_quoted (alike more)⟩
    obtain ⟨front, rfl⟩ := List.getLast?_eq_some_iff.mp closed
    exact ⟨'\'' :: front, '\'', rfl, by decide⟩
  | case2 cs unclosed => simp [value, unclosed] at reads
  | case3 cs empty unquoted =>
    rw [value, if_pos empty] at reads
    · cases reads
    · exact unquoted
  | case4 cs some unquoted =>
    rw [value, if_neg some, Except.ok.injEq] at reads
    · rw [plainValue] at plain
      · refine bare_stands ?_ (by rwa [reads] at some) plain reads
        intro mark
        obtain ⟨_, rfl⟩ := List.head?_eq_some_iff.mp mark
        exact unquoted _ rfl
      · exact unquoted
    · exact unquoted

/-- What the trimming leaves behind a value. -/
theorem Stands.trimmed {raw v rest : List Char} (stands : Stands raw v rest)
    (plain : plainGap rest = true) : Spells raw v (trimEnd rest) := by
  rcases stands.closed with closed | followed
  · exact closed _
  cases blank : rest.all isBlank with
  | true =>
    rw [trimEnd_of_blank blank]
    exact stands.apart [] (fun _ => rfl) (by simp)
  | false =>
    obtain ⟨c, later, -, -, whole⟩ := trimEnd_of_solid blank
    obtain ⟨b, tail, rfl⟩ : ∃ b tail, rest = b :: tail :=
      List.exists_cons_of_ne_nil (by rintro rfl; cases blank)
    refine stands.apart _ nofun fun d first => ?_
    simp only [plainGap, blank, Bool.or_false, List.all_eq_true] at plain
    rw [whole, List.takeWhile_cons_of_pos (followed b rfl)] at first
    cases first
    exact plain _ (by simp [followed _ rfl])

theorem settings?_append {gap : List Char} (blank : ∀ c ∈ gap, isAsciiBlank c = true)
    (rest : List Char) : settings? (gap ++ rest) = settings? rest := by
  rw [settings?, settings?, List.dropWhile_append_of_pos blank]

theorem settings?_cons {c : Char} (solid : isAsciiBlank c = false) (cs : List Char) :
    settings? (c :: cs) =
      (Setting.read? (c :: cs)).bind fun p => (settings? p.2).map (p.1 :: ·) := by
  have stays : (c :: cs).dropWhile isAsciiBlank = c :: cs := by simp [solid]
  rw [settings?]
  split <;> rename_i front <;> rw [stays] at front <;> cases front
  split <;> rename_i reads <;> rw [reads] <;> rfl

theorem pairs_of_reads {cs key v rest : List Char}
    (own : (cs.dropWhile isBlank).takeWhile isKeyCharacter = key) (some : key ≠ [])
    (reads : valueAfterKey ((cs.dropWhile isBlank).dropWhile isKeyCharacter) = .ok (v, rest)) :
    pairs cs = (pairs rest).map ((key, v) :: ·) := by
  subst own
  rw [pairs]
  simp only [some, ↓reduceIte]
  split <;> rename_i result <;> rw [reads] at result <;> cases result
  rfl

theorem isBlank_of_isKeyCharacter {c : Char} (own : isKeyCharacter c = true) : isBlank c = false := by
  simp only [isKeyCharacter, Bool.and_eq_true, Bool.not_eq_true'] at own
  exact own.1

/-- Any reader finds the parts of a setting again that knows the characters of its key and the white space
at its equals sign. -/
theorem parts_of_written {k b : Char → Bool} {key gap gap' : List Char} (keyed : ∀ c ∈ key, k c = true)
    (before : ∀ c ∈ gap, b c = true) (behind : ∀ c ∈ gap', b c = true) (rest : List Char)
    (first : ∀ c ∈ rest.head?, b c = false) (apart : ∀ c, b c = true → k c = false)
    (mark : k '=' = false ∧ b '=' = false) :
    let values := gap' ++ rest
    let tail := gap ++ '=' :: values
    ((key ++ tail).takeWhile k = key ∧ (key ++ tail).dropWhile k = tail) ∧
      (tail.takeWhile b = gap ∧ tail.dropWhile b = '=' :: values) ∧
        values.takeWhile b = gap' ∧ values.dropWhile b = rest := by
  refine ⟨span_append keyed _ fun c front => ?_, span_append before _ ?_, span_append behind _ first⟩
  · cases gap with
    | nil => cases front; exact mark.1
    | cons => cases front; exact apart _ (before _ List.mem_cons_self)
  · rintro _ ⟨⟩
    exact mark.2

section Written

variable {key gap gap' raw v more : List Char} (keyed : ∀ c ∈ key, isKeyCharacter c = true)
  (before : ∀ c ∈ gap, isAsciiBlank c = true) (behind : ∀ c ∈ gap', isAsciiBlank c = true)
  (first : ∃ c cs, raw = c :: cs ∧ isBlank c = false) (spells : Spells raw v more)

include keyed before behind first spells

theorem read?_written :
    Setting.read? (key ++ (gap ++ '=' :: (gap' ++ (raw ++ more)))) =
      some (⟨key, key ++ gap ++ '=' :: gap' ++ raw⟩, more) := by
  obtain ⟨c, cs, rfl, solid⟩ := first
  have named : ∀ c ∈ key, Conninfo.isKeyCharacter c = true := fun c member => by
    have own := keyed c member
    simp only [isKeyCharacter, Bool.and_eq_true, Bool.not_eq_true'] at own
    simp [Conninfo.isKeyCharacter, own.2, isAsciiBlank_of_solid own.1]
  obtain ⟨⟨ownKey, afterKey⟩, ⟨ownGap, afterGap⟩, ownGap', afterGap'⟩ :=
    parts_of_written named before behind (c :: cs ++ more)
      (by rintro _ ⟨⟩; exact isAsciiBlank_of_solid solid)
      (fun c blank => by simp [Conninfo.isKeyCharacter, blank]) (by decide)
  simp only [Setting.read?, ownKey, afterKey, ownGap, afterGap, ownGap', afterGap', spells.1,
    Option.map_some]

theorem settings?_written (some : key ≠ []) :
    settings? (key ++ (gap ++ '=' :: (gap' ++ (raw ++ more)))) =
      (settings? more).map (⟨key, key ++ gap ++ '=' :: gap' ++ raw⟩ :: ·) := by
  have reads := read?_written keyed before behind first spells
  obtain ⟨k, ks, rfl⟩ := List.exists_cons_of_ne_nil some
  have solid := isBlank_of_isKeyCharacter (keyed k List.mem_cons_self)
  rw [List.cons_append] at reads ⊢
  rw [settings?_cons (isAsciiBlank_of_solid solid), reads]
  rfl

theorem pairs_written (some : key ≠ []) :
    pairs (key ++ (gap ++ '=' :: (gap' ++ (raw ++ more)))) = (pairs more).map ((key, v) :: ·) := by
  obtain ⟨c, cs, rfl, solid⟩ := first
  obtain ⟨⟨ownKey, afterKey⟩, ⟨-, afterGap⟩, -, afterGap'⟩ :=
    parts_of_written keyed (fun c inside => isBlank_of_isAsciiBlank (before c inside))
      (fun c inside => isBlank_of_isAsciiBlank (behind c inside)) (c :: cs ++ more)
      (by rintro _ ⟨⟩; exact solid) (fun c blank => by simp [isKeyCharacter, blank]) (by decide)
  have start : (key ++ (gap ++ '=' :: (gap' ++ (c :: cs ++ more)))).dropWhile isBlank =
      key ++ (gap ++ '=' :: (gap' ++ (c :: cs ++ more))) := by
    obtain ⟨k, ks, rfl⟩ := List.exists_cons_of_ne_nil some
    simp [isBlank_of_isKeyCharacter (keyed k List.mem_cons_self)]
  refine (pairs_of_reads (by rw [start, ownKey]) some ?_).trans rfl
  simp only [start, afterKey, valueAfterKey, afterGap, afterGap', spells.2]

end Written

/-- A text without a key at its front keeps its equals sign there. -/
theorem settings?_keyless {cs : List Char} {ss : List Setting} (divides : settings? ('=' :: cs) = some ss) :
    ∃ text others, ss = ⟨[], '=' :: text⟩ :: others := by
  rw [settings?_cons (by decide), Option.bind_eq_some_iff] at divides
  obtain ⟨⟨t, rest⟩, reads, divides⟩ := divides
  obtain ⟨others, -, rfl⟩ := Option.map_eq_some_iff.mp divides
  have front : ('=' :: cs).takeWhile Conninfo.isKeyCharacter = [] :=
    List.takeWhile_cons_of_neg (by decide)
  have gap : ('=' :: cs).dropWhile Conninfo.isKeyCharacter = '=' :: cs :=
    List.dropWhile_cons_of_neg (by decide)
  simp only [Setting.read?, front, gap, List.dropWhile_cons_of_neg (show ¬isAsciiBlank '=' by decide),
    List.takeWhile_cons_of_neg (show ¬isAsciiBlank '=' by decide), Option.map_eq_some_iff] at reads
  obtain ⟨_, -, same⟩ := reads
  cases same
  exact ⟨_, _, rfl⟩

theorem pairs_cons_of_blank {c : Char} (blank : isBlank c = true) (cs : List Char) :
    pairs (c :: cs) = pairs cs := by
  rw [pairs, pairs, List.dropWhile_cons_of_pos blank]

theorem pairs_keyless (cs : List Char) : pairs ('=' :: cs) = .ok [] := by
  rw [pairs, List.dropWhile_cons_of_neg (by decide), List.takeWhile_cons_of_neg (by decide), if_pos rfl]

theorem plainGap_ascii {cs : List Char} (plain : plainGap cs = true) (some : trimStart cs ≠ []) :
    ∀ c ∈ cs.takeWhile isBlank, isAsciiBlank c = true := by
  rcases (Bool.or_eq_true _ _).mp plain with ascii | blank
  · exact List.all_eq_true.mp ascii
  · exact absurd (List.dropWhile_eq_nil_iff.mpr (List.all_eq_true.mp blank)) some

/-- The white space between two settings does not count. -/
theorem settings?_trimEnd {cs : List Char} (plain : plainGap cs = true) :
    settings? (trimEnd cs) = settings? (trimEnd (trimStart cs)) := by
  cases blank : cs.all isBlank with
  | true =>
    have none : trimStart cs = [] := List.dropWhile_eq_nil_iff.mpr (List.all_eq_true.mp blank)
    rw [trimEnd_of_blank blank, none, trimEnd_of_blank rfl]
  | false =>
    obtain ⟨c, rest, front, solid, whole⟩ := trimEnd_of_solid blank
    rw [whole, settings?_append (plainGap_ascii plain (by simp [front])), front]
    exact congrArg settings? (trimEnd_append ⟨[], c, rfl, solid⟩ rest).symm

theorem valueAfterKey_eq_ok {cs v rest : List Char} (reads : valueAfterKey cs = .ok (v, rest)) :
    ∃ values, trimStart cs = '=' :: values ∧ value (trimStart values) = .ok (v, rest) := by
  unfold valueAfterKey at reads
  split at reads
  · exact ⟨_, ‹_›, reads⟩
  · cases reads

theorem isPlain_keyless {cs : List Char} (keyless : (trimStart cs).takeWhile isKeyCharacter = []) :
    isPlain cs = (settings? (trimEnd (trimStart cs))).isSome := by
  rw [isPlain, if_pos keyless]

theorem isPlain_setting {cs values v rest : List Char}
    (keyed : (trimStart cs).takeWhile isKeyCharacter ≠ [])
    (gap : trimStart ((trimStart cs).dropWhile isKeyCharacter) = '=' :: values)
    (reads : value (trimStart values) = .ok (v, rest)) :
    isPlain cs = (plainGap ((trimStart cs).dropWhile isKeyCharacter) &&
      (plainGap values && plainValue (trimStart values) && (plainGap rest && isPlain rest))) := by
  rw [isPlain, if_neg keyed]
  refine congrArg (Bool.and _) ?_
  split <;> rename_i front
  · rw [gap] at front
    cases front
    refine congrArg (Bool.and _) ?_
    split <;> rename_i result <;> rw [reads] at result <;> cases result
    rfl
  · exact absurd gap (front _)

/-- Where no key can be read there is an equals sign. -/
theorem equals_of_keyless {cs rest : List Char} {c : Char} (front : trimStart cs = c :: rest)
    (keyless : (c :: rest).takeWhile isKeyCharacter = []) : c = '=' := by
  have solid := isBlank_of_trimStart front
  by_contra other
  rw [List.takeWhile_cons_of_pos (by simp [isKeyCharacter, solid, other])] at keyless
  cases keyless

/-- What joins a text to others begins with white space, and is read as they are. -/
theorem join_cons (text : List Char) (texts : List (List Char)) :
    ∃ more, join ' ' (text :: texts) = text ++ more ∧ (texts = [] → more = []) ∧
      (∀ c ∈ more.head?, isAsciiBlank c = true) ∧ pairs more = pairs (join ' ' texts) := by
  cases texts with
  | nil => exact ⟨[], by simp [join], fun _ => rfl, by simp, rfl⟩
  | cons t ts =>
    exact ⟨' ' :: join ' ' (t :: ts), rfl, by simp, by rintro _ ⟨⟩; decide,
      pairs_cons_of_blank (by decide) _⟩

/-- The parts of a text as they are written, from its first key on. -/
theorem trimEnd_parts {cs values raw rest : List Char}
    (gap : trimStart ((trimStart cs).dropWhile isKeyCharacter) = '=' :: values)
    (whole : trimStart values = raw ++ rest) (last : ∃ cs c, raw = cs ++ [c] ∧ isBlank c = false) :
    trimEnd (trimStart cs) = (trimStart cs).takeWhile isKeyCharacter ++
      (((trimStart cs).dropWhile isKeyCharacter).takeWhile isBlank ++
        '=' :: (values.takeWhile isBlank ++ (raw ++ trimEnd rest))) := by
  obtain ⟨front, c, rfl, solid⟩ := last
  have divided (p : Char → Bool) (xs : List Char) : xs = xs.takeWhile p ++ xs.dropWhile p :=
    List.takeWhile_append_dropWhile.symm
  generalize after : (trimStart cs).dropWhile isKeyCharacter = tail at gap ⊢
  have body : trimStart cs = (trimStart cs).takeWhile isKeyCharacter ++
      (tail.takeWhile isBlank ++ '=' :: (values.takeWhile isBlank ++ (front ++ [c] ++ rest))) :=
    calc trimStart cs = (trimStart cs).takeWhile isKeyCharacter ++ tail := by rw [← after, ← divided]
      _ = (trimStart cs).takeWhile isKeyCharacter ++ (tail.takeWhile isBlank ++ '=' :: values) := by
        rw [← gap, trimStart.eq_def tail, ← divided]
      _ = _ := by rw [← whole, trimStart.eq_def values, ← divided]
  calc trimEnd (trimStart cs)
      = trimEnd (((trimStart cs).takeWhile isKeyCharacter ++ tail.takeWhile isBlank ++
          '=' :: values.takeWhile isBlank ++ front ++ [c]) ++ rest) :=
        congrArg trimEnd (body.trans (by simp))
    _ = _ := by rw [trimEnd_append ⟨_, c, rfl, solid⟩]; simp

/-- Whatever keys are kept, the settings that stay are read as the pairs that stay. -/
def Carries (ss : List Setting) (ps : List (List Char × List Char)) : Prop :=
  ∀ keep : List Char → Bool, keep [] = true →
    pairs (join ' ' ((ss.filter (keep ·.key)).map (·.text))) = .ok (ps.filter (keep ·.1))

theorem carries_nil : Carries [] [] := fun keep keeps => by
  rw [List.filter_nil, List.map_nil, join, pairs]
  rfl

/-- A text that begins with an equals sign goes on doing so. -/
theorem carries_keyless {cs : List Char} {ss : List Setting} (divides : settings? ('=' :: cs) = some ss) :
    Carries ss [] := fun keep keeps => by
  obtain ⟨text, others, rfl⟩ := settings?_keyless divides
  obtain ⟨more, joined, -⟩ := join_cons ('=' :: text) ((others.filter (keep ·.key)).map (·.text))
  rw [List.filter_cons_of_pos (by exact keeps), List.map_cons, joined]
  exact pairs_keyless _

theorem Carries.cons {t : Setting} {v : List Char} {ss : List Setting} {ps : List (List Char × List Char)}
    (carries : Carries ss ps)
    (reads : ∀ more, (ss = [] → more = []) → (∀ c ∈ more.head?, isAsciiBlank c = true) →
      pairs (t.text ++ more) = (pairs more).map ((t.key, v) :: ·)) :
    Carries (t :: ss) ((t.key, v) :: ps) := fun keep keeps => by
  have later := carries keep keeps
  cases stays : keep t.key with
  | false =>
    rw [List.filter_cons_of_neg (by simp [stays]), List.filter_cons_of_neg (by simp [stays])]
    exact later
  | true =>
    obtain ⟨more, joined, last, blank, same⟩ := join_cons t.text ((ss.filter (keep ·.key)).map (·.text))
    rw [List.filter_cons_of_pos (by exact stays), List.filter_cons_of_pos (by exact stays), List.map_cons,
      joined, reads more (fun none => last (by simp [none])) blank, same, later]
    rfl

/-- A plain text that begins with no key is divided into settings that the grammar leaves. -/
theorem settings?_of_plain_keyless {cs : List Char} (keyless : (trimStart cs).takeWhile isKeyCharacter = [])
    (plain : isPlain cs = true) :
    ∃ ss, settings? (trimEnd (trimStart cs)) = some ss ∧ (trimStart cs = [] → ss = []) ∧ Carries ss [] := by
  rw [isPlain_keyless keyless] at plain
  obtain ⟨ss, divides⟩ := Option.isSome_iff_exists.mp plain
  cases front : trimStart cs with
  | nil => exact ⟨[], by rw [trimEnd_of_blank rfl, settings?]; rfl, fun _ => rfl, carries_nil⟩
  | cons c rest =>
    obtain rfl : c = '=' := equals_of_keyless front (front ▸ keyless)
    have whole : trimEnd ('=' :: rest) = '=' :: trimEnd rest := trimEnd_append ⟨[], '=', rfl, by decide⟩ rest
    rw [front, whole] at divides
    exact ⟨ss, by rw [whole]; exact divides, nofun, carries_keyless divides⟩

/-- A plain text is divided into the settings that the grammar reads, and maybe others that it leaves. -/
theorem settings?_of_plain {cs : List Char} {ps : List (List Char × List Char)}
    (splits : pairs cs = .ok ps) (plain : isPlain cs = true) :
    ∃ ss, settings? (trimEnd (trimStart cs)) = some ss ∧ (trimStart cs = [] → ss = []) ∧ Carries ss ps := by
  fun_induction pairs cs generalizing ps with
  | case1 cs key =>
    rename_i keyless
    cases splits
    exact settings?_of_plain_keyless keyless plain
  | case2 cs key keyed e => cases splits
  | case3 cs key keyed v rest reads =>
    rename_i ih
    obtain ⟨values, gap, reads⟩ : ∃ values,
        trimStart ((trimStart cs).dropWhile isKeyCharacter) = '=' :: values ∧
          value (trimStart values) = .ok (v, rest) := valueAfterKey_eq_ok reads
    rw [isPlain_setting keyed gap reads] at plain
    simp only [Bool.and_eq_true] at plain
    obtain ⟨ascii, ⟨ascii', plainly⟩, later, plain⟩ := plain
    obtain ⟨others, splits', rfl⟩ : ∃ others, pairs rest = .ok others ∧ ps = (key, v) :: others := by
      cases same : pairs rest with
      | error e => rw [same] at splits; cases splits
      | ok others => rw [same] at splits; exact ⟨others, rfl, (Except.ok.inj splits).symm⟩
    obtain ⟨ss, divides, none, carries⟩ := ih splits' plain
    obtain ⟨raw, whole, stands⟩ := value_stands reads plainly
    have own : ∀ c ∈ key, isKeyCharacter c = true := fun c => List.mem_takeWhile_imp
    have before := plainGap_ascii ascii (by rw [gap]; nofun)
    have behind := plainGap_ascii ascii' (by
      obtain ⟨c, front, rfl, -⟩ := stands.first
      rw [whole]
      nofun)
    refine ⟨⟨key, key ++ ((trimStart cs).dropWhile isKeyCharacter).takeWhile isBlank ++
      '=' :: values.takeWhile isBlank ++ raw⟩ :: ss, ?_, fun empty => absurd ?_ keyed,
      carries.cons fun more last blank => ?_⟩
    · rw [trimEnd_parts gap whole stands.last]
      refine (settings?_written own before behind stands.first (stands.trimmed later) keyed).trans ?_
      rw [settings?_trimEnd later, divides]
      rfl
    · rw [show key = (trimStart cs).takeWhile isKeyCharacter from rfl, empty]
      rfl
    · simp only [List.append_assoc, List.cons_append]
      exact pairs_written own before behind stands.first
        (stands.apart more (fun ended => last (none (by rw [ended]; rfl))) blank) keyed

end Grammar

/-- A plain text that is no URL keeps its settings, in their order and with their values, and only those of
the replication option go. -/
theorem pairs_stripReplication {s : String} {ps : List (List Char × List Char)}
    (plain : Grammar.isPlain s.toList = true)
    (keyed : Url.afterScheme? (trimEnd (trimStart s.toList)) = none)
    (splits : Grammar.pairs s.toList = .ok ps) :
    Grammar.pairs (stripReplication s).toList = .ok (ps.filter (·.1 != replicationKey)) := by
  obtain ⟨ss, divides, -, carries⟩ := Grammar.settings?_of_plain splits plain
  rw [stripReplication, keyed, Option.isSome_none, if_neg (by decide), String.toList_ofList, stripSettings,
    divides]
  exact carries (· != replicationKey) (by decide)

/-- The option is the last of three settings, and the quotes of another hold its name. -/
theorem pairs_stripReplication_of_quoted :
    let s := "user = u  password='a replication=b\\' c' replication=database"
    Grammar.isPlain s.toList = true ∧ Grammar.pairs (stripReplication s).toList =
      .ok [("user".toList, "u".toList), ("password".toList, "a replication=b' c".toList)] := by
  intro s
  have plain : Grammar.isPlain s.toList = true := by decide +kernel
  have splits : Grammar.pairs s.toList = .ok [("user".toList, "u".toList),
      ("password".toList, "a replication=b' c".toList), (replicationKey, "database".toList)] := by
    decide +kernel
  exact ⟨plain, (pairs_stripReplication plain (by decide +kernel) splits).trans (by decide)⟩

/-- A password with a space behind a backslash loses what follows the space when it has the name of the
option. -/
theorem pairs_stripReplication_of_escaped :
    Grammar.pairs "password=x\\ replication=database".toList =
        .ok [("password".toList, "x replication=database".toList)] ∧
      Grammar.pairs (stripReplication "password=x\\ replication=database").toList ≠
        .ok [("password".toList, "x replication=database".toList)] := by
  decide +kernel

end ChangeFeed.Conninfo
