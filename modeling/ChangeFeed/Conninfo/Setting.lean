import ChangeFeed.Text.Blank
import ChangeFeed.Text.Cut

/-!
A connection string as a row of settings `key = value`, each kept as it was written. Main statement:
`Setting.append_of_read?` says that a setting is the very text that it was read from.
-/
namespace ChangeFeed.Conninfo

open Text

/-- A setting by its key and by its whole text, from the key to the end of the value. -/
structure Setting where
  key : List Char
  text : List Char
deriving DecidableEq, Repr

/-- What follows an opening mark, divided after the mark that closes it; a backslash keeps the
character after it from closing. -/
def quoted? : List Char → Option (List Char × List Char)
  | [] => none
  | '\'' :: cs => some (['\''], cs)
  | '\\' :: c :: cs => (quoted? cs).map fun p => ('\\' :: c :: p.1, p.2)
  | c :: cs => (quoted? cs).map fun p => (c :: p.1, p.2)

/-- A value and what follows it; a value that is not quoted ends at white space. -/
def value? : List Char → Option (List Char × List Char)
  | '\'' :: cs => (quoted? cs).map fun p => ('\'' :: p.1, p.2)
  | cs => some (cs.takeWhile (!isAsciiBlank ·), cs.dropWhile (!isAsciiBlank ·))

def isKeyCharacter (c : Char) : Bool := c != '=' && !isAsciiBlank c

namespace Setting

/-- The setting that a text begins with, and what follows it. -/
def read? (cs : List Char) : Option (Setting × List Char) :=
  let key := cs.takeWhile isKeyCharacter
  let gap := cs.dropWhile isKeyCharacter
  match gap.dropWhile isAsciiBlank with
  | '=' :: rest =>
    (value? (rest.dropWhile isAsciiBlank)).map fun p =>
      (⟨key, key ++ gap.takeWhile isAsciiBlank ++ '=' :: rest.takeWhile isAsciiBlank ++ p.1⟩, p.2)
  | _ => none

end Setting

theorem append_of_quoted? {cs a b : List Char} (h : quoted? cs = some (a, b)) : cs = a ++ b := by
  fun_induction quoted? cs generalizing a with
  | case1 => simp at h
  | case2 cs =>
    simp only [Option.some.injEq, Prod.mk.injEq] at h
    obtain ⟨rfl, rfl⟩ := h
    rfl
  | case3 c cs ih =>
    simp only [Option.map_eq_some_iff, Prod.mk.injEq] at h
    obtain ⟨⟨p, q⟩, hp, rfl, rfl⟩ := h
    simp [ih hp]
  | case4 c cs _ _ ih =>
    simp only [Option.map_eq_some_iff, Prod.mk.injEq] at h
    obtain ⟨⟨p, q⟩, hp, rfl, rfl⟩ := h
    simp [ih hp]

theorem append_of_value? {cs a b : List Char} (h : value? cs = some (a, b)) : cs = a ++ b := by
  fun_cases value? cs with
  | case1 cs =>
    simp only [value?, Option.map_eq_some_iff, Prod.mk.injEq] at h
    obtain ⟨⟨p, q⟩, hp, rfl, rfl⟩ := h
    simp [append_of_quoted? hp]
  | case2 _ hq =>
    rw [value?] at h
    · simp only [Option.some.injEq, Prod.mk.injEq] at h
      obtain ⟨rfl, rfl⟩ := h
      exact List.takeWhile_append_dropWhile.symm
    · exact hq

/-- A setting is the text that it was read from. -/
theorem Setting.append_of_read? {cs rest : List Char} {s : Setting}
    (h : Setting.read? cs = some (s, rest)) : cs = s.text ++ rest := by
  unfold Setting.read? at h
  simp only at h
  split at h
  · rename_i tail hgap
    simp only [Option.map_eq_some_iff, Prod.mk.injEq] at h
    obtain ⟨⟨v, r⟩, hv, rfl, rfl⟩ := h
    have hv := append_of_value? hv
    have tailEq := List.takeWhile_append_dropWhile (p := isAsciiBlank) (l := tail)
    have gapEq := List.takeWhile_append_dropWhile (p := isAsciiBlank)
      (l := cs.dropWhile isKeyCharacter)
    rw [hgap] at gapEq
    rw [hv] at tailEq
    calc cs = cs.takeWhile isKeyCharacter ++ cs.dropWhile isKeyCharacter :=
          List.takeWhile_append_dropWhile.symm
      _ = cs.takeWhile isKeyCharacter ++
          ((cs.dropWhile isKeyCharacter).takeWhile isAsciiBlank ++ '=' :: tail) := by rw [gapEq]
      _ = cs.takeWhile isKeyCharacter ++ ((cs.dropWhile isKeyCharacter).takeWhile isAsciiBlank ++
          '=' :: (tail.takeWhile isAsciiBlank ++ (v ++ r))) := by rw [tailEq]
      _ = _ := by simp
  · simp at h

theorem Setting.length_of_read? {cs rest : List Char} {s : Setting}
    (h : Setting.read? cs = some (s, rest)) : rest.length < cs.length := by
  have whole := Setting.append_of_read? h
  have : s.text ≠ [] := by
    unfold Setting.read? at h
    simp only at h
    split at h
    · simp only [Option.map_eq_some_iff, Prod.mk.injEq] at h
      obtain ⟨_, _, rfl, _⟩ := h
      simp
    · simp at h
  have := List.length_pos_iff.mpr this
  rw [whole, List.length_append]
  omega

/-- The settings of a whole text; nothing if one of them lacks its equals sign or its closing mark. -/
def settings? (cs : List Char) : Option (List Setting) :=
  match _h : cs.dropWhile isAsciiBlank with
  | [] => some []
  | c :: tail =>
    match _r : Setting.read? (c :: tail) with
    | none => none
    | some (s, rest) => (settings? rest).map (s :: ·)
termination_by cs.length
decreasing_by
  have := Setting.length_of_read? _r
  have := length_dropWhile_le isAsciiBlank cs
  rw [_h] at this
  omega

end ChangeFeed.Conninfo
