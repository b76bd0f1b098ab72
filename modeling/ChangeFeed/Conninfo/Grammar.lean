import ChangeFeed.Text.Blank
import ChangeFeed.Text.Cut

/-!
Connection strings of settings `key = value`, read with the values that they stand for. White space
of any script divides them, and a backslash takes the character after it as it is.
-/
namespace ChangeFeed.Conninfo

open Text

inductive Fault
  | missingEquals
  | emptyValue
  | unterminatedQuote
  | unterminatedParameter
  | invalidText
  | unknownOption (key : String)
  | invalidValue (key : String)
deriving DecidableEq, Repr

def Fault.text : Fault → String
  | .missingEquals => "expected an equals sign"
  | .emptyValue => "unexpected end of the connection string"
  | .unterminatedQuote => "unterminated quoted value"
  | .unterminatedParameter => "unterminated parameter"
  | .invalidText => "encoded bytes are no text"
  | .unknownOption key => "unknown option " ++ key
  | .invalidValue key => "invalid value for option " ++ key

namespace Grammar

/-- A quoted value up to its closing mark, and what follows the mark. -/
def quoted? : List Char → Option (List Char × List Char)
  | [] => none
  | '\'' :: cs => some ([], cs)
  | '\\' :: c :: cs => (quoted? cs).map fun p => (c :: p.1, p.2)
  | c :: cs => (quoted? cs).map fun p => (c :: p.1, p.2)

/-- A bare value up to white space, and what follows it; a backslash at the very end stands for
nothing. -/
def bare : List Char → List Char × List Char
  | [] => ([], [])
  | ['\\'] => ([], [])
  | '\\' :: c :: cs => (c :: (bare cs).1, (bare cs).2)
  | c :: cs => if isBlank c then ([], c :: cs) else (c :: (bare cs).1, (bare cs).2)

def value (cs : List Char) : Except Fault (List Char × List Char) :=
  match cs with
  | '\'' :: rest =>
    match quoted? rest with
    | some p => .ok p
    | none => .error .unterminatedQuote
  | _ => if (bare cs).1 = [] then .error .emptyValue else .ok (bare cs)

def isKeyCharacter (c : Char) : Bool := !isBlank c && c != '='

/-- The value of a setting, from the equals sign on, and what follows it. -/
def valueAfterKey (cs : List Char) : Except Fault (List Char × List Char) :=
  match cs.dropWhile isBlank with
  | '=' :: rest => value (rest.dropWhile isBlank)
  | _ => .error .missingEquals

theorem length_of_quoted? {cs a b : List Char} (h : quoted? cs = some (a, b)) :
    b.length < cs.length := by
  fun_induction quoted? cs generalizing a with
  | case1 => simp at h
  | case2 cs =>
    simp only [Option.some.injEq, Prod.mk.injEq] at h
    simp [h.2]
  | case3 c cs ih =>
    simp only [Option.map_eq_some_iff, Prod.mk.injEq] at h
    obtain ⟨⟨p, q⟩, hp, rfl, rfl⟩ := h
    exact Nat.lt_succ_of_lt (Nat.lt_succ_of_lt (ih hp))
  | case4 c cs _ _ ih =>
    simp only [Option.map_eq_some_iff, Prod.mk.injEq] at h
    obtain ⟨⟨p, q⟩, hp, rfl, rfl⟩ := h
    exact Nat.lt_succ_of_lt (ih hp)

theorem length_bare_le (cs : List Char) : (bare cs).2.length ≤ cs.length := by
  fun_induction bare cs with
  | case1 => simp
  | case2 => simp
  | case3 c cs ih => simp only [List.length_cons]; omega
  | case4 => simp
  | case5 c cs _ _ _ ih => simp only [List.length_cons]; omega

theorem length_of_value {cs a b : List Char} (h : value cs = .ok (a, b)) : b.length ≤ cs.length := by
  unfold value at h
  split at h
  · split at h
    · rename_i rest p hp
      injection h with h
      subst h
      have := length_of_quoted? hp
      simp only [List.length_cons]
      omega
    · simp at h
  · split at h
    · simp at h
    · injection h with h
      have := length_bare_le cs
      rw [h] at this
      exact this

theorem length_of_valueAfterKey {cs a b : List Char} (h : valueAfterKey cs = .ok (a, b)) :
    b.length < cs.length := by
  unfold valueAfterKey at h
  split at h
  · rename_i rest hrest
    have h₁ := length_of_value h
    have h₂ := length_dropWhile_le isBlank rest
    have h₃ := length_dropWhile_le isBlank cs
    rw [hrest, List.length_cons] at h₃
    omega
  · simp at h

/-- Keys and values in their order. Where no key can be read the reading ends. -/
def pairs (cs : List Char) : Except Fault (List (List Char × List Char)) :=
  let key := (cs.dropWhile isBlank).takeWhile isKeyCharacter
  if key = [] then .ok []
  else
    match _h : valueAfterKey ((cs.dropWhile isBlank).dropWhile isKeyCharacter) with
    | .error e => .error e
    | .ok (value, rest) => (pairs rest).map ((key, value) :: ·)
termination_by cs.length
decreasing_by
  have := length_of_valueAfterKey _h
  have := length_dropWhile_le isKeyCharacter (cs.dropWhile isBlank)
  have := length_dropWhile_le isBlank cs
  omega

end Grammar

end ChangeFeed.Conninfo
