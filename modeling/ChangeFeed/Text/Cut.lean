/-!
Texts cut at a mark. Main statements: `cut?_eq_some_iff` and `cut?_eq_none_iff` say where a text is
cut, `join_parts` that nothing is lost.
-/
namespace ChangeFeed.Text

/-- The characters before and after the first `mark`. -/
def cut? (mark : Char) : List Char → Option (List Char × List Char)
  | [] => none
  | c :: cs => if c = mark then some ([], cs) else (cut? mark cs).map fun p => (c :: p.1, p.2)

/-- The parts of a text between the marks; without a mark it is one part. -/
def parts (mark : Char) : List Char → List (List Char)
  | [] => [[]]
  | c :: cs =>
    if c = mark then [] :: parts mark cs
    else match parts mark cs with
      | [] => [[c]]
      | p :: ps => (c :: p) :: ps

/-- The parts of a text with a mark between each two. -/
def join (mark : Char) : List (List Char) → List Char
  | [] => []
  | [p] => p
  | p :: ps => p ++ mark :: join mark ps

theorem cut?_append {mark : Char} {a : List Char} (h : mark ∉ a) (b : List Char) :
    cut? mark (a ++ mark :: b) = some (a, b) := by
  induction a with
  | nil => simp [cut?]
  | cons c a ih =>
    simp only [List.mem_cons, not_or] at h
    simp [cut?, Ne.symm h.1, ih h.2]

theorem cut?_eq_none_iff {mark : Char} {cs : List Char} : cut? mark cs = none ↔ mark ∉ cs := by
  induction cs with
  | nil => simp [cut?]
  | cons c cs ih =>
    rw [cut?]
    by_cases h : c = mark
    · simp [h]
    · simp [h, ih, Ne.symm h]

theorem cut?_eq_some_iff {mark : Char} {cs a b : List Char} :
    cut? mark cs = some (a, b) ↔ cs = a ++ mark :: b ∧ mark ∉ a := by
  constructor
  · intro h
    induction cs generalizing a with
    | nil => simp [cut?] at h
    | cons c cs ih =>
      rw [cut?] at h
      by_cases hc : c = mark
      · simp only [if_pos hc, Option.some.injEq, Prod.mk.injEq] at h
        obtain ⟨rfl, rfl⟩ := h
        simp [hc]
      · simp only [if_neg hc, Option.map_eq_some_iff, Prod.mk.injEq] at h
        obtain ⟨⟨p, q⟩, hp, rfl, rfl⟩ := h
        obtain ⟨rfl, hm⟩ := ih hp
        simp [hm, Ne.symm hc]
  · rintro ⟨rfl, h⟩
    exact cut?_append h b

theorem length_of_cut? {mark : Char} {cs a b : List Char} (h : cut? mark cs = some (a, b)) :
    b.length < cs.length := by
  rw [(cut?_eq_some_iff.mp h).1]
  simp only [List.length_append, List.length_cons]
  omega

theorem length_dropWhile_le {α : Type} (p : α → Bool) (xs : List α) :
    (xs.dropWhile p).length ≤ xs.length := by
  have := congrArg List.length (List.takeWhile_append_dropWhile (p := p) (l := xs))
  rw [List.length_append] at this
  omega

theorem parts_ne_nil (mark : Char) (cs : List Char) : parts mark cs ≠ [] := by
  cases cs with
  | nil => simp [parts]
  | cons c cs =>
    rw [parts]
    split
    · simp
    · split <;> simp

theorem join_parts (mark : Char) (cs : List Char) : join mark (parts mark cs) = cs := by
  induction cs with
  | nil => rfl
  | cons c cs ih =>
    rw [parts]
    split
    · rename_i h
      subst h
      cases hp : parts c cs with
      | nil => exact absurd hp (parts_ne_nil c cs)
      | cons p ps => rw [hp] at ih; simp [join, ih]
    · cases hp : parts mark cs with
      | nil => exact absurd hp (parts_ne_nil mark cs)
      | cons p ps =>
        rw [hp] at ih
        cases ps with
        | nil => simp [join] at ih ⊢; exact ih
        | cons q qs => simp [join] at ih ⊢; exact ih

theorem notMem_of_mem_parts {mark : Char} {cs part : List Char} (own : part ∈ parts mark cs) :
    mark ∉ part := by
  induction cs generalizing part with
  | nil => simp_all [parts]
  | cons c cs ih =>
    rw [parts] at own
    split at own
    · rcases List.mem_cons.mp own with rfl | later
      · simp
      · exact ih later
    · rename_i other
      cases hp : parts mark cs with
      | nil => exact absurd hp (parts_ne_nil mark cs)
      | cons p ps =>
        rw [hp] at own ih
        rcases List.mem_cons.mp own with rfl | later
        · simpa [Ne.symm other] using ih List.mem_cons_self
        · exact ih (List.mem_cons_of_mem p later)

theorem parts_append {mark : Char} {a : List Char} (free : mark ∉ a) (b : List Char) :
    parts mark (a ++ mark :: b) = a :: parts mark b := by
  induction a with
  | nil => simp [parts]
  | cons c a ih =>
    simp only [List.mem_cons, not_or] at free
    simp [parts, Ne.symm free.1, ih free.2]

theorem parts_of_notMem {mark : Char} {a : List Char} (free : mark ∉ a) : parts mark a = [a] := by
  induction a with
  | nil => rfl
  | cons c a ih =>
    simp only [List.mem_cons, not_or] at free
    simp [parts, Ne.symm free.1, ih free.2]

theorem parts_join {mark : Char} {ps : List (List Char)} (some : ps ≠ []) (free : ∀ p ∈ ps, mark ∉ p) :
    parts mark (join mark ps) = ps := by
  induction ps with
  | nil => exact absurd rfl some
  | cons p ps ih =>
    obtain ⟨first, others⟩ := List.forall_mem_cons.mp free
    cases ps with
    | nil => exact parts_of_notMem first
    | cons q qs => rw [join, parts_append first, ih (by simp) others]; simp

end ChangeFeed.Text
