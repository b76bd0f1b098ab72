import ChangeFeed.Checkpoint.Path
import Mathlib.Data.List.Induction
import Mathlib.Data.List.TakeWhile

/-!
Where paths lead. Main statements: a path with another extension leads to another place in the same
folder, by way of folders that the path passes too, unless it has that extension already; and a path
that ends with no name leads to a place that has been passed.
-/
namespace ChangeFeed.Path

variable {path extension : String} {folder : List (List Char)} {name : List Char} {p q : Place}

/-- Whether the name that a path ends with has an extension. -/
def hasExtension (path extension : String) : Bool :=
  (split? path).any fun s => s.2 = stem s.2 ++ '.' :: extension.toList

section Ways

variable {parts more : List (List Char)} {part : List Char}

theorem wayFrom_append : wayFrom p (parts ++ more) = wayFrom p parts ++ wayFrom (parts.foldl step p) more := by
  induction parts generalizing p with
  | nil => rfl
  | cons part parts ih => simp [wayFrom, ih]

theorem step_of_stays (still : stays part = true) : step p part = p := by rw [step, if_pos still]

theorem step_of_name (moves : stays part = false) (down : part ≠ ['.', '.']) :
    step p part = p ++ [String.ofList part] := by
  rw [step, moves, if_neg down]
  simp

theorem foldl_step_of_stays (still : ∀ part ∈ parts, stays part = true) : parts.foldl step p = p := by
  induction parts with
  | nil => rfl
  | cons part parts ih =>
    obtain ⟨first, others⟩ := List.forall_mem_cons.mp still
    rw [List.foldl_cons, step_of_stays first, ih others]

theorem eq_of_mem_wayFrom (still : ∀ part ∈ parts, stays part = true) (passed : q ∈ wayFrom p parts) :
    q = p := by
  induction parts with
  | nil => cases passed
  | cons part parts ih =>
    obtain ⟨first, others⟩ := List.forall_mem_cons.mp still
    rw [wayFrom, step_of_stays first] at passed
    rcases List.mem_cons.mp passed with here | later
    · exact here
    · exact ih others later

/-- What is above a place that parts lead to has been passed. -/
theorem mem_wayFrom_of_begins (above : q <+: parts.foldl step []) (other : q ≠ parts.foldl step []) :
    q ∈ wayFrom [] parts := by
  induction parts using List.reverseRecOn generalizing q with
  | nil => exact absurd (List.prefix_nil.mp above) other
  | append_singleton parts part ih =>
    rw [wayFrom_append, List.mem_append]
    rw [List.foldl_append, List.foldl_cons, List.foldl_nil] at above other
    by_cases still : stays part = true
    · rw [step_of_stays still] at above other
      exact .inl (ih above other)
    rw [Bool.not_eq_true] at still
    by_cases up : part = ['.', '.']
    · subst up
      have shorter : step (parts.foldl step []) ['.', '.'] = (parts.foldl step []).dropLast := rfl
      rw [shorter] at above other
      refine .inl (ih (above.trans (List.dropLast_prefix _)) fun same => other ?_)
      exact above.eq_of_length_le (by rw [same, List.length_dropLast]; omega)
    · rw [step_of_name still up] at above other
      rcases List.prefix_concat_iff.mp above with same | above
      · exact absurd same other
      · by_cases here : q = parts.foldl step []
        · exact .inr (by simp [here, wayFrom])
        · exact .inl (ih above here)

end Ways

theorem notMem_of_mem_path {part : List Char} (own : part ∈ parts path) : '/' ∉ part :=
  Text.notMem_of_mem_parts own

/-- The parts of a path around the name that it ends with. -/
theorem parts_of_split (split : split? path = some (folder, name)) :
    ∃ still, parts path = folder ++ name :: still ∧ (∀ part ∈ still, stays part = true) ∧
      stays name = false ∧ name ≠ ['.', '.'] := by
  have whole := List.takeWhile_append_dropWhile (p := stays) (l := (parts path).reverse)
  have still : ∀ part ∈ (parts path).reverse.takeWhile stays, stays part = true :=
    fun part own => List.mem_takeWhile_imp own
  unfold split? at split
  split at split
  · cases split
  · rename_i last before rest
    split at split
    · cases split
    · rename_i down
      cases split
      have moves : stays name = false := by
        have head := List.head?_dropWhile_not stays (parts path).reverse
        rw [rest] at head
        exact head
      refine ⟨((parts path).reverse.takeWhile stays).reverse, ?_, by simpa using still, moves, down⟩
      rw [rest] at whole
      have parts := congrArg List.reverse whole
      simpa using parts.symm

/-- A path that ends with no name leads to the top, or up from its last part. -/
theorem place_of_split_none (split : split? path = none) :
    place path = [] ∨ ∃ before, place path = (before.foldl step []).dropLast ∧
      ∃ still, names path = before ++ ['.', '.'] :: still := by
  have whole := List.takeWhile_append_dropWhile (p := stays) (l := (parts path).reverse)
  have still : ∀ part ∈ ((parts path).reverse.takeWhile stays).reverse, stays part = true :=
    fun part own => List.mem_takeWhile_imp (List.mem_reverse.mp own)
  unfold split? at split
  split at split
  · rename_i rest
    rw [rest, List.append_nil] at whole
    rw [whole, List.reverse_reverse] at still
    exact .inl (foldl_step_of_stays fun part own => still part (List.mem_filter.mp own).1)
  · rename_i last before rest
    split at split
    · rename_i up
      subst up
      rw [rest] at whole
      have shape : parts path =
          before.reverse ++ ['.', '.'] :: ((parts path).reverse.takeWhile stays).reverse := by
        simpa using (congrArg List.reverse whole).symm
      have names : names path = before.reverse.filter (· ≠ []) ++
          ['.', '.'] :: (((parts path).reverse.takeWhile stays).reverse).filter (· ≠ []) := by
        rw [Path.names, shape, List.filter_append, List.filter_cons_of_pos (by simp), ← shape]
      refine .inr ⟨before.reverse.filter (· ≠ []), ?_, _, names⟩
      rw [place, names, List.foldl_append, List.foldl_cons,
        foldl_step_of_stays fun part own => still part (List.mem_filter.mp own).1]
      rfl
    · cases split

/-- A path that ends with no name leads to the top or to a place on its way. -/
theorem mem_way_of_split_none (split : split? path = none) : place path = [] ∨ place path ∈ way path := by
  obtain top | ⟨before, up, still, names⟩ := place_of_split_none split
  · exact .inl top
  by_cases top : before.foldl step [] = []
  · rw [up, top]
    exact .inl rfl
  refine .inr ?_
  rw [way, names, wayFrom_append, up]
  refine List.mem_append_left _ (mem_wayFrom_of_begins (List.dropLast_prefix _) fun same => top ?_)
  exact List.length_eq_zero_iff.mp (by have := congrArg List.length same; simp at this; omega)

theorem stem_begins (name : List Char) : stem name <+: name := by
  unfold stem
  split
  · rename_i dot c before rest
    have tail : c :: before <:+ name.reverse :=
      (List.suffix_cons dot _).trans (rest ▸ List.dropWhile_suffix _)
    simpa using List.reverse_prefix.mpr tail
  · exact List.prefix_rfl

/-- A name with an extension is a name. -/
theorem extended_moves (before after : List Char) (some : after ≠ []) (dotless : '.' ∉ after) :
    stays (before ++ '.' :: after) = false ∧ before ++ '.' :: after ≠ ['.', '.'] := by
  obtain ⟨c, last, rfl⟩ : ∃ c last, after = last ++ [c] :=
    ⟨_, _, (List.dropLast_concat_getLast some).symm⟩
  have ends : c ≠ '.' := by
    rintro rfl
    exact dotless (by simp)
  have final : (before ++ '.' :: (last ++ [c])).getLast? = Option.some c := by
    rw [← List.cons_append, ← List.append_assoc, List.getLast?_concat]
  refine ⟨?_, fun same => ?_⟩
  · rw [stays, Bool.or_eq_false_iff]
    refine ⟨by simp, decide_eq_false fun same => ?_⟩
    rw [same] at final
    exact ends (Option.some.inj final).symm
  · rw [same] at final
    exact ends (Option.some.inj final).symm

/-- Where a path and the same path with another extension lead, and which ways they take. -/
structure Beside (path other : String) (folder : Place) (name otherName : List Char) : Prop where
  leads : place path = folder ++ [String.ofList name]
  otherLeads : place other = folder ++ [String.ofList otherName]
  passes : ∀ p, p ∈ way path → p ∈ way other ∨ p = place path

theorem beside_withExtension (split : split? path = some (folder, name)) (some : extension.toList ≠ [])
    (plain : ∀ c ∈ extension.toList, c ≠ '.' ∧ c ≠ '/') :
    Beside path (withExtension path extension) ((folder.filter (· ≠ [])).foldl step []) name
      (stem name ++ '.' :: extension.toList) := by
  obtain ⟨still, shape, stay, moves, down⟩ := parts_of_split split
  have moves' := extended_moves (stem name) extension.toList some fun dot => (plain _ dot).1 rfl
  have free : ∀ part ∈ folder ++ [stem name ++ '.' :: extension.toList], '/' ∉ part := by
    have own : ∀ part ∈ folder ++ name :: still, '/' ∉ part := fun part own =>
      notMem_of_mem_path (shape ▸ own)
    rw [List.forall_mem_append, List.forall_mem_singleton]
    refine ⟨fun part member => own part (List.mem_append_left _ member), fun slash => ?_⟩
    rcases List.mem_append.mp slash with slash | slash
    · exact own name (by simp) ((stem_begins name).subset slash)
    rcases List.mem_cons.mp slash with slash | slash
    · cases slash
    · exact (plain _ slash).2 rfl
  have parts' : parts (withExtension path extension) = folder ++ [stem name ++ '.' :: extension.toList] := by
    rw [withExtension, split]
    dsimp only
    rw [parts, String.toList_ofList, Text.parts_join (by simp) free]
  have something : name ≠ [] := by
    rintro rfl
    cases moves
  have names : names path = folder.filter (· ≠ []) ++ name :: still.filter (· ≠ []) := by
    rw [Path.names, shape, List.filter_append, List.filter_cons_of_pos (by simpa using something)]
  have names' : Path.names (withExtension path extension) =
      folder.filter (· ≠ []) ++ [stem name ++ '.' :: extension.toList] := by
    rw [Path.names, parts', List.filter_append, List.filter_cons_of_pos (by simp), List.filter_nil]
  have stay' : ∀ part ∈ still.filter (· ≠ []), stays part = true := fun part own =>
    stay part (List.mem_filter.mp own).1
  have place : place path = (folder.filter (· ≠ [])).foldl step [] ++ [String.ofList name] := by
    rw [Path.place, names, List.foldl_append, List.foldl_cons, foldl_step_of_stays stay',
      step_of_name moves down]
  refine ⟨place, ?_, fun p passed => ?_⟩
  · rw [Path.place, names', List.foldl_append, List.foldl_cons, List.foldl_nil,
      step_of_name moves'.1 moves'.2]
  · rw [way, names, wayFrom_append, wayFrom, step_of_name moves down, List.mem_append, List.mem_cons] at passed
    rw [way, names', wayFrom_append, place]
    obtain above | here | later := passed
    · exact .inl (List.mem_append_left _ above)
    · exact .inl (List.mem_append_right _ (by simp [wayFrom, here]))
    · exact .inr (eq_of_mem_wayFrom stay' later)

end ChangeFeed.Path
