import ChangeFeed.Proofs.Checkpoint.Crash

/-!
A store as a cell for one checkpoint. Main statement: whatever entries a volume has, and whatever is
asked of a store one after the other, a load gives what was saved last, as it is read, unless it was
deleted since; what fails changes nothing that a load can see, and no entry is touched but the file and its
draft.
-/
namespace ChangeFeed

open ChangeFeed.Path

namespace Text

/-- A text whose last part is empty ends with the mark. -/
theorem join_concat_nil {mark : Char} {ps : List (List Char)} (some : ps ≠ []) :
    ∃ front, join mark (ps ++ [[]]) = front ++ [mark] := by
  induction ps with
  | nil => exact absurd rfl some
  | cons p ps ih =>
    cases ps with
    | nil => exact ⟨p, rfl⟩
    | cons q qs =>
      obtain ⟨front, same⟩ := ih (by simp)
      exact ⟨p ++ mark :: front, by simpa [join] using same⟩

end Text

namespace Path

/-- Whether a path ends with a name, so that it can be the path of a file. -/
def namesFile (path : String) : Bool := !endsInSlash path && !endsInDots path

theorem split_of_namesFile {path : String} (named : namesFile path = true) :
    ∃ folder name, split? path = some (folder, name) ∧ parts path = folder ++ [name] := by
  rw [namesFile, Bool.and_eq_true, Bool.not_eq_true', Bool.not_eq_true'] at named
  obtain ⟨bare, down⟩ := named
  obtain ⟨folder, name, shape⟩ : ∃ folder name, parts path = folder ++ [name] :=
    ⟨_, _, (List.dropLast_concat_getLast (Text.parts_ne_nil '/' path.toList)).symm⟩
  have some : name ≠ [] := by
    rintro rfl
    have whole := Text.join_parts '/' path.toList
    rw [← parts, shape] at whole
    by_cases alone : folder = []
    · rw [endsInDots, names, shape, alone] at down
      cases down
    · obtain ⟨front, last⟩ : ∃ front, Text.join '/' (folder ++ [[]]) = front ++ ['/'] :=
        Text.join_concat_nil alone
      simp [endsInSlash, ← whole, last] at bare
  have names : Path.names path = folder.filter (· ≠ []) ++ [name] := by
    rw [Path.names, shape, List.filter_append]
    simp [some]
  rw [endsInDots, names, List.getLast?_concat, Option.all_some, Bool.or_eq_false_iff] at down
  refine ⟨folder, name, ?_, shape⟩
  rw [split?, shape, List.reverse_concat, List.dropWhile_cons_of_neg (by simp [down.1])]
  dsimp only
  rw [if_neg (of_decide_eq_false down.2), List.reverse_reverse]

end Path

namespace Volume

variable {v w : Volume} {p : Place} {path : String} {bytes : Bytes}

theorem get?_erase_self (some : p ≠ []) : (v.erase p).get? p = none := by
  simp [get?, erase, some, List.find?_filter]

/-- A file that has gone was no folder on the way to it. -/
theorem follow_erase (there : v.read path = .ok bytes) :
    (v.erase (place path)).follow path = .ok () := by
  obtain ⟨follows, -, own⟩ := read_eq_ok_iff.mp there
  rw [follow_eq_ok] at follows ⊢
  refine ⟨follows.1, fun p passed => ?_⟩
  rw [get?_erase_of_ne]
  · exact follows.2 p passed
  · rintro rfl
    rw [follows.2 _ passed] at own
    cases own

theorem place_ne_nil (there : v.read path = .ok bytes) : place path ≠ [] :=
  ne_nil_of_get? (by rw [(read_eq_ok_iff.mp there).2.2]; simp)

theorem hasEntry_erase (there : v.read path = .ok bytes) :
    (v.erase (place path)).hasEntry path = .ok false := by
  rw [hasEntry, find, follow_erase there]
  simp only [bind, Except.bind, get?_erase_self (place_ne_nil there)]

/-- A file can be moved to where it is. -/
theorem rename_self (named : namesFile path = true) (there : v.read path = .ok bytes) :
    ∃ w, v.perform (.rename path path) = .ok w := by
  rw [namesFile, Bool.and_eq_true, Bool.not_eq_true', Bool.not_eq_true'] at named
  refine ⟨(v.erase (place path)).insert (place path) (.file bytes), ?_⟩
  simp [perform, rename, there, (read_eq_ok_iff.mp there).1, named, write, follow_erase there,
    get?_erase_self (place_ne_nil there), bind, Except.bind]

end Volume

namespace Store

variable {s : Store} {c : Checkpoint} {v w : Volume} {result : Except Error Unit}

/-- How a save turns out: there is no draft, or it cannot take the place of the file, or it does. -/
inductive Saves (s : Store) (c : Checkpoint) (v : Volume) : Except Error Unit → Volume → Prop
  | refused {e} : v.perform (.create s.draft) = .error e → Saves s c v (.error (.io e)) v
  | stranded {u w e} : v.perform (.create s.draft) = .ok u →
      u.perform (.append s.draft c.toFile) = .ok w →
      w.perform (.rename s.draft s.path) = .error e → Saves s c v (.error (.io e)) w
  | done {u w x} : v.perform (.create s.draft) = .ok u →
      u.perform (.append s.draft c.toFile) = .ok w →
      w.perform (.rename s.draft s.path) = .ok x → Saves s c v (.ok ()) x

/-- How a deletion turns out. -/
inductive Deletes (s : Store) (v : Volume) : Except Error Unit → Volume → Prop
  | absent : v.hasEntry s.path = .ok false → Deletes s v (.ok ()) v
  | removed {bytes} : v.read s.path = .ok bytes → Deletes s v (.ok ()) (v.erase s.place)
  | failed {e} : Deletes s v (.error e) v

theorem performAll_cons (step : FileStep) (steps : List FileStep) (v : Volume) :
    (performAll (step :: steps) : StateM Volume _) v =
      match v.perform step with
      | .ok w => performAll (m := StateM Volume) steps w
      | .error e => (.error e, v) := by
  have perform : (FileSystem.perform step : StateM Volume _) v = Volume.modify (·.perform step) v := rfl
  simp only [performAll, bind, StateT.bind, perform, Volume.modify]
  cases v.perform step <;> rfl

theorem saves (s : Store) (c : Checkpoint) (v : Volume) :
    s.Saves c v (s.save (m := StateM Volume) c v).1 (s.save (m := StateM Volume) c v).2 := by
  have save : s.save (m := StateM Volume) c v =
      (((performAll (s.saveSteps c) : StateM Volume _) v).1.mapError .io,
        ((performAll (s.saveSteps c) : StateM Volume _) v).2) := rfl
  rw [save, saveSteps, performAll_cons]
  cases created : v.perform (.create s.draft) with
  | error e => exact .refused created
  | ok u =>
    obtain ⟨w, appended⟩ := Volume.append_of_create created c.toFile
    have synced : w.perform (.sync s.draft) = .ok w := rfl
    simp only [performAll_cons, appended, synced]
    cases renamed : w.perform (.rename s.draft s.path) with
    | error e => exact .stranded created appended renamed
    | ok x => exact .done created appended renamed

theorem deletes (s : Store) (v : Volume) :
    s.Deletes v (s.delete (m := StateM Volume) v).1 (s.delete (m := StateM Volume) v).2 := by
  have entry : (FileSystem.hasEntry s.path : StateM Volume _) v = (v.hasEntry s.path, v) := rfl
  have remove : (FileSystem.remove s.path : StateM Volume _) v = Volume.modify (·.remove s.path) v := rfl
  unfold delete
  simp only [bind, StateT.bind, entry]
  rcases there : v.hasEntry s.path with e | _ | _
  · exact .failed
  · exact .absent there
  · simp only [StateT.bind, remove, Volume.modify, Volume.remove]
    cases contents : v.read s.path with
    | error e => exact .failed
    | ok bytes => exact .removed contents

theorem load_snd (s : Store) (v : Volume) : (s.load (m := StateM Volume) v).2 = v := by
  have entry : (FileSystem.hasEntry s.path : StateM Volume _) v = (v.hasEntry s.path, v) := rfl
  have read : (FileSystem.read s.path : StateM Volume _) v = (v.read s.path, v) := rfl
  unfold load
  simp only [bind, StateT.bind, entry]
  rcases v.hasEntry s.path with e | _ | _
  · rfl
  · rfl
  · simp only [StateT.bind, read]
    cases v.read s.path <;> rfl

/-- A path with the extension of the draft is that of the draft. -/
theorem draft_eq_path (named : namesFile s.path = true) (own : hasExtension s.path "tmp" = true) :
    s.draft = s.path := by
  obtain ⟨folder, name, split, shape⟩ := split_of_namesFile named
  have extended : stem name ++ '.' :: "tmp".toList = name := by
    rw [hasExtension, split] at own
    exact (of_decide_eq_true own).symm
  rw [draft, withExtension, split]
  dsimp only
  rw [extended, ← shape, parts, Text.join_parts, String.ofList_toList]

theorem place_draft_ne (named : namesFile s.path = true) (other : s.draft ≠ s.path) :
    Path.place s.draft ≠ s.place := by
  obtain ⟨folder, name, split, shape⟩ := split_of_namesFile named
  obtain ⟨leads, otherLeads, -⟩ := beside_draft split
  intro same
  rw [place, leads, otherLeads] at same
  have extended := String.ofList_injective (List.cons.inj (List.append_cancel_left same)).1
  refine other (draft_eq_path named ?_)
  rw [hasExtension, split]
  exact decide_eq_true extended.symm

/-- A save that fails has left the file as it was. -/
theorem Saves.loadFrom_of_error {e : Error} (named : namesFile s.path = true)
    (saves : s.Saves c v (.error e) w) : s.loadFrom w = s.loadFrom v := by
  cases saves with
  | refused => rfl
  | stranded created appended stuck =>
    obtain ⟨follows, -, free, -⟩ := Volume.write_eq_ok created
    have full := Volume.read_of_append (Volume.read_of_write created) appended
    have other : hasExtension s.path "tmp" = false := by
      by_contra own
      rw [Bool.not_eq_false] at own
      rw [draft_eq_path named own] at stuck full
      obtain ⟨x, moved⟩ := Volume.rename_self named full
      rw [moved] at stuck
      cases stuck
    refine loadFrom_congr (find_of_begun other follows free fun p beside => ?_)
    exact ((Volume.get?_of_append appended).2 p beside).trans ((Volume.get?_of_create created).2 p beside)

theorem Saves.loadFrom_of_ok (saves : s.Saves c v (.ok ()) w) : s.loadFrom w = .ok (some c.asRead) := by
  cases saves with
  | done created appended renamed =>
    exact loadFrom_of_file (read_of_steps created appended renamed)

/-- A draft that has taken the place of the file is no longer beside it. -/
theorem Saves.draft_gone (saves : s.Saves c v (.ok ()) w) (beside : Path.place s.draft ≠ s.place) :
    w.get? (Path.place s.draft) = none := by
  cases saves with
  | done _ _ renamed =>
    obtain ⟨bytes, there, written⟩ := Volume.rename_eq_ok renamed
    rw [(Volume.get?_of_write written).2 _ beside, Volume.get?_erase_self (Volume.place_ne_nil there)]

theorem Saves.get?_of_ne {p : Place} (saves : s.Saves c v result w) (other : p ≠ s.place)
    (beside : p ≠ Path.place s.draft) : w.get? p = v.get? p := by
  cases saves with
  | refused => rfl
  | stranded created appended =>
    rw [(Volume.get?_of_append appended).2 p beside, (Volume.get?_of_create created).2 p beside]
  | done created appended renamed =>
    rw [(Volume.get?_of_rename renamed).2 p beside other, (Volume.get?_of_append appended).2 p beside,
      (Volume.get?_of_create created).2 p beside]

theorem Deletes.loadFrom_of_ok (deletes : s.Deletes v (.ok ()) w) : s.loadFrom w = .ok none := by
  cases deletes with
  | absent missing => rw [loadFrom_eq, missing]
  | removed there => rw [loadFrom_eq, place, Volume.hasEntry_erase there]

theorem Deletes.get?_of_ne {p : Place} (deletes : s.Deletes v result w) (other : p ≠ s.place) :
    w.get? p = v.get? p := by
  cases deletes with
  | absent | failed => rfl
  | removed => exact Volume.get?_erase_of_ne other

/-- What may be asked of a store. -/
inductive Request
  | save (c : Checkpoint)
  | load
  | delete
deriving DecidableEq

/-- A request with the volumes before and after it. Only a load is answered with a checkpoint. -/
structure Use where
  before : Volume
  request : Request
  answer : Except Error (Option Checkpoint)
  after : Volume

def answer (s : Store) : Request → StateM Volume (Except Error (Option Checkpoint))
  | .save c => return (← s.save c).map fun _ => none
  | .load => s.load
  | .delete => return (← s.delete).map fun _ => none

def use (s : Store) (v : Volume) (request : Request) : Use :=
  ⟨v, request, (s.answer request v).1, (s.answer request v).2⟩

/-- Requests one after the other, with nobody else at the volume. -/
def uses (s : Store) (v : Volume) : List Request → List Use
  | [] => []
  | request :: requests => s.use v request :: s.uses (s.use v request).after requests

/-- What a cell holds after a request, if it held `held` before. A checkpoint is held as it is read. -/
def Use.settle (held : Except Error (Option Checkpoint)) (u : Use) : Except Error (Option Checkpoint) :=
  match u.request, u.answer with
  | .save c, .ok _ => .ok (some c.asRead)
  | .delete, .ok _ => .ok none
  | _, _ => held

theorem Use.settle_of_error {u : Use} {e : Error} (failed : u.answer = .error e)
    (held : Except Error (Option Checkpoint)) : u.settle held = held := by
  rw [settle, failed]
  cases u.request <;> rfl

variable {p : Place}

theorem use_save (s : Store) (c : Checkpoint) (v : Volume) : ∃ result w, s.Saves c v result w ∧
    s.use v (.save c) = ⟨v, .save c, result.map fun _ => none, w⟩ :=
  ⟨_, _, s.saves c v, rfl⟩

theorem use_delete (s : Store) (v : Volume) : ∃ result w, s.Deletes v result w ∧
    s.use v .delete = ⟨v, .delete, result.map fun _ => none, w⟩ :=
  ⟨_, _, s.deletes v, rfl⟩

theorem use_load (s : Store) (v : Volume) : s.use v .load = ⟨v, .load, s.loadFrom v, v⟩ := by
  rw [use, answer, load_snd, loadFrom]

/-- What a load gives after a request is what the cell holds then. -/
theorem loadFrom_use (named : namesFile s.path = true) (v : Volume) (request : Request) :
    s.loadFrom (s.use v request).after = (s.use v request).settle (s.loadFrom v) := by
  cases request with
  | save c =>
    obtain ⟨result, w, saves, same⟩ := s.use_save c v
    rw [same]
    cases result with
    | error e => exact saves.loadFrom_of_error named
    | ok => exact saves.loadFrom_of_ok
  | load => rw [use_load]; rfl
  | delete =>
    obtain ⟨result, w, deletes, same⟩ := s.use_delete v
    rw [same]
    cases result with
    | error e => cases deletes; rfl
    | ok => exact deletes.loadFrom_of_ok

theorem get?_use (s : Store) (v : Volume) (request : Request) (other : p ≠ s.place)
    (beside : p ≠ Path.place s.draft) : (s.use v request).after.get? p = v.get? p := by
  cases request with
  | save c =>
    obtain ⟨result, w, saves, same⟩ := s.use_save c v
    rw [same]
    exact saves.get?_of_ne other beside
  | load => rw [use_load]
  | delete =>
    obtain ⟨result, w, deletes, same⟩ := s.use_delete v
    rw [same]
    exact deletes.get?_of_ne other

/-- Where in a list of requests a use stands, and what the uses before it have made of the volume. -/
theorem uses_split {requests : List Request} {earlier later : List Use} {u : Use}
    (named : namesFile s.path = true) (split : s.uses v requests = earlier ++ u :: later) :
    u = s.use u.before u.request ∧ s.loadFrom u.before = earlier.foldl Use.settle (s.loadFrom v) ∧
      ∀ p, p ≠ s.place → p ≠ Path.place s.draft → u.before.get? p = v.get? p := by
  induction earlier generalizing v requests with
  | nil =>
    cases requests with
    | nil => cases split
    | cons request requests =>
      obtain ⟨rfl, -⟩ := List.cons.inj split
      exact ⟨rfl, rfl, fun _ _ _ => rfl⟩
  | cons first earlier ih =>
    cases requests with
    | nil => cases split
    | cons request requests =>
      obtain ⟨rfl, rest⟩ := List.cons.inj split
      obtain ⟨own, held, others⟩ := ih rest
      refine ⟨own, ?_, fun p other beside => ?_⟩
      · rw [held, loadFrom_use named, List.foldl_cons]
      · rw [others p other beside, get?_use s v request other beside]

/-- A store whose path names a file is a cell for one checkpoint, whatever files and folders the volume
has: a load gives what was saved last, nothing after a deletion, and at first what the volume held. Only a
leap second that does not end a minute is not kept: the second after it is loaded in its place. What fails
leaves this as it was, a load changes nothing, a save that succeeds leaves no draft unless the draft is the
file itself, and all entries but these two stay as they were. -/
theorem is_cell (named : namesFile s.path = true) {requests : List Request} {earlier later : List Use}
    {u : Use} (split : s.uses v requests = earlier ++ u :: later) :
    s.loadFrom u.before = earlier.foldl Use.settle (s.loadFrom v) ∧
      s.loadFrom u.after = u.settle (s.loadFrom u.before) ∧
      (∀ c found, u.request = .save c → u.answer = .ok found →
        s.loadFrom u.after = .ok (some c.asRead) ∧ c.ReadAs c.asRead) ∧
      (∀ e, u.answer = .error e → s.loadFrom u.after = s.loadFrom u.before) ∧
      (u.request = .load → u.answer = s.loadFrom u.before ∧ u.after = u.before) ∧
      (∀ c found, u.request = .save c → u.answer = .ok found → s.draft ≠ s.path →
        u.after.get? (Path.place s.draft) = none) ∧
      ∀ p, p ≠ s.place → p ≠ Path.place s.draft → u.after.get? p = v.get? p := by
  obtain ⟨own, held, others⟩ := uses_split named split
  generalize u.before = b at *
  generalize u.request = r at *
  subst own
  have settled := loadFrom_use named b r
  refine ⟨held, settled, fun c found save done => ⟨?_, c.readAs_asRead⟩, fun e failed => ?_, fun load => ?_,
    fun c found save done other => ?_, fun p other beside => ?_⟩
  · subst save
    rw [settled, Use.settle, done]
    rfl
  · rw [settled, Use.settle_of_error failed]
  · subst load
    rw [use_load]
    exact ⟨rfl, rfl⟩
  · subst save
    obtain ⟨result, w, saves, same⟩ := s.use_save c b
    rw [same] at done ⊢
    cases result with
    | error e => cases done
    | ok => exact saves.draft_gone (place_draft_ne named other)
  · rw [get?_use s b r other beside, others p other beside]

/-- A checkpoint is saved where another one was, loaded, deleted and looked for again. -/
theorem is_cell_of_json :
    let s : Store := ⟨"checkpoint.json"⟩
    let saving := s.use (keeping "checkpoint.json") (.save later)
    let loading := s.use saving.after .load
    let deleting := s.use loading.after .delete
    let missing := s.use deleting.after .load
    namesFile s.path = true ∧
      s.uses (keeping "checkpoint.json") [.save later, .load, .delete, .load] =
        [saving, loading, deleting, missing] ∧
      loading.answer = .ok (some later) ∧ missing.answer = .ok none ∧
      saving.after.get? (Path.place s.draft) = none := by
  intro s saving loading deleting missing
  have named : namesFile s.path = true := by decide +kernel
  let told := s.uses (keeping "checkpoint.json") [.save later, .load, .delete, .load]
  have atSave : told = [] ++ saving :: [loading, deleting, missing] := rfl
  have atLoad : told = [saving] ++ loading :: [deleting, missing] := rfl
  have atMissing : told = [saving, loading, deleting] ++ missing :: [] := rfl
  have saved : saving.answer = .ok none := by decide +kernel
  obtain ⟨_, -, -, -, -, gone, -⟩ := is_cell named atSave
  obtain ⟨held, -, -, -, loads, -⟩ := is_cell named atLoad
  obtain ⟨empty, -, -, -, again, -⟩ := is_cell named atMissing
  have foundLater : [saving].foldl Use.settle (s.loadFrom (keeping "checkpoint.json")) = .ok (some later) := by
    decide +kernel
  have foundNone : [saving, loading, deleting].foldl Use.settle (s.loadFrom (keeping "checkpoint.json")) =
      .ok none := by
    decide +kernel
  exact ⟨named, atSave, by rw [(loads rfl).1, held, foundLater], by rw [(again rfl).1, empty, foundNone],
    gone later none rfl saved (by decide)⟩

/-- A leap second in the middle of a minute is saved, and the second after it is loaded. -/
theorem leap_second_moves_in_cell :
    let s : Store := ⟨"checkpoint.json"⟩
    let leap : Checkpoint := ⟨⟨1, by decide⟩, ⟨30, 1500000000, by decide⟩⟩
    let next : Checkpoint := ⟨⟨1, by decide⟩, ⟨31, 500000000, by decide⟩⟩
    let saving := s.use (keeping "checkpoint.json") (.save leap)
    saving.answer = .ok none ∧ (s.use saving.after .load).answer = .ok (some next) ∧ leap ≠ next := by
  intro s leap next saving
  have saved : saving.answer = .ok none := by decide +kernel
  have held := loadFrom_use (s := s) (by decide +kernel) (keeping "checkpoint.json") (.save leap)
  have same : leap.asRead = next := by decide
  refine ⟨saved, ?_, by decide⟩
  rw [use_load, held, Use.settle, saved]
  exact congrArg (Except.ok ∘ some) same

end Store

end ChangeFeed
