import ChangeFeed.Proofs.Checkpoint.Path
import ChangeFeed.Proofs.Checkpoint.Saving
import ChangeFeed.Proofs.Checkpoint.Text

/-!
Saves that fail or are cut off. Main statements: where the file has not the extension of the draft, it is
what it was or the new checkpoint at every moment of a save, so a load after a save that was cut off
anywhere gives what it gave before or the new checkpoint; where it has, a save that is cut off when it has
only begun leaves nothing that can be loaded.
-/
namespace ChangeFeed

open ChangeFeed.Path

namespace Volume

variable {v w : Volume} {path : String}

/-- Steps that are cut off anywhere, also in the middle of adding to a file, leave `w` of a volume. -/
inductive Cut : Volume → List FileStep → Volume → Prop
  | here {v : Volume} {steps} : Cut v steps v
  | torn {v w : Volume} {path bytes n steps} : v.perform (.append path (bytes.take n)) = .ok w →
      Cut v (.append path bytes :: steps) w
  | next {v u w : Volume} {step steps} : v.perform step = .ok u → Cut u steps w → Cut v (step :: steps) w

/-- Steps that are cut off are attempts on a medium that may fail at all of them. -/
theorem Cut.attempts {steps : List FileStep} (cut : Cut v steps w) :
    ∃ result seen, Attempts (fun _ => True) v steps result seen w := by
  induction cut with
  | @here v steps =>
    cases steps with
    | nil => exact ⟨_, _, .nil⟩
    | cons => exact ⟨.error .notFound, _, .stop (.broken trivial)⟩
  | torn torn => exact ⟨.error .notFound, _, .stop (.torn trivial torn)⟩
  | next done _ ih =>
    obtain ⟨result, seen, attempts⟩ := ih
    exact ⟨result, _, .next (.done done) attempts⟩

/-- What a path leads to depends on the places on its way and on that at its end. -/
theorem find_congr (passed : ∀ p ∈ way path, w.get? p = v.get? p)
    (reached : w.get? (place path) = v.get? (place path)) : w.find path = v.find path := by
  have pass (ps : List Place) (same : ∀ p ∈ ps, w.get? p = v.get? p) : w.pass ps = v.pass ps := by
    induction ps with
    | nil => rfl
    | cons p ps ih =>
      obtain ⟨first, others⟩ := List.forall_mem_cons.mp same
      rw [Volume.pass, Volume.pass, first, ih others]
  have follow : w.follow path = v.follow path := by rw [Volume.follow, Volume.follow, pass _ passed]
  rw [find, find, follow, reached]

/-- A path whose way is all there is followed, or meets a file. -/
theorem find_ne_notFound (something : path ≠ "") (passed : ∀ p ∈ way path, v.get? p ≠ none)
    (reached : v.get? (place path) ≠ none) : v.find path ≠ .error .notFound := by
  have pass (ps : List Place) (there : ∀ p ∈ ps, v.get? p ≠ none) : v.pass ps ≠ .error .notFound := by
    induction ps with
    | nil => simp [Volume.pass]
    | cons p ps ih =>
      obtain ⟨first, others⟩ := List.forall_mem_cons.mp there
      rw [Volume.pass]
      cases found : v.get? p with
      | none => exact absurd found first
      | some entry =>
        cases entry with
        | file => simp
        | folder => exact ih others
  have follow : v.follow path ≠ .error .notFound := by
    rw [Volume.follow, if_neg something]
    exact pass _ passed
  unfold find
  cases followed : v.follow path with
  | error e =>
    intro same
    exact follow (followed.trans (by cases same; rfl))
  | ok =>
    cases found : v.get? (place path) with
    | none => exact absurd found reached
    | some entry =>
      cases entry with
      | file =>
        simp only [bind, Except.bind]
        split <;> simp
      | folder => simp [bind, Except.bind]

theorem hasEntry_of_failure {e : IoFault} (failed : v.find path = .error e) (other : e ≠ .notFound) :
    v.hasEntry path = .error e := by
  rw [hasEntry, failed]
  cases e with
  | notFound => exact absurd rfl other
  | _ => rfl

end Volume

namespace Store

variable {s : Store} {c : Checkpoint} {v w : Volume} {found : Option Checkpoint}

/-- What a load from a volume gives. -/
def loadFrom (s : Store) (v : Volume) : Except Error (Option Checkpoint) := (s.load (m := StateM Volume) v).1

theorem loadFrom_eq : s.loadFrom v =
    match v.hasEntry s.path with
    | .error e => .error (.io e)
    | .ok false => .ok none
    | .ok true =>
      match v.read s.path with
      | .error e => .error (.io e)
      | .ok bytes => (Checkpoint.ofFile bytes).map some := by
  have entry : (FileSystem.hasEntry s.path : StateM Volume _) v = (v.hasEntry s.path, v) := rfl
  have read : (FileSystem.read s.path : StateM Volume _) v = (v.read s.path, v) := rfl
  unfold loadFrom load
  simp only [bind, StateT.bind, entry]
  rcases v.hasEntry s.path with e | _ | _
  · rfl
  · rfl
  · simp only [StateT.bind, read]
    cases v.read s.path <;> rfl

theorem loadFrom_of_read {bytes : Bytes} (file : v.read s.path = .ok bytes) :
    s.loadFrom v = (Checkpoint.ofFile bytes).map some := by
  rw [loadFrom_eq, Volume.hasEntry_of_read file, file]

theorem loadFrom_of_file (file : v.read s.path = .ok c.toFile) : s.loadFrom v = .ok (some c.asRead) := by
  rw [loadFrom_of_read file, Checkpoint.ofFile_toFile]
  rfl

theorem loadFrom_congr (same : w.find s.path = v.find s.path) : s.loadFrom w = s.loadFrom v := by
  rw [loadFrom_eq, loadFrom_eq, Volume.hasEntry, Volume.read, same]
  rfl

theorem beside_draft {folder : List (List Char)} {name : List Char}
    (split : split? s.path = some (folder, name)) :
    Beside s.path s.draft ((folder.filter (· ≠ [])).foldl step []) name
      (stem name ++ '.' :: "tmp".toList) :=
  beside_withExtension split (by simp) (by simp)

/-- A draft that has a place of its own can be touched without a difference to the file. -/
theorem find_of_begun (other : hasExtension s.path "tmp" = false) (follows : v.follow s.draft = .ok ())
    (free : v.get? (Path.place s.draft) ≠ some .folder)
    (beside : ∀ p, p ≠ Path.place s.draft → w.get? p = v.get? p) : w.find s.path = v.find s.path := by
  cases split : split? s.path with
  | none =>
    -- A path that ends with no name is its own draft, and names a folder.
    have same : s.draft = s.path := by rw [draft, withExtension, split]
    rw [same] at follows free
    rcases mem_way_of_split_none split with top | passed
    · rw [top] at free
      exact absurd rfl free
    · exact absurd ((Volume.follow_eq_ok.mp follows).2 _ passed) free
  | some found =>
    obtain ⟨folder, name⟩ := found
    obtain ⟨leads, otherLeads, passes⟩ := beside_draft split
    have own : Path.place s.path ≠ Path.place s.draft := by
      rw [leads, otherLeads]
      intro same
      have extended := String.ofList_injective (List.cons.inj (List.append_cancel_left same)).1
      rw [hasExtension, split] at other
      exact of_decide_eq_false other extended
    refine Volume.find_congr (fun p passed => beside p ?_) (beside _ own)
    rintro rfl
    rcases passes _ passed with passed | here
    · exact free ((Volume.follow_eq_ok.mp follows).2 _ passed)
    · exact own here.symm

/-- A save with a draft of its own makes no difference to the file until it puts the checkpoint in its
place, and this is the last that it does. -/
theorem saves_beside (other : hasExtension s.path "tmp" = false) {faulty : FileStep → Prop}
    {result : Except IoFault Unit} {seen : List Volume} {last : Volume}
    (attempts : Volume.Attempts faulty v (s.saveSteps c) result seen last) :
    (∀ w ∈ last :: seen, w.find s.path = v.find s.path ∨ w.read s.path = .ok c.toFile) ∧
      (result = .ok () ∧ last.read s.path = .ok c.toFile ∨
        (∃ e, result = .error e) ∧ last.find s.path = v.find s.path) := by
  cases attempts with
  | stop create =>
    cases create.eq_of_error nofun
    exact ⟨by simp, .inr ⟨⟨_, rfl⟩, rfl⟩⟩
  | next create attempts =>
    cases create with
    | done created =>
      obtain ⟨follows, -, free, -⟩ := Volume.write_eq_ok created
      have one := (Volume.get?_of_create created).2
      have begun := find_of_begun other follows free one
      cases attempts with
      | stop append =>
        have two := find_of_begun other follows free fun p beside =>
          (get?_of_draft append (.inr (.inl ⟨_, rfl⟩)) beside).trans (one p beside)
        exact ⟨by simp [begun, two], .inr ⟨⟨_, rfl⟩, two⟩⟩
      | next append attempts =>
        have two := find_of_begun other follows free fun p beside =>
          (get?_of_draft append (.inr (.inl ⟨_, rfl⟩)) beside).trans (one p beside)
        cases append with
        | done appended =>
          cases attempts with
          | stop sync =>
            cases sync.eq_of_sync
            exact ⟨by simp [begun, two], .inr ⟨⟨_, rfl⟩, two⟩⟩
          | next sync attempts =>
            cases sync.eq_of_sync
            cases attempts with
            | stop rename =>
              cases rename.eq_of_error nofun
              exact ⟨by simp [begun, two], .inr ⟨⟨_, rfl⟩, two⟩⟩
            | next rename attempts =>
              cases attempts
              cases rename with
              | done renamed =>
                have saved := read_of_steps created appended renamed
                exact ⟨by simp [begun, two, saved], .inl ⟨rfl, saved⟩⟩

/-- A load after a save that was cut off gives what it gave before, or the new checkpoint, which is the
very one that was saved unless its time is a leap second that does not end a minute. -/
theorem loadFrom_of_cut (other : hasExtension s.path "tmp" = false) (before : s.loadFrom v = .ok found)
    (cut : Volume.Cut v (s.saveSteps c) w) :
    (s.loadFrom w = .ok found ∨ s.loadFrom w = .ok (some c.asRead)) ∧ c.ReadAs c.asRead := by
  refine ⟨?_, c.readAs_asRead⟩
  obtain ⟨result, seen, attempts⟩ := cut.attempts
  rcases (saves_beside other attempts).1 w List.mem_cons_self with same | file
  · exact .inl ((loadFrom_congr same).trans before)
  · exact .inr (loadFrom_of_file file)

/-- The top folder with nothing but a checkpoint in it, at position zero. -/
def keeping (name : String) : Volume := ⟨[([name], .file (default : Checkpoint).toFile)]⟩

def later : Checkpoint := ⟨⟨1, by decide⟩, .epoch⟩

theorem loadFrom_keeping {name : String} (file : (keeping name).read name = .ok (default : Checkpoint).toFile) :
    loadFrom ⟨name⟩ (keeping name) = .ok (some default) :=
  loadFrom_of_file (s := ⟨name⟩) file

theorem loadFrom_of_cut_json :
    hasExtension "checkpoint.json" "tmp" = false ∧
      loadFrom ⟨"checkpoint.json"⟩ (keeping "checkpoint.json") = .ok (some default) ∧
      ∃ w, Volume.Cut (keeping "checkpoint.json") (saveSteps ⟨"checkpoint.json"⟩ later) w ∧
        w.read "checkpoint.tmp" = .ok (later.toFile.take 7) ∧
        (loadFrom ⟨"checkpoint.json"⟩ w = .ok (some default) ∨
          loadFrom ⟨"checkpoint.json"⟩ w = .ok (some later)) := by
  have other : hasExtension "checkpoint.json" "tmp" = false := by decide +kernel
  have before : loadFrom ⟨"checkpoint.json"⟩ (keeping "checkpoint.json") = .ok (some default) :=
    loadFrom_keeping (by decide +kernel)
  have cut : Volume.Cut (keeping "checkpoint.json") (saveSteps ⟨"checkpoint.json"⟩ later)
      ((keeping "checkpoint.json").insert ["checkpoint.tmp"] (.file (later.toFile.take 7))) :=
    .next (u := (keeping "checkpoint.json").insert ["checkpoint.tmp"] (.file [])) (by decide +kernel)
      (.torn (n := 7) (by decide +kernel))
  exact ⟨other, before, _, cut, by decide +kernel, (loadFrom_of_cut other before cut).1⟩

/-- An empty file is no checkpoint. -/
theorem loadFrom_of_empty (empty : w.get? (Path.place s.path) = some (.file []))
    (found : w.find s.path ≠ .error .notFound) : ∃ e, s.loadFrom w = .error e := by
  cases entry : w.find s.path with
  | error e =>
    rw [loadFrom_eq, Volume.hasEntry_of_failure entry fun missing => found (missing ▸ entry)]
    exact ⟨_, rfl⟩
  | ok =>
    have there : w.hasEntry s.path = .ok true := by rw [Volume.hasEntry, entry]
    rw [loadFrom_eq, there]
    cases contents : w.read s.path with
    | error e => exact ⟨_, rfl⟩
    | ok bytes =>
      have nothing := (Volume.read_eq_ok_iff.mp contents).2.2
      rw [empty] at nothing
      cases nothing
      have refused : (Checkpoint.ofFile []).toOption = none := by decide +kernel
      dsimp only
      cases read : Checkpoint.ofFile [] with
      | error e => exact ⟨e, rfl⟩
      | ok => rw [read] at refused; cases refused

theorem exists_split_of_hasExtension (own : hasExtension s.path "tmp" = true) :
    ∃ folder name, split? s.path = some (folder, name) ∧ name = stem name ++ '.' :: "tmp".toList := by
  cases split : split? s.path with
  | none =>
    rw [hasExtension, split] at own
    cases own
  | some found =>
    rw [hasExtension, split] at own
    exact ⟨found.1, found.2, rfl, of_decide_eq_true own⟩

/-- A draft with the extension that the file has already is the file itself. -/
theorem inPlace_of_hasExtension (own : hasExtension s.path "tmp" = true) : s.InPlace := by
  obtain ⟨folder, name, split, extended⟩ := exists_split_of_hasExtension own
  obtain ⟨leads, otherLeads, -⟩ := beside_draft split
  rw [InPlace, place, leads, otherLeads, ← extended]

/-- A draft that is the file itself has taken its place when the save has only begun. -/
theorem loadFrom_of_create (own : hasExtension s.path "tmp" = true)
    (created : v.perform (.create s.draft) = .ok w) : ∃ e, s.loadFrom w = .error e := by
  have same : Path.place s.draft = Path.place s.path := inPlace_of_hasExtension own
  obtain ⟨folder, name, split, -⟩ := exists_split_of_hasExtension own
  obtain ⟨-, -, passes⟩ := beside_draft split
  obtain ⟨follows, -, other, -⟩ := Volume.write_eq_ok created
  obtain ⟨empty, beside⟩ := Volume.get?_of_create created
  rw [same] at empty
  have something : s.path ≠ "" := by
    rintro nothing
    rw [nothing] at split
    cases split
  refine loadFrom_of_empty empty (Volume.find_ne_notFound something (fun p passed => ?_) (by simp [empty]))
  rcases passes p passed with passed | rfl
  · have folder := (Volume.follow_eq_ok.mp follows).2 p passed
    rw [beside p fun here => other (here ▸ folder), folder]
    simp
  · simp [empty]

/-- A checkpoint is lost that was kept in a file with the extension of the draft. -/
theorem checkpoint_lost_by_cut :
    loadFrom ⟨"checkpoint.tmp"⟩ (keeping "checkpoint.tmp") = .ok (some default) ∧
      ∃ w, Volume.Cut (keeping "checkpoint.tmp") (saveSteps ⟨"checkpoint.tmp"⟩ later) w ∧
        ∃ e, loadFrom ⟨"checkpoint.tmp"⟩ w = .error e := by
  have created : (keeping "checkpoint.tmp").perform (.create (draft ⟨"checkpoint.tmp"⟩)) =
      .ok ⟨[(["checkpoint.tmp"], .file [])]⟩ := by decide +kernel
  exact ⟨loadFrom_keeping (by decide +kernel), _, .next created .here,
    loadFrom_of_create (by decide +kernel) created⟩

end Store

end ChangeFeed
