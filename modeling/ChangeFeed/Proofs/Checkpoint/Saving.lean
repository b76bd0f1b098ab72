import ChangeFeed.Checkpoint.Volume

/-!
What a save does to a volume, on a medium on which steps may fail. Main statement: a save into the file
itself leaves the beginning of the checkpoint there, and all of it at the end unless adding to the file
fails.
-/
namespace ChangeFeed

open ChangeFeed.Path

theorem except_bind_eq_ok {ε α β : Type} {x : Except ε α} {f : α → Except ε β} {b : β}
    (run : (x >>= f) = .ok b) : ∃ a, x = .ok a ∧ f a = .ok b := by
  cases x with
  | error => cases run
  | ok a => exact ⟨a, rfl, run⟩

namespace Volume

variable {v w : Volume} {p q : Place} {e : Entry} {path target : String} {bytes : Bytes}

theorem get?_erase_of_ne (h : p ≠ q) : (v.erase q).get? p = v.get? p := by
  unfold get? erase
  split
  · rfl
  · rw [List.find?_filter]
    congr 2
    funext entry
    by_cases same : entry.1 = p <;> simp [same, h]

theorem get?_insert_of_ne (h : p ≠ q) : (v.insert q e).get? p = v.get? p := by
  rw [← get?_erase_of_ne (v := v) h]
  simp [get?, insert, Ne.symm h]

theorem get?_insert_self (h : p ≠ []) : (v.insert p e).get? p = some e := by
  simp [get?, insert, h]

theorem pass_eq_ok {ps : List Place} : v.pass ps = .ok () ↔ ∀ p ∈ ps, v.get? p = some .folder := by
  induction ps with
  | nil => simp [pass]
  | cons p ps ih =>
    rw [pass, List.forall_mem_cons]
    rcases v.get? p with _ | bytes | _
    · simp
    · simp
    · simpa using ih

theorem follow_eq_ok :
    v.follow path = .ok () ↔ path ≠ "" ∧ ∀ p ∈ way path, v.get? p = some .folder := by
  unfold follow
  split
  · rename_i nothing; simp [nothing]
  · rename_i something; rw [pass_eq_ok]; simp [something]

/-- A file is written only where no folder is, in a folder that is there. -/
theorem write_eq_ok (h : v.write path bytes = .ok w) :
    v.follow path = .ok () ∧ endsInSlash path = false ∧ v.get? (place path) ≠ some .folder ∧
      w = v.insert (place path) (.file bytes) := by
  obtain ⟨_, follows, rest⟩ := except_bind_eq_ok h
  split at rest
  · cases rest
  · rename_i fits
    rw [not_or, Bool.not_eq_true] at fits
    cases rest
    exact ⟨follows, fits.1, fits.2, rfl⟩

theorem ne_nil_of_get? (other : v.get? p ≠ some .folder) : p ≠ [] := by
  rintro rfl
  exact other rfl

theorem read_eq_ok_iff : v.read path = .ok bytes ↔
    v.follow path = .ok () ∧ endsInSlash path = false ∧ v.get? (place path) = some (.file bytes) := by
  unfold read find
  cases v.follow path with
  | error e => simp [bind, Except.bind]
  | ok =>
    rcases v.get? (place path) with _ | _ | _ <;> cases endsInSlash path <;> simp [bind, Except.bind]

theorem get?_of_write (h : v.write path bytes = .ok w) :
    w.get? (place path) = some (.file bytes) ∧ ∀ p, p ≠ place path → w.get? p = v.get? p := by
  obtain ⟨-, -, other, rfl⟩ := write_eq_ok h
  exact ⟨get?_insert_self (ne_nil_of_get? other), fun p other => get?_insert_of_ne other⟩

theorem get?_of_create (h : v.perform (.create path) = .ok w) :
    w.get? (place path) = some (.file []) ∧ ∀ p, p ≠ place path → w.get? p = v.get? p :=
  get?_of_write h

theorem get?_of_append (h : v.perform (.append path bytes) = .ok w) :
    (∃ old, v.get? (place path) = some (.file old) ∧
      w.get? (place path) = some (.file (old ++ bytes))) ∧
      ∀ p, p ≠ place path → w.get? p = v.get? p := by
  obtain ⟨old, before, written⟩ := except_bind_eq_ok h
  obtain ⟨own, others⟩ := get?_of_write written
  exact ⟨⟨old, (read_eq_ok_iff.mp before).2.2, own⟩, others⟩

/-- A file that is moved is written at its new path when it has gone from the old one. -/
theorem rename_eq_ok (h : v.rename path target = .ok w) :
    ∃ bytes, v.read path = .ok bytes ∧ (v.erase (place path)).write target bytes = .ok w := by
  obtain ⟨bytes, before, rest⟩ := except_bind_eq_ok h
  obtain ⟨_, -, rest⟩ := except_bind_eq_ok rest
  split at rest
  · cases rest
  split at rest
  · cases rest
  · exact ⟨bytes, before, rest⟩

theorem get?_of_rename (h : v.perform (.rename path target) = .ok w) :
    (∃ bytes, v.get? (place path) = some (.file bytes) ∧
      w.get? (place target) = some (.file bytes)) ∧
      ∀ p, p ≠ place path → p ≠ place target → w.get? p = v.get? p := by
  obtain ⟨bytes, before, written⟩ := rename_eq_ok h
  obtain ⟨own, others⟩ := get?_of_write written
  exact ⟨⟨bytes, (read_eq_ok_iff.mp before).2.2, own⟩, fun p one other =>
    (others p other).trans (get?_erase_of_ne one)⟩

/-- What is written is no folder on the way to it. -/
theorem follow_insert (follows : v.follow path = .ok ()) (other : v.get? (place path) ≠ some .folder) :
    (v.insert (place path) e).follow path = .ok () := by
  rw [follow_eq_ok] at follows ⊢
  refine ⟨follows.1, fun p passed => ?_⟩
  rw [get?_insert_of_ne]
  · exact follows.2 p passed
  · rintro rfl
    exact other (follows.2 _ passed)

theorem read_of_write (written : v.write path bytes = .ok w) : w.read path = .ok bytes := by
  obtain ⟨follows, bare, other, rfl⟩ := write_eq_ok written
  exact read_eq_ok_iff.mpr ⟨follow_insert follows other, bare, get?_insert_self (ne_nil_of_get? other)⟩

theorem read_of_append {old : Bytes} (before : v.read path = .ok old)
    (appended : v.perform (.append path bytes) = .ok w) : w.read path = .ok (old ++ bytes) := by
  rw [perform, before] at appended
  exact read_of_write appended

theorem read_of_rename (before : v.read path = .ok bytes)
    (renamed : v.perform (.rename path target) = .ok w) : w.read target = .ok bytes := by
  obtain ⟨found, there, written⟩ := rename_eq_ok renamed
  cases before.symm.trans there
  exact read_of_write written

theorem hasEntry_of_read (there : v.read path = .ok bytes) : v.hasEntry path = .ok true := by
  obtain ⟨found, entry, -⟩ := except_bind_eq_ok there
  rw [hasEntry, entry]

theorem append_of_create (h : v.perform (.create path) = .ok w) (bytes : Bytes) :
    ∃ u, w.perform (.append path bytes) = .ok u := by
  have before : w.read path = .ok [] := read_of_write h
  obtain ⟨follows, bare, own⟩ := read_eq_ok_iff.mp before
  refine ⟨w.insert (place path) (.file bytes), ?_⟩
  rw [perform, before]
  simp [write, follows, bare, own, bind, Except.bind]

/-- A step on a medium that may fail at the steps in `faulty`, also in the middle of adding to a file. -/
inductive Attempt (faulty : FileStep → Prop) (v : Volume) :
    FileStep → Except IoFault Unit → Volume → Prop
  | done {step w} : v.perform step = .ok w → Attempt faulty v step (.ok ()) w
  | refused {step e} : v.perform step = .error e → Attempt faulty v step (.error e) v
  | broken {step e} : faulty step → Attempt faulty v step (.error e) v
  | torn {path bytes n e w} : faulty (.append path bytes) →
      v.perform (.append path (bytes.take n)) = .ok w →
      Attempt faulty v (.append path bytes) (.error e) w

/-- Steps up to the first that fails, with the volumes after each of them. -/
inductive Attempts (faulty : FileStep → Prop) :
    Volume → List FileStep → Except IoFault Unit → List Volume → Volume → Prop
  | nil {v : Volume} : Attempts faulty v [] (.ok ()) [] v
  | stop {v : Volume} {step steps e w} : Attempt faulty v step (.error e) w →
      Attempts faulty v (step :: steps) (.error e) [w] w
  | next {v : Volume} {step w steps result seen last} : Attempt faulty v step (.ok ()) w →
      Attempts faulty w steps result seen last →
      Attempts faulty v (step :: steps) result (w :: seen) last

theorem Attempt.eq_of_error {faulty : FileStep → Prop} {v w : Volume} {step : FileStep} {e : IoFault}
    (attempt : Attempt faulty v step (.error e) w) (whole : ∀ path bytes, step ≠ .append path bytes) :
    w = v := by
  cases attempt with
  | refused | broken => rfl
  | torn => exact absurd rfl (whole _ _)

theorem Attempt.eq_of_sync {faulty : FileStep → Prop} {v w : Volume} {path : String}
    {result : Except IoFault Unit} (attempt : Attempt faulty v (.sync path) result w) : w = v := by
  cases attempt with
  | done h => cases h; rfl
  | refused | broken => rfl

end Volume

namespace Store

variable {faulty : FileStep → Prop} {v w last : Volume} {seen : List Volume}
  {result : Except IoFault Unit} {s : Store} {c : Checkpoint}

def place (s : Store) : Place := Path.place s.path

/-- Whether a save writes into the file itself. -/
def InPlace (s : Store) : Prop := Path.place s.draft = s.place

/-- The file holds what it held in `v`, or so much of the checkpoint as `Part` says. -/
def Kept (s : Store) (Part : Bytes → Bytes → Prop) (v : Volume) (c : Checkpoint) (w : Volume) : Prop :=
  w.get? s.place = v.get? s.place ∨
    ∃ bytes, Part bytes c.toFile ∧ w.get? s.place = some (.file bytes)

/-- After all its steps a save has put the checkpoint into the file. -/
theorem read_of_steps {u x : Volume} (created : v.perform (.create s.draft) = .ok u)
    (appended : u.perform (.append s.draft c.toFile) = .ok w)
    (renamed : w.perform (.rename s.draft s.path) = .ok x) : x.read s.path = .ok c.toFile :=
  Volume.read_of_rename (Volume.read_of_append (Volume.read_of_write created) appended) renamed

/-- What happens to the draft alone touches no other place. -/
theorem get?_of_draft {step : FileStep} {outcome : Except IoFault Unit}
    (attempt : Volume.Attempt faulty v step outcome w)
    (draft : step = .create s.draft ∨ (∃ bytes, step = .append s.draft bytes) ∨ step = .sync s.draft)
    {p : Place} (beside : p ≠ Path.place s.draft) : w.get? p = v.get? p := by
  cases attempt with
  | done h =>
    rcases draft with rfl | ⟨bytes, rfl⟩ | rfl
    · exact (Volume.get?_of_create h).2 _ beside
    · exact (Volume.get?_of_append h).2 _ beside
    · cases h; rfl
  | refused | broken => rfl
  | torn _ h =>
    rcases draft with draft | ⟨bytes, draft⟩ | draft <;> cases draft
    exact (Volume.get?_of_append h).2 _ beside

theorem draft_complete {u : Volume} (create : Volume.Attempt faulty v (.create s.draft) (.ok ()) u)
    (append : Volume.Attempt faulty u (.append s.draft c.toFile) (.ok ()) w) :
    w.get? (Path.place s.draft) = some (.file c.toFile) := by
  cases create with
  | done create =>
    cases append with
    | done append =>
      obtain ⟨⟨old, before, after⟩, -⟩ := Volume.get?_of_append append
      rw [(Volume.get?_of_create create).1] at before
      cases before
      exact after

theorem rename_complete (full : v.get? (Path.place s.draft) = some (.file c.toFile))
    (rename : Volume.Attempt faulty v (.rename s.draft s.path) (.ok ()) w) :
    w.get? s.place = some (.file c.toFile) := by
  cases rename with
  | done rename =>
    obtain ⟨⟨bytes, before, after⟩, -⟩ := Volume.get?_of_rename rename
    rw [full] at before
    cases before
    exact after

theorem begun_of_append (inPlace : s.InPlace) (empty : v.get? s.place = some (.file []))
    (append : Volume.Attempt faulty v (.append s.draft c.toFile) result w) :
    ∃ bytes, bytes <+: c.toFile ∧ w.get? s.place = some (.file bytes) := by
  have added {bytes : Bytes} (h : v.perform (.append s.draft bytes) = .ok w) :
      w.get? s.place = some (.file bytes) := by
    obtain ⟨⟨old, before, after⟩, -⟩ := Volume.get?_of_append h
    rw [inPlace, empty] at before
    cases before
    rwa [inPlace] at after
  cases append with
  | done h => exact ⟨_, List.prefix_rfl, added h⟩
  | refused | broken => exact ⟨[], List.nil_prefix, empty⟩
  | torn _ h => exact ⟨_, List.take_prefix .., added h⟩

/-- A save into the file itself leaves the beginning of the checkpoint there, and all of it at the end
unless adding to the file fails. -/
theorem saves_in_place (inPlace : s.InPlace)
    (attempts : Volume.Attempts faulty v (s.saveSteps c) result seen last) :
    (∀ w ∈ last :: seen, s.Kept (· <+: ·) v c w) ∧
      ((∀ path bytes, ¬ faulty (.append path bytes)) → s.Kept (· = ·) v c last) := by
  cases attempts with
  | stop create =>
    cases create.eq_of_error nofun
    exact ⟨by simp [Kept], fun _ => Or.inl rfl⟩
  | @next _ _ u _ _ _ _ create attempts =>
    have empty : u.get? s.place = some (.file []) := by
      cases create with
      | done create => exact inPlace ▸ (Volume.get?_of_create create).1
    have one : s.Kept (· <+: ·) v c u := Or.inr ⟨[], List.nil_prefix, empty⟩
    cases attempts with
    | stop append =>
      have two : s.Kept (· <+: ·) v c last := Or.inr (begun_of_append inPlace empty append)
      refine ⟨by simp [one, two], fun sound => ?_⟩
      cases create with
      | done create =>
        obtain ⟨_, added⟩ := Volume.append_of_create create c.toFile
        cases append with
        | refused h => rw [added] at h; cases h
        | broken h => exact absurd h (sound _ _)
        | torn h => exact absurd h (sound _ _)
    | next append attempts =>
      have full := draft_complete create append
      have held {w : Volume} (h : w.get? (Path.place s.draft) = some (.file c.toFile)) :
          s.Kept (· = ·) v c w ∧ s.Kept (· <+: ·) v c w :=
        ⟨Or.inr ⟨_, rfl, inPlace ▸ h⟩, Or.inr ⟨_, List.prefix_rfl, inPlace ▸ h⟩⟩
      cases attempts with
      | stop sync =>
        cases sync.eq_of_sync
        exact ⟨by simp [one, held full], fun _ => (held full).1⟩
      | next sync attempts =>
        cases sync.eq_of_sync
        cases attempts with
        | stop rename =>
          cases rename.eq_of_error nofun
          exact ⟨by simp [one, held full], fun _ => (held full).1⟩
        | next rename attempts =>
          cases attempts
          have done := held (inPlace ▸ rename_complete full rename)
          exact ⟨by simp [one, held full, done], fun _ => done.1⟩

end Store

end ChangeFeed
