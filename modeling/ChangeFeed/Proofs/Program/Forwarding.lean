import ChangeFeed.Program.Forward
import ChangeFeed.Proofs.Checkpoint.Crash

/-!
Forwarding changes on a terminal and a medium that may fail anywhere. Main statement: nothing is
confirmed or saved before its line is written.
-/
namespace ChangeFeed.Program

inductive Output
  | line (text : String)
  | flush
deriving DecidableEq, Repr

def Output.line? : Output → Option String
  | .line text => some text
  | .flush => none

/-- A volume and a terminal, with the volume after each file step and how much had been put out then. -/
structure Office where
  volume : Volume
  output : List Output
  moments : List (Nat × Volume)

/-- Which actions fail, by the number of such actions before. -/
structure Faults where
  line : Nat → Option IoFault
  flush : Option IoFault
  /-- Of an addition to a file that fails so many bytes are added. -/
  file : Nat → FileStep → Option (IoFault × Nat)

namespace Office

abbrev Working := ReaderT Faults (StateM Office)

def see (o : Office) (w : Volume) : Office :=
  { o with volume := w, moments := o.moments ++ [(o.output.length, w)] }

/-- What a step leaves behind that fails. -/
def tear (v : Volume) (n : Nat) : FileStep → Volume
  | .append path bytes =>
    match v.perform (.append path (bytes.take n)) with
    | .ok w => w
    | .error _ => v
  | _ => v

def perform (faults : Faults) (o : Office) (step : FileStep) : Except IoFault Unit × Office :=
  match faults.file o.moments.length step with
  | some (e, n) => (.error e, o.see (tear o.volume n step))
  | none =>
    match o.volume.perform step with
    | .ok w => (.ok (), o.see w)
    | .error e => (.error e, o.see o.volume)

def put (o : Office) (x : Output) : Office := { o with output := o.output ++ [x] }

instance : Terminal Working where
  writeLine text := fun faults o =>
    match faults.line o.output.length with
    | some e => (.error e, o)
    | none => (.ok (), o.put (.line text))
  flush := fun faults o => (faults.flush.elim (.ok ()) .error, o.put .flush)
  interrupted := return false

instance : FileSystem Working where
  hasEntry path := fun _ o => (o.volume.hasEntry path, o)
  read path := fun _ o => (o.volume.read path, o)
  perform step := fun faults o => o.perform faults step
  remove path := fun _ o =>
    match o.volume.remove path with
    | .ok w => (.ok (), o.see w)
    | .error e => (.error e, o)

end Office

/-- The steps at which the medium may fail. -/
def Faults.faulty (faults : Faults) (step : FileStep) : Prop := ∃ n, (faults.file n step).isSome

namespace Office

variable (faults : Faults) (o : Office)

theorem perform_attempt (step : FileStep) :
    Volume.Attempt faults.faulty o.volume step (o.perform faults step).1 (o.perform faults step).2.volume ∧
      (o.perform faults step).2 = o.see (o.perform faults step).2.volume := by
  unfold perform
  split
  · rename_i e n fails
    have faulty : faults.faulty step := ⟨o.moments.length, by rw [fails]; rfl⟩
    refine ⟨?_, rfl⟩
    cases step with
    | append path bytes =>
      simp only [see, tear]
      split
      · rename_i torn; exact .torn faulty torn
      · exact .broken faulty
    | _ => exact .broken faulty
  · split
    · rename_i done; exact ⟨.done done, rfl⟩
    · rename_i refused; exact ⟨.refused refused, rfl⟩

def seeAll (o : Office) (seen : List Volume) (last : Volume) : Office :=
  { o with volume := last, moments := o.moments ++ seen.map fun w => (o.output.length, w) }

theorem performAll_cons (step : FileStep) (steps : List FileStep) :
    (Store.performAll (step :: steps) : Working _) faults o =
      match o.perform faults step with
      | (.ok _, o') => (Store.performAll steps : Working _) faults o'
      | (.error e, o') => (.error e, o') := by
  simp only [Store.performAll, bind, ReaderT.bind, StateT.bind, FileSystem.perform]
  rcases h : o.perform faults step with ⟨_ | _, o'⟩ <;> rfl

/-- Steps performed one after the other are attempts, and nothing else happens meanwhile. -/
theorem performAll_attempts (steps : List FileStep) : ∃ result seen last,
    (Store.performAll steps : Working _) faults o = (result, o.seeAll seen last) ∧
      Volume.Attempts faults.faulty o.volume steps result seen last := by
  induction steps generalizing o with
  | nil => exact ⟨.ok (), [], o.volume, by simp [Store.performAll, seeAll]; rfl, .nil⟩
  | cons step steps ih =>
    obtain ⟨attempt, seen⟩ := perform_attempt faults o step
    rw [performAll_cons]
    rcases h : o.perform faults step with ⟨e | _, o'⟩ <;> rw [h] at attempt seen <;>
      dsimp only at attempt seen ⊢
    · exact ⟨.error e, [o'.volume], o'.volume, Prod.ext rfl seen, .stop attempt⟩
    · obtain ⟨result, later, last, run, attempts⟩ := ih o'
      refine ⟨result, o'.volume :: later, last, ?_, .next attempt attempts⟩
      rw [run]
      refine Prod.ext rfl ?_
      rw [seen]
      simp [see, seeAll]

theorem save_attempts (s : Store) (c : Checkpoint) : ∃ result seen last,
    (s.save c : Working _) faults o = (result.mapError .io, o.seeAll seen last) ∧
      Volume.Attempts faults.faulty o.volume (s.saveSteps c) result seen last := by
  obtain ⟨result, seen, last, run, attempts⟩ := performAll_attempts faults o (s.saveSteps c)
  refine ⟨result, seen, last, ?_, attempts⟩
  simp [Store.save, bind, ReaderT.bind, StateT.bind, run]
  rfl

end Office

def ForwardMove.isEvent : ForwardMove → Bool
  | .receive _ | .tick | .finish => true
  | _ => false

namespace Forwarder

open Office

variable {faults : Faults} {o : Office} {f : Forwarder} {store : Option Store}

theorem run_cons (x : ForwardMove) (xs : List ForwardMove) :
    (f.run store (x :: xs) : Working _) faults o =
      (((f.move store x : Working _) faults o).1.run store xs : Working _) faults
        ((f.move store x : Working _) faults o).2 := rfl

theorem move_receive (waiting : f.phase = .waiting) (c : PglogicalChange) :
    (f.move store (.receive c) : Working _) faults o =
      match faults.line o.output.length with
      | some e => ({ f with phase := .ended (.error e) }, o)
      | none => ({ f with
          phase := .waiting, tracker := f.tracker.commit c.checkpoint, committed := some c.checkpoint },
          o.put (.line (line c))) := by
  cases fault : faults.line o.output.length <;>
    simp [move, apply, waiting, work?, bind, ReaderT.bind, StateT.bind, Terminal.writeLine, fault] <;> rfl

theorem move_finish (waiting : f.phase = .waiting) :
    (f.move store .finish : Working _) faults o =
      ({ f with phase := .ended (faults.flush.elim (.ok f.committed) .error) }, o.put .flush) := by
  cases fault : faults.flush <;>
    simp [move, apply, waiting, work?, bind, ReaderT.bind, StateT.bind, Terminal.flush, fault] <;> rfl

theorem move_ended {result : Except IoFault (Option Checkpoint)} (ended : f.phase = .ended result)
    (x : ForwardMove) : (f.move store x : Working _) faults o = (f, o) := by
  cases x <;> simp [move, apply, ended] <;> rfl

theorem move_idle (waiting : f.phase = .waiting) {x : ForwardMove} (other : x.isEvent = false) :
    (f.move store x : Working _) faults o = (f, o) := by
  cases x <;> simp [ForwardMove.isEvent] at other <;> simp [move, apply, waiting] <;> rfl

theorem move_tick (waiting : f.phase = .waiting) (idle : f.unsaved? = none) :
    (f.move store .tick : Working _) faults o = (f, o) := by
  simp [move, apply, waiting, idle, work?]
  rfl

def afterSave (f : Forwarder) (c : Checkpoint) : Except IoFault Unit → Forwarder
  | .ok _ => { f with phase := .waiting, saved := some c }
  | .error _ => { f with phase := .waiting }

theorem move_save (faults : Faults) (o : Office) (s : Store) {c : Checkpoint} (waiting : f.phase = .waiting)
    (unsaved : f.unsaved? = some c) : ∃ result seen last,
    (f.move (some s) .tick : Working _) faults o = (f.afterSave c result, o.seeAll seen last) ∧
      Volume.Attempts faults.faulty o.volume (s.saveSteps c) result seen last := by
  obtain ⟨result, seen, last, run, attempts⟩ := save_attempts faults o s c
  refine ⟨result, seen, last, ?_, attempts⟩
  cases result <;>
    simp [move, apply, waiting, unsaved, work?, bind, ReaderT.bind, StateT.bind, run] <;> rfl

end Forwarder

def lastCheckpoint (written : List PglogicalChange) : Option Checkpoint :=
  written.getLast?.map (·.checkpoint)

def linesOf (written : List PglogicalChange) : List Output := written.map fun c => .line (line c)

/-- The file of the store is what it was in `v`, or a load reads it as the checkpoint of a change that is
written. -/
def Loads (s : Store) (v : Volume) (written : List PglogicalChange) (w : Volume) : Prop :=
  w.find s.path = v.find s.path ∧ s.loadFrom w = s.loadFrom v ∨
    ∃ c ∈ written, w.read s.path = .ok c.checkpoint.toFile ∧
      s.loadFrom w = .ok (some c.checkpoint.asRead) ∧ c.checkpoint.ReadAs c.checkpoint.asRead

/-- In the place of the file is what was there in `v`, or so much as `Part` says of the checkpoint of a
change that is written. -/
def Holds (Part : Bytes → Bytes → Prop) (s : Store) (v : Volume) (written : List PglogicalChange)
    (w : Volume) : Prop :=
  w.get? s.place = v.get? s.place ∨
    ∃ c ∈ written, ∃ bytes, Part bytes c.checkpoint.toFile ∧ w.get? s.place = some (.file bytes)

/-- So it is held now, and was after each file step with the changes that were written by then. -/
structure Keeps (Held : List PglogicalChange → Volume → Prop) (written : List PglogicalChange)
    (o : Office) : Prop where
  now : Held written o.volume
  past : ∀ p ∈ o.moments, p.1 ≤ written.length ∧ Held (written.take p.1) p.2

/-- The file of the store after the changes of `written`, if the forwarder began with volume `v`. -/
structure Filed (faults : Faults) (s : Store) (v : Volume) (written : List PglogicalChange)
    (f : Forwarder) (o : Office) : Prop where
  beside : Path.hasExtension s.path "tmp" = false → Keeps (Loads s v) written o
  saved : Path.hasExtension s.path "tmp" = false → ∀ c, f.saved = some c →
    o.volume.read s.path = .ok c.toFile
  inPlace : s.InPlace → Keeps (Holds (· <+: ·) s v) written o
  whole : s.InPlace → (∀ path bytes, ¬ faults.faulty (.append path bytes)) →
    Holds (· = ·) s v written o.volume

/-- What is confirmed and saved after the changes of `written`. -/
structure Books (faults : Faults) (store : Option Store) (tracker : Tracker) (v : Volume)
    (written : List PglogicalChange) (f : Forwarder) (o : Office) : Prop where
  sound : ∀ n < written.length, faults.line n = none
  saves : f.saves = store.isSome
  committed : f.committed = lastCheckpoint written
  tracker : f.tracker = (lastCheckpoint written).elim tracker tracker.commit
  filed : ∀ s, store = some s → Filed faults s v written f o

/-- How far the forwarder has come with the changes that have arrived. -/
inductive Stand (faults : Faults) (arrived written : List PglogicalChange) (closed : Bool) :
    ForwardPhase → List Output → Prop
  | waiting : closed = false → arrived = written →
      Stand faults arrived written closed .waiting (linesOf written)
  | unwritten {c rest e} : arrived = written ++ c :: rest → faults.line written.length = some e →
      Stand faults arrived written closed (.ended (.error e)) (linesOf written)
  | flushed : closed = true → arrived = written →
      Stand faults arrived written closed
        (.ended (faults.flush.elim (.ok (lastCheckpoint written)) .error)) (linesOf written ++ [.flush])

namespace Stand

variable {faults : Faults} {arrived written : List PglogicalChange} {closed : Bool}
  {phase : ForwardPhase} {output : List Output}

theorem initial (stand : Stand faults arrived written closed phase output) : written <+: arrived := by
  cases stand with
  | waiting _ all | flushed _ all => exact all ▸ List.prefix_rfl
  | unwritten all _ => rw [all]; exact List.prefix_append ..

theorem lines (stand : Stand faults arrived written closed phase output) :
    output.filterMap Output.line? = written.map line := by
  have own : (linesOf written).filterMap Output.line? = written.map line := by
    simp [linesOf, Output.line?, Function.comp_def]
  cases stand with
  | waiting | unwritten => exact own
  | flushed => simp [own, Output.line?]

theorem succeeded {r : Option Checkpoint}
    (stand : Stand faults arrived written closed (.ended (.ok r)) output) :
    arrived = written ∧ r = lastCheckpoint written ∧ output = linesOf written ++ [.flush] := by
  generalize ended : ForwardPhase.ended (.ok r) = phase at stand
  cases stand with
  | waiting | unwritten => cases ended
  | flushed _ all =>
    cases fault : faults.flush <;> rw [fault] at ended <;> cases ended
    exact ⟨all, rfl, rfl⟩

theorem failed (stand : Stand faults arrived written closed phase output)
    (sound : ∀ n < written.length, faults.line n = none) {k : Nat} {e : IoFault}
    (among : k < arrived.length) (fault : faults.line k = some e)
    (first : ∀ n < k, faults.line n = none) : phase = .ended (.error e) ∧ written = arrived.take k := by
  have upTo : ¬ k < written.length := fun short => by rw [sound k short] at fault; cases fault
  cases stand with
  | waiting _ all | flushed _ all => rw [all] at among; exact absurd among upTo
  | unwritten all own =>
    have exact : k = written.length := by
      rcases Nat.lt_or_ge written.length k with less | more
      · rw [first _ less] at own; cases own
      · omega
    subst exact
    rw [own] at fault
    cases fault
    exact ⟨rfl, by rw [all, List.take_left]⟩

theorem complete (stand : Stand faults arrived written closed phase output)
    (fine : ∀ n < arrived.length, faults.line n = none) :
    written = arrived ∧ phase =
      if closed then .ended (faults.flush.elim (.ok (lastCheckpoint arrived)) .error) else .waiting := by
  cases stand with
  | waiting still all => exact ⟨all.symm, by rw [still]; rfl⟩
  | flushed done all => exact ⟨all.symm, by rw [done, all]; rfl⟩
  | unwritten all own =>
    have short : written.length < arrived.length := by rw [all]; simp
    rw [fine _ short] at own
    cases own

end Stand

section Files

variable {Held : List PglogicalChange → Volume → Prop} {Part : Bytes → Bytes → Prop} {s : Store}
  {v w : Volume} {written : List PglogicalChange} {o : Office} {f : Forwarder} {faults : Faults}

theorem Loads.more (loads : Loads s v written w) (c : PglogicalChange) : Loads s v (written ++ [c]) w :=
  loads.imp_right fun ⟨d, member, held⟩ => ⟨d, List.mem_append_left _ member, held⟩

theorem Holds.more (holds : Holds Part s v written w) (c : PglogicalChange) :
    Holds Part s v (written ++ [c]) w :=
  holds.imp_right fun ⟨d, member, held⟩ => ⟨d, List.mem_append_left _ member, held⟩

theorem Loads.of_kept {u : Volume} {c : Checkpoint} (loads : Loads s v written u)
    (last : lastCheckpoint written = some c)
    (kept : w.find s.path = u.find s.path ∨ w.read s.path = .ok c.toFile) : Loads s v written w := by
  rcases kept with same | new
  · rw [Loads, same, Store.loadFrom_congr same, Volume.read, same]
    exact loads
  · obtain ⟨d, found, rfl⟩ := Option.map_eq_some_iff.mp last
    exact .inr ⟨d, List.mem_of_getLast? found, new, Store.loadFrom_of_file new, d.checkpoint.readAs_asRead⟩

theorem Holds.of_kept {u : Volume} {c : Checkpoint} (holds : Holds Part s v written u)
    (last : lastCheckpoint written = some c) (kept : s.Kept Part u c w) : Holds Part s v written w := by
  rcases kept with same | new
  · rw [Holds, same]; exact holds
  · obtain ⟨d, found, rfl⟩ := Option.map_eq_some_iff.mp last
    exact .inr ⟨d, List.mem_of_getLast? found, new⟩

theorem Keeps.write (keeps : Keeps Held written o)
    (more : ∀ {written w}, Held written w → ∀ c, Held (written ++ [c]) w) (c : PglogicalChange) (x : Output) :
    Keeps Held (written ++ [c]) (o.put x) := by
  refine ⟨more keeps.now c, fun p member => ?_⟩
  obtain ⟨bound, held⟩ := keeps.past p member
  rw [List.take_append_of_le_length bound, List.length_append]
  exact ⟨Nat.le_add_right_of_le bound, held⟩

theorem Keeps.save (keeps : Keeps Held written o) {seen : List Volume} {last : Volume}
    (output : o.output = linesOf written) (held : ∀ w ∈ last :: seen, Held written w) :
    Keeps Held written (o.seeAll seen last) := by
  have length : o.output.length = written.length := by simp [output, linesOf]
  refine ⟨held last List.mem_cons_self, fun p member => ?_⟩
  rcases List.mem_append.mp member with old | new
  · exact keeps.past p old
  · obtain ⟨w, seen, rfl⟩ := List.mem_map.mp new
    rw [length, List.take_length]
    exact ⟨Nat.le_refl _, held w (List.mem_cons_of_mem _ seen)⟩

theorem Filed.write (filed : Filed faults s v written f o) (c : PglogicalChange) {g : Forwarder}
    (saved : g.saved = f.saved) : Filed faults s v (written ++ [c]) g (o.put (.line (line c))) := by
  constructor
  · exact fun other => (filed.beside other).write Loads.more c _
  · rw [saved]; exact filed.saved
  · exact fun inPlace => (filed.inPlace inPlace).write Holds.more c _
  · exact fun inPlace sound => (filed.whole inPlace sound).more c

theorem Filed.save (filed : Filed faults s v written f o) {c : Checkpoint}
    {result : Except IoFault Unit} {seen : List Volume} {last : Volume}
    (output : o.output = linesOf written) (latest : lastCheckpoint written = some c)
    (attempts : Volume.Attempts faults.faulty o.volume (s.saveSteps c) result seen last) :
    Filed faults s v written (f.afterSave c result) (o.seeAll seen last) := by
  refine ⟨fun other => ?_, fun other d saved => ?_, fun inPlace => ?_, fun inPlace sound => ?_⟩
  · have keeps := filed.beside other
    exact keeps.save output fun w seen =>
      keeps.now.of_kept latest ((Store.saves_beside other attempts).1 w seen)
  · rcases (Store.saves_beside other attempts).2 with ⟨rfl, done⟩ | ⟨⟨e, rfl⟩, same⟩
    · cases saved
      exact done
    · dsimp only [Office.seeAll]
      rw [Volume.read, same]
      exact filed.saved other d saved
  · have keeps := filed.inPlace inPlace
    exact keeps.save output fun w seen =>
      keeps.now.of_kept latest ((Store.saves_in_place inPlace attempts).1 w seen)
  · exact (filed.whole inPlace sound).of_kept latest ((Store.saves_in_place inPlace attempts).2 sound)

end Files

namespace Books

variable {faults : Faults} {store : Option Store} {tracker : Tracker} {v : Volume}
  {written : List PglogicalChange} {f g : Forwarder} {o o' : Office}

/-- The books depend neither on the phase nor on what was flushed. -/
theorem frame (books : Books faults store tracker v written f o) (saves : g.saves = f.saves)
    (committed : g.committed = f.committed) (confirmed : g.tracker = f.tracker)
    (saved : g.saved = f.saved) (volume : o'.volume = o.volume) (moments : o'.moments = o.moments) :
    Books faults store tracker v written g o' := by
  refine ⟨books.sound, by rw [saves, books.saves], by rw [committed, books.committed],
    by rw [confirmed, books.tracker], fun s some => ?_⟩
  have filed := books.filed s some
  have keeps {Held : List PglogicalChange → Volume → Prop} (keeps : Keeps Held written o) :
      Keeps Held written o' :=
    ⟨by rw [volume]; exact keeps.now, by rw [moments]; exact keeps.past⟩
  exact ⟨fun beside => keeps (filed.beside beside), by rw [volume, saved]; exact filed.saved,
    fun inPlace => keeps (filed.inPlace inPlace), by rw [volume]; exact filed.whole⟩

theorem write (books : Books faults store tracker v written f o)
    (fine : faults.line written.length = none) (c : PglogicalChange) :
    Books faults store tracker v (written ++ [c])
      { f with
        phase := .waiting, tracker := f.tracker.commit c.checkpoint, committed := some c.checkpoint }
      (o.put (.line (line c))) := by
  refine ⟨fun n short => ?_, books.saves, by simp [lastCheckpoint], by simp [lastCheckpoint]; rfl,
    fun s some => (books.filed s some).write c rfl⟩
  rw [List.length_append, List.length_singleton] at short
  rcases Nat.lt_succ_iff_lt_or_eq.mp short with before | rfl
  · exact books.sound n before
  · exact fine

theorem unsaved {c : Checkpoint} (books : Books faults store tracker v written f o)
    (unsaved : f.unsaved? = some c) : ∃ s, store = some s ∧ lastCheckpoint written = some c := by
  unfold Forwarder.unsaved? at unsaved
  split at unsaved
  · rename_i due
    rw [books.saves] at due
    obtain ⟨s, some⟩ := Option.isSome_iff_exists.mp due.1
    exact ⟨s, some, by rw [← books.committed, unsaved]⟩
  · cases unsaved

theorem save {s : Store} {c : Checkpoint} {result : Except IoFault Unit} {seen : List Volume}
    {last : Volume} (books : Books faults (some s) tracker v written f o)
    (output : o.output = linesOf written) (latest : lastCheckpoint written = some c)
    (attempts : Volume.Attempts faults.faulty o.volume (s.saveSteps c) result seen last) :
    Books faults (some s) tracker v written (f.afterSave c result) (o.seeAll seen last) := by
  refine ⟨books.sound, ?_, ?_, ?_, fun s' some => ?_⟩
  · rw [← books.saves]; cases result <;> rfl
  · rw [← books.committed]; cases result <;> rfl
  · rw [← books.tracker]; cases result <;> rfl
  · cases some
    exact (books.filed s rfl).save output latest attempts

end Books

def ForwardMove.arrival? : ForwardMove → Option PglogicalChange
  | .receive c => some c
  | _ => none

def ForwardMove.isFinish : ForwardMove → Bool
  | .finish => true
  | _ => false

/-- The changes that arrive before the end. -/
def arrivals (moves : List ForwardMove) : List PglogicalChange :=
  (moves.takeWhile fun x => !x.isFinish).filterMap ForwardMove.arrival?

namespace Forwarder

variable {faults : Faults} {store : Option Store} {tracker : Tracker} {v : Volume}
  {written : List PglogicalChange} {f : Forwarder} {o : Office}

theorem run_ended {result : Except IoFault (Option Checkpoint)} (ended : f.phase = .ended result)
    (moves : List ForwardMove) : (f.run store moves : Office.Working _) faults o = (f, o) := by
  induction moves with
  | nil => rfl
  | cons x xs ih => rw [run_cons, move_ended ended, ih]

/-- Some of the changes that arrive have been written after the first ones, in order, and that is how the
forwarder stands. -/
def Writes (faults : Faults) (store : Option Store) (tracker : Tracker) (v : Volume)
    (written arrived : List PglogicalChange) (finishes : Bool) (p : Forwarder × Office) : Prop :=
  ∃ more, Books faults store tracker v (written ++ more) p.1 p.2 ∧
    Stand faults (written ++ arrived) (written ++ more) finishes p.1.phase p.2.output

theorem Writes.nothing {arrived : List PglogicalChange} {finishes : Bool}
    (books : Books faults store tracker v written f o)
    (stand : Stand faults (written ++ arrived) written finishes f.phase o.output) :
    Writes faults store tracker v written arrived finishes (f, o) :=
  ⟨[], by rw [List.append_nil]; exact books, by rw [List.append_nil]; exact stand⟩

theorem Writes.cons {c : PglogicalChange} {arrived : List PglogicalChange} {finishes : Bool}
    {p : Forwarder × Office}
    (writes : Writes faults store tracker v (written ++ [c]) arrived finishes p) :
    Writes faults store tracker v written (c :: arrived) finishes p := by
  obtain ⟨more, books, stand⟩ := writes
  refine ⟨c :: more, List.append_cons written c more ▸ books, ?_⟩
  rw [List.append_cons, List.append_cons written c more]
  exact stand

/-- Moves of a waiting forwarder lead to one that has written some of the changes that arrive, in order. -/
theorem run_waiting (books : Books faults store tracker v written f o) (moves : List ForwardMove)
    (waiting : f.phase = .waiting) (output : o.output = linesOf written) :
    Writes faults store tracker v written (arrivals moves) (moves.any ForwardMove.isFinish)
      ((f.run store moves : Office.Working _) faults o) := by
  have length : o.output.length = written.length := by simp [output, linesOf]
  induction moves generalizing f o written with
  | nil =>
    refine .nothing books ?_
    rw [waiting, output]
    exact .waiting rfl (List.append_nil _)
  | cons x xs ih =>
    rw [run_cons]
    cases x with
    | receive c =>
      rw [move_receive waiting]
      cases fault : faults.line o.output.length with
      | some e =>
        dsimp only
        rw [run_ended rfl]
        refine .nothing (books.frame rfl rfl rfl rfl rfl rfl) ?_
        rw [output]
        exact .unwritten rfl (length ▸ fault)
      | none =>
        have output' : (o.put (.line (line c))).output = linesOf (written ++ [c]) := by
          simp [Office.put, output, linesOf]
        exact .cons (ih (books.write (length ▸ fault) c) rfl output' (by rw [output']; simp [linesOf]))
    | tick =>
      cases due : f.unsaved? with
      | none =>
        rw [move_tick waiting due]
        exact ih books waiting output length
      | some c =>
        obtain ⟨s, rfl, latest⟩ := books.unsaved due
        obtain ⟨result, seen, last, move, attempts⟩ := move_save faults o s waiting due
        rw [move]
        have waiting' : (f.afterSave c result).phase = .waiting := by cases result <;> rfl
        exact ih (books.save output latest attempts) waiting' output length
    | finish =>
      rw [move_finish waiting, run_ended rfl]
      refine .nothing (books.frame rfl rfl rfl rfl rfl rfl) ?_
      rw [books.committed]
      dsimp only [Office.put]
      rw [output]
      exact .flushed rfl (List.append_nil _)
    | written outcome | saved outcome | flushed outcome =>
      rw [move_idle waiting rfl]
      exact ih books waiting output length

/-- Nothing is confirmed or saved before its line is written, whatever arrives in which order and
whatever fails. The lines are those of the first changes that arrive; the tracker stands at the last of
them. After each step of each save the file of the store is what it was at first, or it is loaded as the
checkpoint of a change that is written by then. Only a file with the extension of the draft, into which a
save writes itself, may have come no farther than the beginning of that checkpoint; between saves it holds
all of it if the medium takes all that is added to files. Success means that all is written and then
flushed once. The first line that cannot be written ends the forwarder with its error; without such a line
all that arrives is written. -/
theorem run_writes_first (store : Option Store) (tracker : Tracker) (faults : Faults) (v : Volume)
    (moves : List ForwardMove) :
    let p := ((start store.isSome tracker).run store moves : Office.Working _) faults ⟨v, [], []⟩
    ∃ written, written <+: arrivals moves ∧
      p.2.output.filterMap Output.line? = written.map line ∧
      p.1.tracker.committed = (lastCheckpoint written).elim tracker.committed (·.lsn) ∧
      (∀ s, store = some s → Path.hasExtension s.path "tmp" = false → Keeps (Loads s v) written p.2 ∧
        ∀ c, p.1.saved = some c → p.2.volume.read s.path = .ok c.toFile ∧
          s.loadFrom p.2.volume = .ok (some c.asRead)) ∧
      (∀ s, store = some s → Path.hasExtension s.path "tmp" = true →
        Keeps (Holds (· <+: ·) s v) written p.2 ∧
        ((∀ path bytes, ¬ faults.faulty (.append path bytes)) →
          Holds (· = ·) s v written p.2.volume)) ∧
      (∀ r, p.1.phase = .ended (.ok r) → written = arrivals moves ∧ r = lastCheckpoint written ∧
        p.2.output = linesOf written ++ [.flush]) ∧
      (∀ k e, k < (arrivals moves).length → faults.line k = some e →
        (∀ n < k, faults.line n = none) →
          p.1.phase = .ended (.error e) ∧ written = (arrivals moves).take k) ∧
      ((∀ n < (arrivals moves).length, faults.line n = none) → written = arrivals moves ∧
        p.1.phase = if moves.any ForwardMove.isFinish then
            .ended (faults.flush.elim (.ok (lastCheckpoint (arrivals moves))) .error)
          else .waiting) := by
  intro p
  have first : Books faults store tracker v [] (start store.isSome tracker) ⟨v, [], []⟩ :=
    ⟨nofun, rfl, rfl, rfl, fun s _ =>
      ⟨fun _ => ⟨.inl ⟨rfl, rfl⟩, nofun⟩, fun _ _ saved => (nomatch saved), fun _ => ⟨.inl rfl, nofun⟩,
        fun _ _ => .inl rfl⟩⟩
  obtain ⟨written, books, stand⟩ := run_waiting first moves rfl rfl
  rw [List.nil_append] at books stand
  refine ⟨written, stand.initial, stand.lines, ?_, fun s some other => ?_, fun s some own => ?_,
    fun r ended => ?_, fun k e => stand.failed books.sound, stand.complete⟩
  · rw [books.tracker]
    cases lastCheckpoint written <;> rfl
  · refine ⟨(books.filed s some).beside other, fun c saved => ?_⟩
    have file := (books.filed s some).saved other c saved
    exact ⟨file, Store.loadFrom_of_file file⟩
  · have inPlace := Store.inPlace_of_hasExtension own
    exact ⟨(books.filed s some).inPlace inPlace, (books.filed s some).whole inPlace⟩
  · rw [ended] at stand
    obtain ⟨all, last, output⟩ := stand.succeeded
    exact ⟨all.symm, last, output⟩

/-- A save fails while it adds to a file with the extension of the draft: the checkpoint that the file held
is lost, and that of the change that is written is not there. -/
theorem checkpoint_lost_by_tick :
    let s : Store := ⟨"checkpoint.tmp"⟩
    let v := Store.keeping s.path
    let faults : Faults :=
      ⟨fun _ => none, none, fun n _ => if n = 1 then some (.other "disk full", 0) else none⟩
    let change : PglogicalChange := ⟨Store.later, ⟨67, .other, none, []⟩⟩
    let p := ((start true ⟨.zero⟩).run (some s) [.receive change, .tick] : Office.Working _) faults ⟨v, [], []⟩
    s.loadFrom v = .ok (some default) ∧ p.1.committed = some change.checkpoint ∧
      p.2.volume.read s.path = .ok [] ∧ ∃ e, s.loadFrom p.2.volume = .error e := by
  intro s v faults change p
  have left : p.2.volume = ⟨[(["checkpoint.tmp"], .file [])]⟩ := by decide +kernel
  rw [left]
  exact ⟨Store.loadFrom_keeping (by decide +kernel), by decide +kernel, by decide +kernel,
    Store.loadFrom_of_empty (by decide +kernel) (by decide +kernel)⟩

end Forwarder

end ChangeFeed.Program
