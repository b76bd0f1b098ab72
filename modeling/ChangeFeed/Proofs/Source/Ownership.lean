import ChangeFeed.Pglogical.Frame
import ChangeFeed.Proofs.Source.Steps

/-!
Who owns the connections of a source, over every sequence of setups, captures and stops with the feeds
taking their turns in between. Main statement: each connection that was opened is closed or owned by
exactly one of the source and the feeds, and is closed once, when its owner is done with it.
-/
namespace ChangeFeed.Trial

open Session Feed

/-- A source among its surroundings, with all its captures. -/
structure Estate (δ μ : Type) where
  source : Source Nat Nat Unit δ μ
  /-- The captures before the latest, the oldest first. -/
  former : List (Capture Nat Nat Unit δ μ)
  outside : Outside μ

/-- What a feed and its consumer do between calls on the source. -/
inductive Task
  | turn
  | receive
  | dropReceiver

inductive Deed (δ : Type)
  | setup (build : Nat → Except Error (Unit × δ))
  | start (checkpoint : Checkpoint)
  | stop
  | commit (checkpoint : Checkpoint)
  /-- A task for the latest capture. -/
  | tend (task : Task)
  | tendFormer (n : Nat) (task : Task)

inductive Answer
  | setup (result : Except Error Unit)
  | start (result : Source.Start)
  | stop (result : Except Error Unit)
  | none

section Model

variable {δ μ : Type} [Decoder δ μ]

def attend (c : Capture Nat Nat Unit δ μ) (acked : Lsn) : Task → Trial μ (Capture Nat Nat Unit δ μ)
  | .turn => do
    let (next, desk) ←
      (c.run.turn : StateT (Bench Unit) (Trial μ) (Option (Run δ μ))).run { c.desk with acked }
    return { c with run := next.getD c.run, desk }
  | .receive => return { c with run := c.run.receive.2 }
  | .dropReceiver => return { c with run := c.run.dropReceiver }

namespace Estate

omit [Decoder δ μ] in
def captures (e : Estate δ μ) : List (Capture Nat Nat Unit δ μ) := e.former ++ e.source.capture.toList

omit [Decoder δ μ] in
/-- The connections that the source and the feeds own. -/
def held (e : Estate δ μ) : List Link := e.source.links ++ e.captures.flatMap Capture.links

omit [Decoder δ μ] in
/-- The captures before the latest, after a start with such a result. -/
def formerAfter (e : Estate δ μ) : Source.Start → List (Capture Nat Nat Unit δ μ)
  | .started => e.captures
  | _ => e.former

def perform (e : Estate δ μ) : Deed δ → Option (Answer × Estate δ μ)
  | .setup build =>
    ((e.source.setup build : Trial μ _) e.outside).map fun ((result, source), outside) =>
      (.setup result, { e with source, outside })
  | .start checkpoint =>
    ((e.source.start checkpoint : Trial μ _) e.outside).map fun ((result, source), outside) =>
      (.start result, ⟨source, e.formerAfter result, outside⟩)
  | .stop =>
    ((e.source.stop : Trial μ _) e.outside).map fun ((result, source), outside) =>
      (.stop result, { e with source, outside })
  | .commit checkpoint => some (.none, { e with source := e.source.commit checkpoint })
  | .tend task =>
    match e.source.capture with
    | none => some (.none, e)
    | some c =>
      (attend c e.source.tracker.committed task e.outside).map fun (c, outside) =>
        (.none, { e with source := { e.source with capture := some c }, outside })
  | .tendFormer n task =>
    match e.former[n]? with
    | none => some (.none, e)
    | some c =>
      (attend c e.source.tracker.committed task e.outside).map fun (c, outside) =>
        (.none, { e with former := e.former.set n c, outside })

/-- The estate after some deeds, if none of them waits for ever. -/
def after (e : Estate δ μ) : List (Deed δ) → Option (Estate δ μ)
  | [] => some e
  | deed :: deeds => (e.perform deed).bind fun p => p.2.after deeds

/-- What a deed comes to: a call of the source, or a task for a feed, if there is one to do it. -/
inductive Performs (e : Estate δ μ) : Deed δ → Answer → Estate δ μ → Prop
  | setup {build result source outside} :
      (e.source.setup build : Trial μ _) e.outside = some ((result, source), outside) →
      Performs e (.setup build) (.setup result) { e with source, outside }
  | start {checkpoint result source outside} :
      (e.source.start checkpoint : Trial μ _) e.outside = some ((result, source), outside) →
      Performs e (.start checkpoint) (.start result) ⟨source, e.formerAfter result, outside⟩
  | stop {result source outside} :
      (e.source.stop : Trial μ _) e.outside = some ((result, source), outside) →
      Performs e .stop (.stop result) { e with source, outside }
  | commit {checkpoint} :
      Performs e (.commit checkpoint) .none { e with source := e.source.commit checkpoint }
  | unstarted {task} : e.source.capture = none → Performs e (.tend task) .none e
  | tend {task c c' outside} : e.source.capture = some c →
      attend c e.source.tracker.committed task e.outside = some (c', outside) →
      Performs e (.tend task) .none { e with source := { e.source with capture := some c' }, outside }
  | beyond {n task} : e.former[n]? = none → Performs e (.tendFormer n task) .none e
  | tendFormer {n task c c' outside} : e.former[n]? = some c →
      attend c e.source.tracker.committed task e.outside = some (c', outside) →
      Performs e (.tendFormer n task) .none { e with former := e.former.set n c', outside }

theorem performs_of_perform {e e' : Estate δ μ} {deed : Deed δ} {answer : Answer}
    (leads : e.perform deed = some (answer, e')) : Performs e deed answer e' := by
  cases deed with
  | setup build =>
    obtain ⟨_, run, told⟩ := Option.map_eq_some_iff.mp leads
    cases told
    exact .setup run
  | start checkpoint =>
    obtain ⟨_, run, told⟩ := Option.map_eq_some_iff.mp leads
    cases told
    exact .start run
  | stop =>
    obtain ⟨_, run, told⟩ := Option.map_eq_some_iff.mp leads
    cases told
    exact .stop run
  | commit checkpoint => cases leads; exact .commit
  | tend task =>
    simp only [perform] at leads
    split at leads
    · cases leads
      exact .unstarted ‹_›
    · obtain ⟨_, run, told⟩ := Option.map_eq_some_iff.mp leads
      cases told
      exact .tend ‹_› run
  | tendFormer n task =>
    simp only [perform] at leads
    split at leads
    · cases leads
      exact .beyond ‹_›
    · obtain ⟨_, run, told⟩ := Option.map_eq_some_iff.mp leads
      cases told
      exact .tendFormer ‹_› run

end Estate

end Model

section Ownership

variable {δ μ : Type}

/-- Who owns what does not depend on what is said on the connections. -/
abbrev unrestricted : String → Prop := fun _ => True

/-- What a task comes to: a turn of the feed, or its channel alone is changed. -/
inductive Attends [Decoder δ μ] (commands : String → Prop) (c : Capture Nat Nat Unit δ μ) (w : Outside μ) :
    Capture Nat Nat Unit δ μ → Outside μ → Prop
  | turn {acked next desk w'} : Turns commands c.run { c.desk with acked } w next desk w' →
      Holds commands (next.getD c.run) desk → Attends commands c w { c with run := next.getD c.run, desk } w'
  | channel {channel} : Attends commands c w { c with run := { c.run with channel } } w

theorem attends_of_attend [Decoder δ μ] {commands : String → Prop} {c c' : Capture Nat Nat Unit δ μ}
    {acked : Lsn} {task : Task} {w w' : Outside μ} (holds : Holds commands c.run c.desk)
    (run : attend c acked task w = some (c', w')) : Attends commands c w c' w' := by
  cases task with
  | turn =>
    obtain ⟨⟨next, d⟩, u, turned, rest⟩ := bind_eq_some.mp run
    cases rest
    have here : Holds commands c.run { c.desk with acked } := holds.keep rfl (.inl rfl) rfl rfl
    have turns := turn_inv here.usable turned
    exact .turn turns (here.turn turns)
  | receive =>
    cases run
    rw [Run.receive_snd]
    exact .channel
  | dropReceiver =>
    cases run
    exact .channel

theorem attend_inv [Decoder δ μ] {c c' : Capture Nat Nat Unit δ μ} {acked : Lsn} {task : Task}
    {w w' : Outside μ} (holds : Holds unrestricted c.run c.desk) (run : attend c acked task w = some (c', w')) :
    Passes unrestricted w w' ∧ (∀ held, Books w.log (c.links ++ held) → Books w'.log (c'.links ++ held)) ∧
      Holds unrestricted c'.run c'.desk ∧ (c'.run.phase.working = true → c'.links = c.links) ∧
      (c.run.phase = .ended → c'.run.phase = .ended ∧ c'.run.life = c.run.life ∧ c'.links = c.links) := by
  cases attends_of_attend holds run with
  | turn turns holds' =>
    refine ⟨turns.passes, turns.books, holds', turns.links, fun ended => ?_⟩
    obtain ⟨rfl, same⟩ := turns.idle ended
    exact ⟨ended, rfl, same.links⟩
  | channel =>
    exact ⟨.refl _, fun _ => id, holds.keep rfl (.inl rfl) rfl rfl, fun _ => rfl,
      fun ended => ⟨ended, rfl, rfl⟩⟩

namespace Estate

/-- The captures whose feeds have not stopped. -/
def active (e : Estate δ μ) : List (Capture Nat Nat Unit δ μ) :=
  e.captures.filter (·.run.life.state != .stopped)

structure Sound (e : Estate δ μ) : Prop where
  paired : e.source.connections.isSome = e.source.collaborators.isSome
  left : ∀ c ∈ e.source.connections, c.control.isSome ∧ c.replication = none
  exclusive : e.source.isCapturing = true → e.source.connections = none
  former : ∀ c ∈ e.former, Holds unrestricted c.run c.desk ∧ c.run.life.state = .stopped
  latest : ∀ c ∈ e.source.capture, Holds unrestricted c.run c.desk
  books : Books e.outside.log (e.source.links ++ Latest e.source)

variable {e e' : Estate δ μ}

theorem Sound.ended (sound : e.Sound) : ∀ c ∈ e.former,
    c.run.phase = .ended ∧ c.run.life.state = .stopped ∧ c.links = [] := by
  intro c member
  obtain ⟨holds, stopped⟩ := sound.former c member
  obtain ⟨ended, empty⟩ := holds.of_stopped stopped
  exact ⟨ended, stopped, by rw [Capture.links, empty]; rfl⟩

theorem Sound.held_eq (sound : e.Sound) : e.held = e.source.links ++ Latest e.source := by
  have nothing : e.former.flatMap Capture.links = [] :=
    List.flatMap_eq_nil_iff.mpr fun c member => (sound.ended c member).2.2
  unfold held captures Latest
  rw [List.flatMap_append, nothing, List.nil_append]
  cases e.source.capture <;> simp

theorem Sound.active_eq (sound : e.Sound) :
    e.active = e.source.capture.toList.filter (·.run.life.state != .stopped) := by
  have nothing : e.former.filter (·.run.life.state != .stopped) = [] :=
    List.filter_eq_nil_iff.mpr fun c member => by simp [(sound.ended c member).2.1]
  unfold active captures
  rw [List.filter_append, nothing, List.nil_append]

theorem Sound.isCapturing_iff (sound : e.Sound) : e.source.isCapturing = true ↔ e.active ≠ [] := by
  rw [sound.active_eq, Source.isCapturing]
  cases e.source.capture <;> simp

/-- Between captures no feed has any connections. -/
theorem Sound.idle (sound : e.Sound) (idle : e.source.isCapturing = false) :
    e.active = [] ∧ (∀ c ∈ e.captures, c.run.phase = .ended ∧ c.run.life.state = .stopped ∧ c.links = []) ∧
      Latest e.source = [] := by
  have latest : ∀ c ∈ e.source.capture,
      c.run.phase = .ended ∧ c.run.life.state = .stopped ∧ c.links = [] := by
    intro c present
    have stopped : c.run.life.state = .stopped := by
      rw [Source.isCapturing, show e.source.capture = some c from present] at idle
      simpa using idle
    obtain ⟨ended, empty⟩ := (sound.latest c present).of_stopped stopped
    exact ⟨ended, stopped, by rw [Capture.links, empty]; rfl⟩
  refine ⟨?_, fun c member => ?_, ?_⟩
  · by_contra active
    rw [sound.isCapturing_iff.mpr active] at idle
    cases idle
  · rcases List.mem_append.mp member with former | present
    · exact sound.ended c former
    · exact latest c (Option.mem_toList.mp present)
  · unfold Latest
    cases present : e.source.capture with
    | none => rfl
    | some c => exact (latest c present).2.2

/-- What a deed comes to, by its answer. A call that is refused changes nothing; one that fails has closed
what it opened. -/
def Comes (e e' : Estate δ μ) : Answer → Prop
  | .setup (.error fault) =>
    e'.source = e.source ∧ e'.former = e.former ∧
      (∀ l ∈ openings e'.outside.log, l ∉ openings e.outside.log → l ∈ closings e'.outside.log) ∧
      (e.active ≠ [] → fault = .replication .setupWhileCapturing ∧ e' = e)
  | .setup (.ok _) =>
    e.active = [] ∧ e'.captures = e.captures ∧ e'.source.connections.isSome ∧
      ∀ l ∈ e.source.links, l ∈ closings e'.outside.log
  | .start .started =>
    e.active = [] ∧ e'.source.connections = none ∧
      ∃ c, e'.captures = e.captures ++ [c] ∧ e.source.links ⊆ c.links
  | .start result =>
    e'.source.connections = none ∧ e'.captures = e.captures ∧
      (∀ l ∈ e.source.links, l ∈ closings e'.outside.log) ∧
      (∀ l ∈ openings e'.outside.log, l ∉ openings e.outside.log → l ∈ closings e'.outside.log) ∧
      (e.active ≠ [] → result = .failed (.replication .alreadyCapturing) ∧ e' = e) ∧
      (e.active = [] → e.source.connections = none →
        result = .failed (.replication .setupMissing) ∧ e' = e)
  | .stop _ =>
    e'.source.connections = none ∧ (∀ l ∈ e.source.links, l ∈ closings e'.outside.log) ∧
      ∀ c ∈ e'.captures, c.run.phase = .ended ∧ (c.Unbroken → c.run.life.state = .stopped ∧ c.links = [])
  | .none => e'.source.links = e.source.links

/-- A feed that is at work has the same connections all the while. -/
def Steady (e e' : Estate δ μ) : Prop :=
  ∀ (n : Nat) c c', e.captures[n]? = some c → e'.captures[n]? = some c' →
    c'.run.phase.working = true → c'.links = c.links

theorem Steady.of_eq (same : e'.captures = e.captures) : Steady e e' := by
  intro n c c' here here' _
  rw [same, here] at here'
  cases here'
  rfl

theorem Sound.setup (sound : e.Sound) {result : Except Error Unit} {s' : Source Nat Nat Unit δ μ}
    {w' : Outside μ} (sets : SetsUp unrestricted e.source e.outside result s' w') :
    Sound { e with source := s', outside := w' } ∧
      Comes e { e with source := s', outside := w' } (.setup result) ∧
      Steady e { e with source := s', outside := w' } := by
  have capturing := sound.isCapturing_iff
  cases sets with
  | refused =>
    exact ⟨sound, ⟨rfl, rfl, fun l opened new => absurd opened new, fun _ => ⟨rfl, rfl⟩⟩, .of_eq rfl⟩
  | failed idle passes books =>
    have books' := books _ sound.books
    refine ⟨⟨sound.paired, sound.left, sound.exclusive, sound.former, sound.latest, books'⟩, ⟨rfl, rfl, ?_, ?_⟩,
      .of_eq rfl⟩
    · exact fun l => sound.books.closed_of_opened books' (List.Subset.refl _)
    · exact fun active => absurd (sound.idle idle).1 active
  | @ready k x _ idle passes books =>
    obtain ⟨books', new⟩ := books _ sound.books
    obtain ⟨nobody, -⟩ := sound.idle idle
    refine ⟨⟨rfl, ?_, fun capturing => ?_, sound.former, sound.latest, books'⟩,
      ⟨nobody, rfl, rfl, fun l own => ?_⟩, .of_eq rfl⟩
    · rintro _ ⟨⟩
      exact ⟨rfl, rfl⟩
    · rw [show e.source.isCapturing = true from capturing] at idle
      cases idle
    · -- The connection that is new is none of those that the source had, and these are not the feed's.
      refine sound.books.closed_of_released books' passes.longer (List.mem_append_left _ own) ?_
      rintro (_ | ⟨_, member⟩)
      · exact new own
      · exact sound.books.not_mem_held own member

theorem Steady.of_append {c : Capture Nat Nat Unit δ μ} (more : e'.captures = e.captures ++ [c]) :
    Steady e e' := by
  intro n a b here here' _
  have within : n < e.captures.length := (List.getElem?_eq_some_iff.mp here).1
  rw [more, List.getElem?_append_left within, here] at here'
  cases here'
  rfl

theorem Sound.start_failed (sound : e.Sound) {t : Tracker} {w' : Outside μ} (passes : Passes unrestricted e.outside w')
    (books : ∀ held, Books e.outside.log (e.source.links ++ held) → Books w'.log held) :
    let source := { e.source with connections := none, collaborators := none, tracker := t }
    Sound { e with source, outside := w' } ∧
      (∀ l ∈ e.source.links, l ∈ closings w'.log) ∧
      ∀ l ∈ openings w'.log, l ∉ openings e.outside.log → l ∈ closings w'.log := by
  intro source
  have books' := books _ sound.books
  exact ⟨⟨rfl, by simp [source], fun _ => rfl, sound.former, sound.latest, books'⟩,
    sound.books.released books' passes.longer⟩

theorem Sound.start (sound : e.Sound) {result : Source.Start} {s' : Source Nat Nat Unit δ μ}
    {w' : Outside μ} (starts : Starts unrestricted e.source e.outside result s' w') :
    Sound ⟨s', e.formerAfter result, w'⟩ ∧ Comes e ⟨s', e.formerAfter result, w'⟩ (.start result) ∧
      Steady e ⟨s', e.formerAfter result, w'⟩ := by
  have nothing (none : e.source.connections = none) : e.source.links = [] := by
    simp [Source.links, none]
  cases starts with
  | refused capturing =>
    have absent := sound.exclusive capturing
    refine ⟨sound, ⟨absent, rfl, by simp [nothing absent], fun l opened new => absurd opened new,
      fun _ => ⟨rfl, rfl⟩, fun nobody => ?_⟩, .of_eq rfl⟩
    exact absurd nobody (sound.isCapturing_iff.mp capturing)
  | unready idle absent =>
    refine ⟨sound, ⟨absent, rfl, by simp [nothing absent], fun l opened new => absurd opened new,
      fun active => ?_, fun _ _ => ⟨rfl, rfl⟩⟩, .of_eq rfl⟩
    exact absurd (sound.idle idle).1 active
  | @failed _ t _ idle present unstarted passes books =>
    obtain ⟨sound', closed, closed'⟩ := sound.start_failed (t := t) passes books
    have active : e.active ≠ [] → False := fun active => active (sound.idle idle).1
    have ready : e.source.connections = none → False := fun none => by rw [none] at present; cases present
    cases result with
    | started => exact absurd rfl unstarted
    | failed | panicked =>
      exact ⟨sound', ⟨rfl, rfl, closed, closed', fun some => (active some).elim,
        fun _ none => (ready none).elim⟩, .of_eq rfl⟩
  | @started t stream c _ idle present passes holds _ handed books =>
    obtain ⟨nobody, former, latest⟩ := sound.idle idle
    have books' : Books w'.log (c.links ++ Latest e.source) := books _ sound.books
    rw [latest] at books'
    refine ⟨⟨rfl, by simp, fun _ => rfl, fun d member => ?_, ?_, ?_⟩, ⟨nobody, rfl, c, rfl, handed⟩,
      .of_append rfl⟩
    · refine ⟨?_, (former d member).2.1⟩
      rcases List.mem_append.mp member with earlier | present
      · exact (sound.former d earlier).1
      · exact sound.latest d (Option.mem_toList.mp present)
    · rintro _ ⟨⟩
      exact holds
    · simpa [Source.links, Latest] using books'

section Deeds

variable [Decoder δ μ]

theorem Sound.stop (sound : e.Sound) {result : Except Error Unit} {s' : Source Nat Nat Unit δ μ}
    {w' : Outside μ} (run : (e.source.stop : Trial μ _) e.outside = some ((result, s'), w')) :
    Sound { e with source := s', outside := w' } ∧
      Comes e { e with source := s', outside := w' } (.stop result) ∧
      Steady e { e with source := s', outside := w' } := by
  obtain ⟨passes, ⟨capture, told⟩, -, ends, books⟩ :=
    stop_inv (fun c member => (sound.left c member).2) sound.latest run
  have all := books [] (by rw [List.append_nil]; exact sound.books)
  rw [List.append_nil] at all
  obtain ⟨books', closed⟩ := all
  have bare : s'.connections = none ∧ s'.collaborators = none := by
    rw [told]
    exact ⟨rfl, rfl⟩
  have nothing : s'.links = [] := by simp [Source.links, bare.1]
  have ended : ∀ c ∈ e.former ++ s'.capture.toList, c.run.phase = .ended ∧
      (c.Unbroken → c.run.life.state = .stopped ∧ c.links = []) := by
    intro c member
    rcases List.mem_append.mp member with former | latest
    · obtain ⟨ended, stopped, nothing⟩ := sound.ended c former
      exact ⟨ended, fun _ => ⟨stopped, nothing⟩⟩
    · obtain ⟨holds, ended⟩ := ends c (Option.mem_toList.mp latest)
      exact ⟨ended, holds.of_ended ended⟩
  refine ⟨⟨by rw [bare.1, bare.2]; rfl, by rw [bare.1]; simp, fun _ => bare.1, sound.former,
    fun c latest => (ends c latest).1, by rw [nothing]; exact books'⟩, ⟨bare.1, closed, ended⟩, ?_⟩
  intro n c c' _ here' working
  rw [(ended c' (List.mem_of_getElem? here')).1] at working
  cases working

theorem Sound.tend (sound : e.Sound) {c c' : Capture Nat Nat Unit δ μ} {acked : Lsn} {task : Task}
    {w' : Outside μ} (latest : e.source.capture = some c)
    (run : attend c acked task e.outside = some (c', w')) :
    let e' : Estate δ μ := { e with source := { e.source with capture := some c' }, outside := w' }
    e'.Sound ∧ Comes e e' .none ∧ Steady e e' := by
  intro e'
  have holds := sound.latest c latest
  obtain ⟨passes, books, holds', steady, rests⟩ := attend_inv holds run
  have books' : Books w'.log (e.source.links ++ c'.links) := by
    have start := sound.books
    unfold Latest at start
    rw [latest] at start
    exact (books _ (start.perm List.perm_append_comm)).perm List.perm_append_comm
  refine ⟨⟨sound.paired, sound.left, fun capturing => sound.exclusive ?_, sound.former, ?_, books'⟩, rfl, ?_⟩
  · -- A feed that has stopped stays so.
    rw [Source.isCapturing, latest]
    by_contra stopped
    have stopped : c.run.life.state = .stopped := by simpa using stopped
    obtain ⟨-, same, -⟩ := rests (holds.of_stopped stopped).1
    simp [Source.isCapturing, e', same, stopped] at capturing
  · rintro _ ⟨⟩
    exact holds'
  · intro n a b here here' working
    have own : e.captures = e.former ++ [c] := by simp [captures, latest]
    have own' : e'.captures = e.former ++ [c'] := rfl
    rw [own] at here
    rw [own'] at here'
    rcases Nat.lt_or_ge n e.former.length with within | last
    · rw [List.getElem?_append_left within] at here here'
      rw [here] at here'
      cases here'
      rfl
    · rw [List.getElem?_append_right last, List.getElem?_singleton] at here here'
      split at here
      · cases here
        rw [if_pos ‹_›] at here'
        cases here'
        exact steady working
      · cases here

theorem Sound.tendFormer (sound : e.Sound) {n : Nat} {c c' : Capture Nat Nat Unit δ μ} {acked : Lsn}
    {task : Task} {w' : Outside μ} (here : e.former[n]? = some c)
    (run : attend c acked task e.outside = some (c', w')) :
    let e' : Estate δ μ := { e with former := e.former.set n c', outside := w' }
    e'.Sound ∧ Comes e e' .none ∧ Steady e e' := by
  intro e'
  have member : c ∈ e.former := List.mem_of_getElem? here
  obtain ⟨holds, stopped⟩ := sound.former c member
  obtain ⟨ended, -, nothing⟩ := sound.ended c member
  obtain ⟨passes, books, holds', -, rests⟩ := attend_inv holds run
  obtain ⟨ended', life, nothing'⟩ := rests ended
  have books' : Books w'.log (e.source.links ++ Latest e.source) := by
    have start : Books e.outside.log (c.links ++ (e.source.links ++ Latest e.source)) := by
      rw [nothing]
      exact sound.books
    have later := books _ start
    rwa [nothing', nothing] at later
  have sound' : e'.Sound := by
    refine ⟨sound.paired, sound.left, sound.exclusive, fun d there => ?_, sound.latest, books'⟩
    rcases List.mem_or_eq_of_mem_set there with earlier | rfl
    · exact sound.former d earlier
    · exact ⟨holds', life ▸ stopped⟩
  refine ⟨sound', rfl, fun k a b before after working => ?_⟩
  have same : e'.former.length = e.former.length := List.length_set
  rcases Nat.lt_or_ge k e'.former.length with within | last
  · rw [captures, List.getElem?_append_left within] at after
    rw [(sound'.ended b (List.mem_of_getElem? after)).1] at working
    cases working
  · rw [captures, List.getElem?_append_right last, same] at after
    rw [captures, List.getElem?_append_right (same ▸ last), after] at before
    cases before
    rfl

theorem Sound.step (sound : e.Sound) {deed : Deed δ} {answer : Answer}
    (leads : e.perform deed = some (answer, e')) : e'.Sound ∧ Comes e e' answer ∧ Steady e e' := by
  cases performs_of_perform leads with
  | setup run => exact sound.setup (setup_inv (fun c member => (sound.left c member).2) run)
  | start run => exact sound.start (start_inv sound.paired sound.left ⟨trivial, fun _ => trivial⟩ run)
  | stop run => exact sound.stop run
  | commit =>
    exact ⟨⟨sound.paired, sound.left, sound.exclusive, sound.former, sound.latest, sound.books⟩, rfl,
      .of_eq rfl⟩
  | unstarted | beyond => exact ⟨sound, rfl, .of_eq rfl⟩
  | tend latest run => exact sound.tend latest run
  | tendFormer here run => exact sound.tendFormer here run

theorem Sound.after (sound : e.Sound) {deeds : List (Deed δ)} (course : e.after deeds = some e') :
    e'.Sound := by
  induction deeds generalizing e with
  | nil =>
    cases course
    exact sound
  | cons deed deeds ih =>
    obtain ⟨⟨answer, middle⟩, leads, rest⟩ := Option.bind_eq_some_iff.mp course
    exact ih (sound.step leads).1 rest

omit [Decoder δ μ] in
theorem sound_start {config : SourceConfig} {source : Source Nat Nat Unit δ μ}
    (created : Source.create config = .ok source) (replies : List Reply) (now : Nat) (volume : Volume) :
    (Estate.mk source [] ⟨replies, now, volume, []⟩).Sound := by
  obtain ⟨-, rfl⟩ := Source.create_eq_ok.mp created
  refine ⟨rfl, ?_, by simp, ?_, ?_, .empty⟩
  · rintro _ ⟨⟩
  · rintro _ ⟨⟩
  · rintro _ ⟨⟩

/-- Whatever is asked of a source and however the steps of it end: at most one feed has not stopped; setup
connections and collaborators are there together, and never beside such a feed; every connection is opened
once, closed at most once and then has no owner, and otherwise has exactly one; a feed at work has both
of its connections, which stay the same, and one that has stopped has none; and each call keeps what it
promises, as `Comes` tells. -/
theorem owns_connections {config : SourceConfig} {source : Source Nat Nat Unit δ μ}
    (created : Source.create config = .ok source) {replies : List Reply} {now : Nat} {volume : Volume}
    {deeds : List (Deed δ)}
    (course : (Estate.mk source [] ⟨replies, now, volume, []⟩).after deeds = some e) :
    e.active.length ≤ 1 ∧
      e.source.connections.isSome = e.source.collaborators.isSome ∧
      (e.active ≠ [] → e.source.connections = none ∧ e.source.collaborators = none) ∧
      Books e.outside.log e.held ∧
      (∀ c ∈ e.captures,
        (c.run.phase.working = true →
          c.desk.connections.control.isSome ∧ c.desk.connections.replication.isSome) ∧
        (c.run.life.state = .stopped → c.links = []) ∧
        (c.run.phase = .ended → c.Unbroken → c.run.life.state = .stopped)) ∧
      ∀ deed answer e', e.perform deed = some (answer, e') → Comes e e' answer ∧ Steady e e' := by
  have sound := (sound_start created replies now volume).after course
  refine ⟨?_, sound.paired, fun active => ?_, by rw [sound.held_eq]; exact sound.books, fun c member => ?_,
    fun deed answer e' leads => (sound.step leads).2⟩
  · rw [sound.active_eq]
    refine Nat.le_trans (List.length_filter_le _ _) ?_
    cases e.source.capture <;> simp
  · have absent := sound.exclusive (sound.isCapturing_iff.mpr active)
    have paired := sound.paired
    rw [absent] at paired
    exact ⟨absent, Option.not_isSome_iff_eq_none.mp (by rw [← paired]; simp)⟩
  · have holds : Holds unrestricted c.run c.desk := by
      rcases List.mem_append.mp member with former | latest
      · exact (sound.former c former).1
      · exact sound.latest c (Option.mem_toList.mp latest)
    refine ⟨holds.of_working, fun stopped => ?_, fun ended unbroken => (holds.of_ended ended unbroken).1⟩
    rw [Capture.links, (holds.of_stopped stopped).2]
    rfl

/-- A second setup takes the place of the first, and then the server does not let the capture in. -/
theorem closes_after_failing_start :
    let config : SourceConfig := ⟨"host=db user=feed", "host=db user=feed", "changes", false, 5, 100, 30⟩
    let source : Source Nat Nat Unit Pglogical.Relations Pglogical.Message :=
      ⟨config, none, none, default, none, none⟩
    let reply : Reply :=
      ⟨1, 0, .done (), .done (), .ok [], .ok (), .error .timedOut, .ok (), none, .ok (), "", none, .ok (),
        false, none⟩
    let outside : Outside Pglogical.Message := ⟨List.replicate 20 reply, 0, .empty, []⟩
    let deeds : List (Deed Pglogical.Relations) :=
      [.setup fun _ => .ok ((), .empty), .setup fun _ => .ok ((), .empty), .start default]
    ∃ e, Source.create config = .ok source ∧ (Estate.mk source [] outside).after deeds = some e ∧
      closings e.outside.log = [.control 0, .control 1] ∧ Books e.outside.log e.held ∧
      e.source.collaborators.isSome = false := by
  intro config source reply outside deeds
  have created : Source.create config = .ok source :=
    Source.create_eq_ok.mpr ⟨by decide +kernel, rfl⟩
  have told : ((Estate.mk source [] outside).after deeds).map (fun e =>
      (closings e.outside.log, e.source.connections.isSome)) = some ([.control 0, .control 1], false) := by
    decide +kernel
  obtain ⟨e, course, facts⟩ := Option.map_eq_some_iff.mp told
  obtain ⟨closed, absent⟩ := Prod.mk.inj facts
  obtain ⟨-, paired, -, books, -⟩ := owns_connections created course
  exact ⟨e, created, course, closed, books, paired ▸ absent⟩

end Deeds

end Estate

end Ownership

end ChangeFeed.Trial
