import ChangeFeed.Proofs.Surroundings.Trial
import ChangeFeed.Proofs.Wire.Speech

/-!
Who holds which connections, by what was written down. Main statements: what a call does to the books,
for calls one after the other and for each request, and what it says on the connections.
-/
namespace ChangeFeed.Trial

open Session

variable {μ α β : Type}

def openings (log : List (Note μ)) : List Link := log.filterMap Note.opened?

def closings (log : List (Note μ)) : List Link := log.filterMap Note.closed?

@[simp] theorem openings_append (a b : List (Note μ)) : openings (a ++ b) = openings a ++ openings b :=
  List.filterMap_append

@[simp] theorem closings_append (a b : List (Note μ)) : closings (a ++ b) = closings a ++ closings b :=
  List.filterMap_append

theorem closings_mono {a b : List (Note μ)} (longer : a <+: b) : closings a ⊆ closings b := by
  obtain ⟨more, rfl⟩ := longer
  rw [closings_append]
  exact List.subset_append_left _ _

/-- Every connection was opened once and closed at most once, after it was opened, and those that are
open are the ones that are held, each of them once. -/
structure Books (log : List (Note μ)) (held : List Link) : Prop where
  opened_once : (openings log).Nodup
  closed_once : (closings log).Nodup
  opened_first : ∀ n, closings (log.take n) ⊆ openings (log.take n)
  numbered : ∀ l ∈ openings log, l.number < log.length
  held_once : held.Nodup
  mem_held : ∀ l, l ∈ held ↔ l ∈ openings log ∧ l ∉ closings log

namespace Books

variable {log : List (Note μ)} {held held' : List Link} {l : Link} {n : Note μ}

theorem empty : Books ([] : List (Note μ)) [] := by
  constructor <;> simp [openings, closings]

theorem perm (books : Books log held) (same : held.Perm held') : Books log held' where
  opened_once := books.opened_once
  closed_once := books.closed_once
  opened_first := books.opened_first
  numbered := books.numbered
  held_once := same.nodup_iff.mp books.held_once
  mem_held l := same.mem_iff.symm.trans (books.mem_held l)

/-- One more note: what it says to be closed was open. -/
theorem opened_first_append (books : Books log held)
    (own : closings [n] ⊆ openings log) (k : Nat) :
    closings ((log ++ [n]).take k) ⊆ openings ((log ++ [n]).take k) := by
  by_cases short : k ≤ log.length
  · rw [List.take_append_of_le_length short]
    exact books.opened_first k
  · have whole : (log ++ [n]).take k = log ++ [n] :=
      List.take_of_length_le (by rw [List.length_append, List.length_singleton]; omega)
    have before := books.opened_first log.length
    rw [List.take_length] at before
    rw [whole, closings_append, openings_append, List.append_subset]
    exact ⟨List.subset_append_of_subset_left _ before, List.subset_append_of_subset_left _ own⟩

theorem other (books : Books log held) (unopened : n.opened? = none) (unclosed : n.closed? = none) :
    Books (log ++ [n]) held := by
  have opened : openings (log ++ [n]) = openings log := by simp [openings, unopened]
  have closed : closings (log ++ [n]) = closings log := by simp [closings, unclosed]
  refine ⟨by rw [opened]; exact books.opened_once, by rw [closed]; exact books.closed_once,
    books.opened_first_append (by simp [closings, unclosed]), ?_, books.held_once, ?_⟩
  · rw [opened, List.length_append]
    exact fun l member => Nat.lt_succ_of_lt (books.numbered l member)
  · rw [opened, closed]
    exact books.mem_held

theorem enter (books : Books log held) (fresh : l.number = log.length) :
    Books (log ++ [.opened l]) (l :: held) := by
  have opened : openings (log ++ [.opened l]) = openings log ++ [l] := by simp [openings, Note.opened?]
  have closed : closings (log ++ [.opened l]) = closings log := by simp [closings, Note.closed?]
  have new : l ∉ openings log := fun member => absurd (books.numbered l member) (by omega)
  have unclosed : l ∉ closings log := fun member => by
    have before := books.opened_first log.length
    rw [List.take_length] at before
    exact new (before member)
  refine ⟨?_, by rw [closed]; exact books.closed_once,
    books.opened_first_append nofun, ?_, ?_, ?_⟩
  · rw [opened, List.nodup_append]
    refine ⟨books.opened_once, by simp, ?_⟩
    rintro a member _ single rfl
    exact new (List.mem_singleton.mp single ▸ member)
  · rw [opened, List.forall_mem_append, List.length_append]
    refine ⟨fun m member => Nat.lt_succ_of_lt (books.numbered m member), ?_⟩
    simp [fresh]
  · exact List.nodup_cons.mpr ⟨fun member => new ((books.mem_held l).mp member).1, books.held_once⟩
  · intro m
    rw [opened, closed, List.mem_cons, books.mem_held m, List.mem_append, List.mem_singleton]
    constructor
    · rintro (rfl | ⟨before, still⟩)
      · exact ⟨Or.inr rfl, unclosed⟩
      · exact ⟨Or.inl before, still⟩
    · rintro ⟨before | rfl, still⟩
      · exact Or.inr ⟨before, still⟩
      · exact Or.inl rfl

theorem close (books : Books log (l :: held)) : Books (log ++ [.closed l]) held := by
  have opened : openings (log ++ [.closed l]) = openings log := by simp [openings, Note.opened?]
  have closed : closings (log ++ [.closed l]) = closings log ++ [l] := by simp [closings, Note.closed?]
  obtain ⟨before, still⟩ := (books.mem_held l).mp List.mem_cons_self
  obtain ⟨other, once⟩ := List.nodup_cons.mp books.held_once
  refine ⟨by rw [opened]; exact books.opened_once, ?_, books.opened_first_append ?_, ?_, once, ?_⟩
  · rw [closed, List.nodup_append]
    refine ⟨books.closed_once, by simp, ?_⟩
    rintro a member _ single rfl
    exact still (List.mem_singleton.mp single ▸ member)
  · simpa [closings, Note.closed?] using before
  · rw [opened, List.length_append]
    exact fun m member => Nat.lt_succ_of_lt (books.numbered m member)
  · intro m
    have own := books.mem_held m
    rw [opened, closed, List.mem_append, List.mem_singleton]
    constructor
    · intro member
      obtain ⟨opened, unclosed⟩ := own.mp (List.mem_cons_of_mem l member)
      exact ⟨opened, not_or.mpr ⟨unclosed, fun same => other (same ▸ member)⟩⟩
    · rintro ⟨opened, unclosed⟩
      obtain ⟨unclosed, different⟩ := not_or.mp unclosed
      exact (List.mem_cons.mp (own.mpr ⟨opened, unclosed⟩)).resolve_left different

theorem write (books : Books log held) {notes : List (Note μ)}
    (unopened : ∀ n ∈ notes, n.opened? = none) (unclosed : ∀ n ∈ notes, n.closed? = none) :
    Books (log ++ notes) held := by
  induction notes generalizing log with
  | nil => rwa [List.append_nil]
  | cons n notes ih =>
    rw [List.append_cons]
    refine ih (books.other (unopened n List.mem_cons_self) (unclosed n List.mem_cons_self))
      (fun m member => unopened m (List.mem_cons_of_mem n member))
      (fun m member => unclosed m (List.mem_cons_of_mem n member))

/-- A connection that was held and is not held any more has been closed. -/
theorem closed_of_released {log' : List (Note μ)} (books : Books log held) (books' : Books log' held')
    (longer : log <+: log') (own : l ∈ held) (released : l ∉ held') : l ∈ closings log' := by
  obtain ⟨more, rfl⟩ := longer
  by_contra unclosed
  have before := ((books.mem_held l).mp own).1
  exact released ((books'.mem_held l).mpr
    ⟨by rw [openings_append]; exact List.mem_append_left _ before, unclosed⟩)

/-- Where nothing more is held than before, all that was opened meanwhile has been closed. -/
theorem closed_of_opened {log' : List (Note μ)} (books : Books log held) (books' : Books log' held')
    (fewer : held' ⊆ held) (opened : l ∈ openings log') (new : l ∉ openings log) : l ∈ closings log' := by
  by_contra unclosed
  exact new ((books.mem_held l).mp (fewer ((books'.mem_held l).mpr ⟨opened, unclosed⟩))).1

theorem not_mem_held {links : List Link} (books : Books log (links ++ held)) (own : l ∈ links) : l ∉ held :=
  fun member => (List.nodup_append.mp books.held_once).2.2 l own l member rfl

/-- Where some connections are not held any more, and no others are, those have been closed and so has
all that was opened meanwhile. -/
theorem released {links : List Link} {log' : List (Note μ)} (books : Books log (links ++ held))
    (books' : Books log' held) (longer : log <+: log') :
    (∀ l ∈ links, l ∈ closings log') ∧ ∀ l ∈ openings log', l ∉ openings log → l ∈ closings log' :=
  ⟨fun _ own => books.closed_of_released books' longer (List.mem_append_left _ own) (books.not_mem_held own),
    fun _ => books.closed_of_opened books' (List.subset_append_right _ _)⟩

end Books

/-- Whether a call that may give some commands may leave a note. It prints nothing and works on no file. -/
def Note.Fits (commands : String → Prop) : Note μ → Prop
  | .opened _ | .closed _ | .seen _ => True
  | .sent _ bytes => Wire.Speech commands bytes
  | .printed _ | .flushed _ | .filed _ _ => False

variable {commands : String → Prop}

/-- Time goes on, replies are used up, what is written down stays, and what is added to it fits. -/
structure Passes (commands : String → Prop) (w w' : Outside μ) : Prop where
  later : w.now ≤ w'.now
  fewer : w'.replies.length ≤ w.replies.length
  told : ∃ notes, w'.log = w.log ++ notes ∧ ∀ n ∈ notes, n.Fits commands

namespace Passes

theorem refl (w : Outside μ) : Passes commands w w :=
  ⟨Nat.le_refl _, Nat.le_refl _, [], (List.append_nil w.log).symm, by simp⟩

theorem trans {u v w : Outside μ} (first : Passes commands u v) (second : Passes commands v w) :
    Passes commands u w := by
  obtain ⟨notes, log, fit⟩ := first.told
  obtain ⟨notes', log', fit'⟩ := second.told
  refine ⟨Nat.le_trans first.later second.later, Nat.le_trans second.fewer first.fewer, notes ++ notes', ?_,
    List.forall_mem_append.mpr ⟨fit, fit'⟩⟩
  rw [log', log, List.append_assoc]

theorem longer {w w' : Outside μ} (passes : Passes commands w w') : w.log <+: w'.log := by
  obtain ⟨notes, log, -⟩ := passes.told
  exact ⟨notes, log.symm⟩

end Passes

/-- What a call does, if it comes to an end: it takes connections over and leaves others behind, it says
nothing but what fits, and its result is as said. Whatever others hold meanwhile stays theirs. -/
def Does (commands : String → Prop) (x : Trial μ α) (before : List Link) (Q : α → Prop)
    (after : α → List Link) : Prop :=
  ∀ w a w', x w = some (a, w') →
    Q a ∧ Passes commands w w' ∧ ∀ held, Books w.log (before ++ held) → Books w'.log (after a ++ held)

namespace Does

variable {x : Trial μ α} {f : α → Trial μ β} {before before' : List Link} {Q : α → Prop}
  {R : β → Prop} {middle : α → List Link} {after : β → List Link}

theorem pure {a : α} {after : α → List Link} (q : Q a) (same : before = after a) :
    Does commands (Pure.pure a : Trial μ α) before Q after := by
  rintro w b w' ⟨⟩
  exact ⟨q, .refl w, fun _ => same ▸ id⟩

theorem bind (first : Does commands x before Q middle) (second : ∀ a, Q a → Does commands (f a) (middle a) R after) :
    Does commands (x >>= f) before R after := by
  intro w b w' run
  obtain ⟨a, v, run, run'⟩ := bind_eq_some.mp run
  obtain ⟨q, passes, books⟩ := first w a v run
  obtain ⟨r, passes', books'⟩ := second a q v b w' run'
  exact ⟨r, passes.trans passes', fun held start => books' held (books held start)⟩

theorem map {g : α → β} (does : Does commands x before Q middle)
    (result : ∀ a, Q a → R (g a) ∧ after (g a) = middle a) : Does commands (g <$> x) before R after := by
  rw [map_eq_pure_bind]
  refine does.bind fun a q => ?_
  obtain ⟨r, same⟩ := result a q
  exact .pure r same.symm

/-- What a call does not need stays with whoever holds it. -/
theorem frame (does : Does commands x before Q middle) (rest : List Link) :
    Does commands x (before ++ rest) Q fun a => middle a ++ rest := by
  intro w a w' run
  obtain ⟨q, passes, books⟩ := does w a w' run
  refine ⟨q, passes, fun held start => ?_⟩
  rw [List.append_assoc] at start ⊢
  exact books _ start

theorem mono {S : α → Prop} {middle' : α → List Link} (does : Does commands x before Q middle)
    (same : before'.Perm before)
    (weaker : ∀ a, Q a → S a ∧ (middle a).Perm (middle' a)) : Does commands x before' S middle' := by
  intro w a w' run
  obtain ⟨q, passes, books⟩ := does w a w' run
  obtain ⟨s, same'⟩ := weaker a q
  exact ⟨s, passes, fun held start => (books held (start.perm (same.append_right held))).perm
    (same'.append_right held)⟩

end Does

/-- A call that neither opens nor closes a connection. -/
abbrev Quiet (commands : String → Prop) (x : Trial μ α) (Q : α → Prop) : Prop :=
  Does commands x [] Q fun _ => []

theorem Quiet.held {x : Trial μ α} {Q : α → Prop} (quiet : Quiet commands x Q) (held : List Link) :
    Does commands x held Q fun _ => held := by
  simpa using Does.frame quiet held

section Requests

/-- Notes that tell of no connection make no difference to the books. -/
theorem does_ask {answer : Reply → Outside μ → α × Outside μ} {before : List Link} {Q : α → Prop}
    {after : α → List Link}
    (answers : ∀ r w, Q (answer r w).1 ∧ (answer r w).2.now = w.now ∧ (answer r w).2.replies = w.replies ∧
      (∃ notes, (answer r w).2.log = w.log ++ notes ∧ ∀ n ∈ notes, n.Fits commands) ∧
      ∀ held, Books w.log (before ++ held) →
        Books (answer r w).2.log (after (answer r w).1 ++ held)) :
    Does commands (ask answer) before Q after := by
  intro w a w' run
  obtain ⟨r, rest, replies, same⟩ := ask_eq_some.mp run
  obtain ⟨q, now, left, told, books⟩ := answers r { w with replies := rest, now := w.now + r.duration }
  rw [same] at q now left told books
  have fewer : w'.replies.length ≤ w.replies.length := by
    rw [left, replies]
    exact Nat.le_succ _
  exact ⟨q, ⟨by rw [now]; exact Nat.le_add_right _ _, fewer, told⟩, books⟩

theorem quiet_ask {answer : Reply → Outside μ → α × Outside μ}
    (silent : ∀ r w, ∃ notes, (answer r w).2.log = w.log ++ notes ∧ (answer r w).2.now = w.now ∧
      (answer r w).2.replies = w.replies ∧
      ∀ n ∈ notes, (n.opened? = none ∧ n.closed? = none) ∧ n.Fits commands) :
    Quiet commands (ask answer) fun _ => True := by
  refine does_ask fun r w => ?_
  obtain ⟨notes, log, now, left, other⟩ := silent r w
  refine ⟨trivial, now, left, ⟨notes, log, fun n member => (other n member).2⟩, fun held books => ?_⟩
  rw [log]
  exact books.write (fun n member => (other n member).1.1) (fun n member => (other n member).1.2)

end Requests

end ChangeFeed.Trial
