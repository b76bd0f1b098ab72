import ChangeFeed.Proofs.Surroundings.Calls

/-!
Minutes of what is asked of a server over control connections and by loaders. Main statements: a call
runs with minutes as it runs without, and what its minutes are, from single requests to the end of a
setup.
-/
namespace ChangeFeed.Trial

open Session

inductive Request
  | refresh
  | run (control : Nat) (statement : Control.Statement)

/-- A request and how it failed, if it did. -/
structure Entry where
  request : Request
  failure : Option Error

/-- Calls among the same surroundings, of which minutes are taken. -/
abbrev Minuted (μ : Type) := StateT (List Entry) (Trial μ)

def failure? {α : Type} : Except Error α → Option Error
  | .ok _ => none
  | .error e => some e

section Model

variable {μ α : Type}

/-- A call that is entered in the minutes when it has ended. -/
def entered (call : Trial μ α) (entry : α → Entry) : Minuted μ α := do
  let a ← call
  modify (· ++ [entry a])
  return a

instance : Control.Database (Minuted μ) Nat where
  reach route limit deadline := liftM (Control.Database.reach route limit deadline : Trial μ _)
  login k target deadline := liftM (Control.Database.login k target deadline : Trial μ _)
  execute k s := entered (Control.Database.execute k s) fun result =>
    ⟨.run k s, failure? (result.mapError .postgres)⟩
  release k := liftM (Control.Database.release k : Trial μ _)

instance {σ : Type} [Control.SchemaLoader (Trial μ) σ] : Control.SchemaLoader (Minuted μ) σ where
  refresh loader := entered (Control.SchemaLoader.refresh loader) fun p => ⟨.refresh, failure? p.1⟩

instance : Network (Minuted μ) Nat where
  dial host port limit := liftM (Network.dial host port limit : Trial μ _)
  send i bytes := liftM (Network.send i bytes : Trial μ _)
  receive i := liftM (Network.receive i : Trial μ _)
  poll i := liftM (Network.poll i : Trial μ _)
  shut i := liftM (Network.shut i : Trial μ _)
  drop i := liftM (Network.drop i : Trial μ _)
  nonce := liftM (Network.nonce : Trial μ _)

instance : Time.Clock (Minuted μ) where
  now := liftM (Time.Clock.now : Trial μ _)
  wall := liftM (Time.Clock.wall : Trial μ _)
  wait limit := liftM (Time.Clock.wait limit : Trial μ _)

end Model

/-- A call comes to the same with minutes, whatever is in them already, and adds to them as said. -/
def Records {μ α : Type} (minuted : Minuted μ α) (call : Trial μ α) (P : α → List Entry → Prop) : Prop :=
  ∀ w a w', call w = some (a, w') →
    ∃ added, P a added ∧ ∀ minutes, minuted.run minutes w = some ((a, minutes ++ added), w')

namespace Records

variable {μ α β : Type} {x : Minuted μ α} {y : Trial μ α} {f : α → Minuted μ β} {g : α → Trial μ β}
  {P Q : α → List Entry → Prop} {R : β → List Entry → Prop}

theorem pure {a : α} (p : P a []) : Records (Pure.pure a : Minuted μ α) (Pure.pure a) P := by
  rintro w _ _ ⟨⟩
  exact ⟨[], p, fun minutes => by rw [List.append_nil]; rfl⟩

/-- The end of a call with something in its minutes. -/
theorem ending {b : β} {added : List Entry} (r : R b added) :
    Records (Pure.pure b : Minuted μ β) (Pure.pure b) fun b more => R b (added ++ more) :=
  .pure (by rwa [List.append_nil])

theorem bind (first : Records x y P)
    (second : ∀ a added, P a added → Records (f a) (g a) fun b more => R b (added ++ more)) :
    Records (x >>= f) (y >>= g) R := by
  intro w b w' run
  obtain ⟨a, u, run, rest⟩ := bind_eq_some.mp run
  obtain ⟨added, p, minuted⟩ := first w a u run
  obtain ⟨more, r, minuted'⟩ := second a added p u b w' rest
  refine ⟨added ++ more, r, fun minutes => ?_⟩
  rw [StateT.run_bind, bind_eq_some, ← List.append_assoc]
  exact ⟨_, u, minuted minutes, minuted' _⟩

theorem mono (records : Records x y P) (weaker : ∀ a added, P a added → Q a added) : Records x y Q := by
  intro w a w' run
  obtain ⟨added, p, minuted⟩ := records w a w' run
  exact ⟨added, weaker a added p, minuted⟩

theorem lift (y : Trial μ α) : Records (liftM y) y fun _ added => added = [] := by
  intro w a w' run
  refine ⟨[], rfl, fun minutes => ?_⟩
  rw [List.append_nil]
  change (y >>= fun a => Pure.pure (a, minutes)) w = _
  exact bind_eq_some.mpr ⟨a, w', run, rfl⟩

theorem entered (y : Trial μ α) (entry : α → Entry) :
    Records (entered y entry) y fun a added => added = [entry a] := by
  intro w a w' run
  refine ⟨[entry a], rfl, fun minutes => ?_⟩
  have minuted : (Trial.entered y entry).run minutes = y >>= fun a => Pure.pure (a, minutes ++ [entry a]) := by
    simp [Trial.entered]
  rw [minuted]
  exact bind_eq_some.mpr ⟨a, w', run, rfl⟩

theorem ite {c : Prop} [Decidable c] {x' : Minuted μ α} {y' : Trial μ α} (yes : c → Records x y P)
    (no : ¬c → Records x' y' P) : Records (if c then x else x') (if c then y else y') P := by
  by_cases holds : c
  · rw [if_pos holds, if_pos holds]
    exact yes holds
  · rw [if_neg holds, if_neg holds]
    exact no holds

/-- A call that leaves nothing in the minutes, before another. -/
theorem silent (first : Records x y fun _ added => added = []) (second : ∀ a, Records (f a) (g a) R) :
    Records (x >>= f) (y >>= g) R :=
  first.bind fun a added none => by
    subst none
    exact second a

end Records

section Control

open ChangeFeed.Control

variable {μ : Type}

/-- Nothing was asked but of what kind a session is. -/
def Checks (added : List Entry) : Prop := ∀ e ∈ added, ∃ k, e.request = .run k .readOnly

theorem checks_nil : Checks [] := by simp [Checks]

theorem enter_records (k : Nat) (t : Conninfo.Target) (deadline : Nat) :
    Records (enter k t deadline : Minuted μ _) (enter k t deadline) fun _ => Checks := by
  unfold enter
  refine .ite (fun _ => .pure checks_nil) fun _ => ?_
  refine .ite (fun _ => .pure checks_nil) fun _ => ?_
  refine .silent (.lift _) fun login => ?_
  cases login with
  | failed | late => exact .pure checks_nil
  | done =>
    refine .ite (fun _ => .pure checks_nil) fun _ => ?_
    refine .ite (fun _ => .pure checks_nil) fun _ => ?_
    refine (Records.entered _ _).bind fun rows added asked => ?_
    subst asked
    cases rows <;> exact .pure (by simp [Checks])

theorem attempt_records (t : Conninfo.Target) (deadline : Nat) (route : Conninfo.Route) :
    Records (attempt t deadline route : Minuted μ _) (attempt t deadline route)
      fun _ => Checks := by
  refine .silent (.lift _) fun reached => ?_
  cases reached with
  | failed | late => exact .pure (checks_nil)
  | done k =>
    refine (enter_records k t deadline).bind fun entered added checks => ?_
    cases entered with
    | done => exact .ending checks
    | failed | late => exact .silent (.lift _) fun _ => .ending checks

theorem tryAll_records (t : Conninfo.Target) (limit deadline : Nat) (last : String)
    (routes : List Conninfo.Route) :
    Records (tryAll t limit deadline last routes : Minuted μ _) (tryAll t limit deadline last routes)
      fun _ => Checks := by
  induction routes generalizing last with
  | nil => exact .pure (checks_nil)
  | cons route routes ih =>
    refine (attempt_records t deadline route).bind fun attempted added checks => ?_
    cases attempted with
    | done | late => exact .ending checks
    | failed detail =>
      exact (ih detail).mono fun _ more checks' => List.forall_mem_append.mpr ⟨checks, checks'⟩

theorem connect_records (conninfo : String) (limit : Nat) :
    Records (Control.connect conninfo limit : Minuted μ _) (Control.connect conninfo limit)
      fun _ => Checks := by
  unfold Control.connect
  cases Conninfo.Target.ofString conninfo with
  | error => exact .pure (checks_nil)
  | ok t =>
    dsimp only
    cases t.routes with
    | error => exact .pure (checks_nil)
    | ok routes => exact .silent (.lift _) fun now => tryAll_records _ _ _ _ _

theorem perform_records (k : Nat) (s : Statement) :
    Records (Control.perform k s : Minuted μ _) (Control.perform k s) fun r added =>
      added = [⟨.run k s, failure? r⟩] := by
  refine (Records.entered _ _).bind fun rows added asked => .pure ?_
  subst asked
  cases rows <;> rfl

end Control

section Connections

variable {μ : Type}

theorem close_records (c : Connection Nat) :
    Records (c.close : Minuted μ _) c.close fun _ added => added = [] := by
  unfold Connection.close
  refine .ite (fun _ => .pure rfl) fun _ => ?_
  refine .silent ?_ fun flushed => .silent (.lift _) fun shut => .pure rfl
  refine .silent (.lift _) fun sent => ?_
  cases sent <;> exact .pure rfl

theorem close_both_records (c : Connections Nat (Connection Nat)) :
    Records (c.close : Minuted μ _) c.close fun _ added => added = [] := by
  obtain ⟨_ | k, _ | r⟩ := c
  · exact .pure rfl
  · exact .silent (close_records r) fun _ => .pure rfl
  · exact .silent (.lift _) fun _ => .pure rfl
  · exact .silent (close_records r) fun _ => .silent (.lift _) fun _ => .pure rfl

theorem openControl_records (c : Connections Nat (Connection Nat)) (conninfo : String) (limit : Nat) :
    Records (c.openControl conninfo limit : Minuted μ _) (c.openControl conninfo limit)
      fun p added => Checks added ∧ ∀ k, p.1 = .ok k → p.2 = { c with control := some k } := by
  refine (connect_records conninfo limit).bind fun result added checks => ?_
  rw [← List.append_nil added] at checks
  cases result with
  | error => exact .pure ⟨checks, nofun⟩
  | ok k =>
    have opened : ∀ k', Except.ok (ε := Error) k = .ok k' → { c with control := some k } =
        { c with control := some k' } := by
      rintro _ ⟨⟩
      rfl
    obtain ⟨_ | old, replication⟩ := c
    · exact .pure ⟨checks, opened⟩
    · refine (Records.lift _).bind fun _ none empty => ?_
      subst empty
      exact .pure ⟨checks, opened⟩

end Connections

end ChangeFeed.Trial
