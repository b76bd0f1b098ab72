import ChangeFeed.Proofs.Source.Ownership
import ChangeFeed.Proofs.Surroundings.Minutes

/-!
Setups and starts that fail. Main statement: at whatever step they fail, they close what they have
opened and leave the source as it was, but for what a start takes over; and a setup asks the server for
one thing after the other, each only once the one before has succeeded.
-/
namespace ChangeFeed.Trial

open Session

variable {δ μ σ : Type}

/-- What a setup asks for once it is connected. -/
def plan (config : SourceConfig) (k : Nat) : List Request :=
  [.refresh, .run k .installExtension] ++
    if config.createSlot then [.run k (.createSlot config.slot)] else []

/-- The slot was there already and is kept. -/
def Entry.Kept (e : Entry) : Prop :=
  (∃ k slot, e.request = .run k (.createSlot slot)) ∧
    ∃ fault, e.failure = some (.postgres fault) ∧ fault.state = some Control.duplicateObject

/-- Minutes of a setup that ended with such a failure, or with none: what was asked is the plan up to
where something failed. -/
structure InOrder (config : SourceConfig) (k : Nat) (failure : Option Error) (steps : List Entry) : Prop where
  planned : steps.map Entry.request <+: plan config k
  succeeded : ∀ e ∈ steps.dropLast, e.failure = none
  done : failure = none →
    steps.map Entry.request = plan config k ∧ ∀ e ∈ steps, e.failure = none ∨ e.Kept
  failed : ∀ fault, failure = some fault → ∀ e ∈ steps.getLast?, e.failure = some fault ∧ ¬e.Kept

namespace InOrder

variable {config : SourceConfig} {k : Nat} {e : Entry}

theorem nothing (config : SourceConfig) (k : Nat) (fault : Error) : InOrder config k (some fault) [] :=
  ⟨List.nil_prefix, by simp, nofun, by simp⟩

theorem broken (before : List Entry) {fault : Error}
    (planned : (before ++ [e]).map Entry.request <+: plan config k)
    (succeeded : ∀ b ∈ before, b.failure = none) (failure : e.failure = some fault) (lost : ¬e.Kept) :
    InOrder config k (some fault) (before ++ [e]) := by
  refine ⟨planned, by rwa [List.dropLast_concat], nofun, ?_⟩
  rw [List.getLast?_concat]
  rintro _ ⟨⟩ _ ⟨⟩
  exact ⟨failure, lost⟩

theorem complete (before : List Entry) (planned : (before ++ [e]).map Entry.request = plan config k)
    (succeeded : ∀ b ∈ before, b.failure = none) (done : e.failure = none ∨ e.Kept) :
    InOrder config k none (before ++ [e]) := by
  refine ⟨planned ▸ List.prefix_rfl, by rwa [List.dropLast_concat], fun _ => ⟨planned, ?_⟩, nofun⟩
  rw [List.forall_mem_append, List.forall_mem_singleton]
  exact ⟨fun b member => .inl (succeeded b member), done⟩

end InOrder

theorem createSlot_records (k : Nat) (slot : String) :
    Records (Control.createSlot k slot : Minuted μ _) (Control.createSlot k slot) fun r added =>
      ∃ e : Entry, added = [e] ∧ e.request = .run k (.createSlot slot) ∧
        (e.failure = failure? r ∧ ¬e.Kept ∨ r = .ok () ∧ e.Kept) := by
  refine (perform_records k _).bind fun result added asked => ?_
  subst asked
  -- Every outcome but a slot that is there already is told as it is.
  have other {r : Except Error Unit} (new : ∀ fault, r = .error (.postgres fault) →
      fault.state ≠ some Control.duplicateObject) :
      Records (pure r : Minuted μ _) (pure r) fun r' more => ∃ e : Entry,
        [⟨.run k (.createSlot slot), failure? r⟩] ++ more = [e] ∧ e.request = .run k (.createSlot slot) ∧
          (e.failure = failure? r' ∧ ¬e.Kept ∨ r' = .ok () ∧ e.Kept) := by
    refine .pure ⟨_, rfl, rfl, .inl ⟨rfl, ?_⟩⟩
    rintro ⟨-, fault, failure, duplicate⟩
    cases r with
    | ok => cases failure
    | error e =>
      cases failure
      exact new fault rfl duplicate
  split
  · rename_i fault
    split
    · rename_i duplicate
      exact .pure ⟨_, rfl, rfl, .inr ⟨rfl, ⟨k, slot, rfl⟩, fault, rfl, duplicate⟩⟩
    · rename_i new
      refine other ?_
      rintro _ ⟨⟩
      exact new
  · rename_i unlike
    exact other fun fault same => absurd same (unlike fault)

section Setup

variable [Control.SchemaLoader (Trial μ) σ]

theorem equip_records (config : SourceConfig) (build : Nat → Except Error (σ × δ)) (k : Nat) :
    Records (Source.equip config build k : Minuted μ _) (Source.equip config build k) fun r added =>
      InOrder config k (failure? r) added := by
  unfold Source.equip
  cases build k with
  | error e => exact .pure (.nothing config k e)
  | ok x =>
    obtain ⟨loader, decoder⟩ := x
    refine (Records.entered _ _).bind fun refreshed added asked => ?_
    subst asked
    obtain ⟨_ | _, loader⟩ := refreshed
    · exact .pure (InOrder.broken [] ⟨_, rfl⟩ (by simp) rfl (by simp [Entry.Kept]))
    refine (perform_records k _).bind fun installed added asked => ?_
    subst asked
    cases installed with
    | error e =>
      exact .pure (InOrder.broken [⟨.refresh, none⟩] ⟨_, rfl⟩ (by simp) rfl (by simp [Entry.Kept]))
    | ok =>
      refine .ite (fun slotted => ?_) fun slotted => ?_
      · refine (createSlot_records k config.slot).bind fun created added asked => ?_
        obtain ⟨e, rfl, request, ended⟩ := asked
        let before : List Entry := [⟨.refresh, none⟩, ⟨.run k .installExtension, none⟩]
        have planned : (before ++ [e]).map Entry.request = plan config k := by
          simp [before, plan, slotted, request]
        have succeeded : ∀ b ∈ before, b.failure = none := by simp [before]
        rcases ended with ⟨failure, lost⟩ | ⟨rfl, kept⟩
        · cases created with
          | error => exact .pure (InOrder.broken before (planned ▸ List.prefix_rfl) succeeded failure lost)
          | ok => exact .pure (InOrder.complete before planned succeeded (.inl failure))
        · exact .pure (InOrder.complete before planned succeeded (.inr kept))
      · refine .pure (InOrder.complete [⟨.refresh, none⟩] ?_ (by simp) (.inl rfl))
        simp [plan, slotted]

/-- Minutes of a setup on the connection `k` that ended with such a failure, or with none: it was let in,
and then it went by the plan. -/
def Minutes (config : SourceConfig) (k : Nat) (failure : Option Error) (added : List Entry) : Prop :=
  ∃ checks steps, added = checks ++ steps ∧ Checks checks ∧ InOrder config k failure steps

theorem provision_records (config : SourceConfig) (build : Nat → Except Error (σ × δ)) :
    Records (Source.provision config build .empty : Minuted μ _)
      (Source.provision config build .empty :
        Trial μ (Except Error (σ × δ) × Connections Nat (Connection Nat)))
      fun p added => ∃ k, Minutes config k (failure? p.1) added ∧
        ∀ x, p.1 = .ok x → p.2 = ⟨some k, none⟩ := by
  refine (openControl_records _ _ _).bind fun opened checks own => ?_
  obtain ⟨result, c⟩ := opened
  obtain ⟨checked, told⟩ := own
  cases result with
  | error e => exact .pure ⟨0, ⟨checks, [], rfl, checked, .nothing config 0 e⟩, nofun⟩
  | ok k =>
    refine (equip_records config build k).bind fun equipped steps inOrder => ?_
    exact .pure ⟨k, ⟨checks, steps, by rw [List.append_nil], checked, inOrder⟩, fun _ _ => told k rfl⟩

theorem setup_records (s : Source Nat Nat σ δ μ) (build : Nat → Except Error (σ × δ)) :
    Records (s.setup build : Minuted μ _) (s.setup build) fun p added =>
      ∃ k, Minutes s.config k (failure? p.1) added ∧ (p.1 = .ok () → ∃ x,
        p.2 = { s with connections := some ⟨some k, none⟩, collaborators := some x }) := by
  unfold Source.setup
  refine .ite (fun _ => .pure ⟨0, ⟨[], [], rfl, checks_nil, .nothing _ 0 _⟩, nofun⟩) fun _ => ?_
  refine (provision_records s.config build).bind fun provided added own => ?_
  obtain ⟨provided, c⟩ := provided
  obtain ⟨k, minutes, told⟩ := own
  rw [← List.append_nil added] at minutes
  cases provided with
  | error => exact .silent (close_both_records c) fun _ => .pure ⟨k, minutes, nofun⟩
  | ok x =>
    have ready : ∃ y, { s with connections := some c, collaborators := some x } =
        { s with connections := some ⟨some k, none⟩, collaborators := some y } :=
      ⟨x, congrArg (fun c => { s with connections := some c, collaborators := some x }) (told x rfl)⟩
    cases s.connections with
    | none => exact .pure ⟨k, minutes, fun _ => ready⟩
    | some old => exact .silent (close_both_records old) fun _ => .pure ⟨k, minutes, fun _ => ready⟩

/-- A setup that fails leaves the source as it was, and nothing open. -/
theorem setup_failed [QuietLoader μ σ] {s s' : Source Nat Nat σ δ μ} {w w' : Outside μ}
    {build : Nat → Except Error (σ × δ)} {fault : Error}
    (run : (s.setup build : Trial μ _) w = some ((.error fault, s'), w')) :
    s' = s ∧ Passes unrestricted w w' ∧ ∀ held, Books w.log held → Books w'.log held := by
  cases prepares_of_setup run with
  | refused => exact ⟨rfl, .refl w, fun _ => id⟩
  | @failed _ c u _ _ _ provisioned closed =>
    obtain ⟨⟨unopened, -⟩, passes, books⟩ := provision_does unrestricted _ _ w _ u provisioned
    obtain ⟨-, passes', books'⟩ := close_both_does (usable_of_unopened unrestricted unopened) u _ w' closed
    exact ⟨rfl, passes.trans passes', fun held start => books' held (books held start)⟩

end Setup

section Failing

variable {s s' : Source Nat Nat σ δ μ} {w w' : Outside μ}

/-- A start that fails takes over what a setup has left, and lets it go. -/
theorem start_failed (idle : s.isCapturing = false) {k : Nat} (left : s.connections = some ⟨some k, none⟩)
    {x : σ × δ} (found : s.collaborators = some x) {checkpoint : Checkpoint} {fault : Error}
    (run : (s.start checkpoint : Trial μ _) w = some ((.failed fault, s'), w')) :
    s' = { s with connections := none, collaborators := none } ∧ Passes unrestricted w w' ∧
      ∀ held, Books w.log (.control k :: held) → Books w'.log held := by
  cases launches_of_start run with
  | refused capturing => rw [idle] at capturing; cases capturing
  | unready _ absent => rw [left] at absent; cases absent
  | unequipped _ _ absent => rw [found] at absent; cases absent
  | @unopened c _ _ c' u _ _ _ present _ opened closed =>
    rw [left] at present
    cases present
    have may : MayStart unrestricted s.config.slot checkpoint := ⟨trivial, fun _ => trivial⟩
    obtain ⟨⟨-, usable, -⟩, passes, books⟩ := openStream_does s.config rfl may w _ u opened
    obtain ⟨-, passes', books'⟩ := close_both_does usable u _ w' closed
    exact ⟨rfl, passes.trans passes', fun held start => books' held (books held start)⟩

/-- These connections were closed meanwhile, and so were all that were opened. -/
def Releases (w w' : Outside μ) (links : List Link) : Prop :=
  ∀ held, Books w.log (links ++ held) → Books w'.log held ∧ (∀ l ∈ links, l ∈ closings w'.log) ∧
    ∀ l ∈ openings w'.log, l ∉ openings w.log → l ∈ closings w'.log

theorem releases {links : List Link} (passes : Passes unrestricted w w')
    (books : ∀ held, Books w.log (links ++ held) → Books w'.log held) : Releases w w' links :=
  fun held start => ⟨books held start, start.released (books held start) passes.longer⟩

end Failing

section Calls

variable [Control.SchemaLoader (Trial μ) σ] [QuietLoader μ σ] {s : Source Nat Nat σ δ μ}

/-- While no feed is at work, a setup that fails leaves the source as it was, and a start that fails
takes only what the setup before it has left; both close what they have opened or taken over. However a
setup ends, its minutes are in order. -/
theorem failed_calls_release (idle : s.isCapturing = false) (w : Outside μ) :
    (∀ build result s' w', (s.setup build : Trial μ _) w = some ((result, s'), w') →
      (∃ minutes k, (s.setup build : Minuted μ _).run [] w = some (((result, s'), minutes), w') ∧
        Minutes s.config k (failure? result) minutes ∧ (result = .ok () → ∃ x,
          s' = { s with connections := some ⟨some k, none⟩, collaborators := some x })) ∧
      ∀ fault, result = .error fault → s' = s ∧ Releases w w' []) ∧
    (∀ k x checkpoint fault s' w', s.connections = some ⟨some k, none⟩ → s.collaborators = some x →
      (s.start checkpoint : Trial μ _) w = some ((.failed fault, s'), w') →
      s' = { s with connections := none, collaborators := none } ∧ Releases w w' [.control k]) := by
  refine ⟨fun build result s' w' run => ⟨?_, ?_⟩, fun k x checkpoint fault s' w' left found run => ?_⟩
  · obtain ⟨minutes, ⟨k, inOrder, ready⟩, minuted⟩ := setup_records s build w _ w' run
    exact ⟨minutes, k, minuted [], inOrder, ready⟩
  · rintro fault rfl
    obtain ⟨same, passes, books⟩ := setup_failed run
    exact ⟨same, releases passes books⟩
  · obtain ⟨same, passes, books⟩ := start_failed idle left found run
    exact ⟨same, releases passes books⟩

/-- A second setup finds that the slot may not be created, and the start after it that nobody answers. -/
theorem releases_after_refused_slot :
    let config : SourceConfig := ⟨"host=db user=feed", "host=db user=feed", "changes", true, 5, 100, 30⟩
    let source : Source Nat Nat Unit Pglogical.Relations Pglogical.Message :=
      ⟨config, some ⟨some 0, none⟩, some ((), .empty), ⟨⟨7, by decide⟩⟩, none, none⟩
    let reply : Reply :=
      ⟨1, 0, .done (), .done (), .ok [], .ok (), .error .timedOut, .ok (), none, .ok (), "", none, .ok (),
        false, none⟩
    let refusal : Reply := { reply with rows := .error ⟨"permission denied", some "42501"⟩ }
    let outside : Outside Pglogical.Message :=
      ⟨List.replicate 5 reply ++ List.replicate 5 refusal, 0, .empty, [.opened (.control 0)]⟩
    (∃ fault w', (source.setup fun _ => .ok ((), .empty) : Trial Pglogical.Message _) outside =
      some ((.error fault, source), w') ∧ closings w'.log = [.control 1] ∧ Books w'.log [.control 0]) ∧
    ∃ fault s' w',
      (source.start default : Trial Pglogical.Message _) outside = some ((.failed fault, s'), w') ∧
      closings w'.log = [.control 0] ∧ Books w'.log [] ∧ s'.tracker = source.tracker := by
  intro config source reply refusal outside
  have idle : source.isCapturing = false := rfl
  have books : Books outside.log [.control 0] := Books.empty.enter rfl
  have refused : ((source.setup fun _ => .ok ((), .empty) : Trial Pglogical.Message _) outside).map
      (fun p => ((failure? p.1.1).isSome, closings p.2.log)) = some (true, [.control 1]) := by
    decide +kernel
  have unanswered : ((source.start default : Trial Pglogical.Message _) outside).map
      (fun p => ((match p.1.1 with | .failed _ => true | _ => false), closings p.2.log)) =
        some (true, [.control 0]) := by
    decide +kernel
  obtain ⟨setups, starts⟩ := failed_calls_release idle outside
  refine ⟨?_, ?_⟩
  · obtain ⟨⟨⟨result, s'⟩, w'⟩, run, told⟩ := Option.map_eq_some_iff.mp refused
    obtain ⟨failed, closed⟩ := Prod.mk.inj told
    cases result with
    | ok => cases failed
    | error fault =>
      obtain ⟨same, released⟩ := (setups _ _ s' w' run).2 fault rfl
      exact ⟨fault, w', same ▸ run, closed, (released [.control 0] books).1⟩
  · obtain ⟨⟨⟨result, s'⟩, w'⟩, run, told⟩ := Option.map_eq_some_iff.mp unanswered
    obtain ⟨failed, closed⟩ := Prod.mk.inj told
    cases result with
    | started | panicked => cases failed
    | failed fault =>
      obtain ⟨same, released⟩ := starts 0 ((), .empty) default fault s' w' rfl rfl run
      exact ⟨fault, s', w', run, closed, (released [] books).1, same ▸ rfl⟩

end Calls

end ChangeFeed.Trial
