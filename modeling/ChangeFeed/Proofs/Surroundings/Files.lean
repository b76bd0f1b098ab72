import ChangeFeed.Config.Load
import ChangeFeed.Proofs.Checkpoint.Text
import ChangeFeed.Proofs.Surroundings.Trial

/-!
Calls on files that may fail anywhere. Main statements: when the last step of a save has succeeded, the
file reads as the checkpoint; a load from such a file gives the checkpoint or fails, and a load changes
nothing.
-/
namespace ChangeFeed

theorem Config.validate_of_assemble {entries : List (String × Config.Value)}
    {environment : List (String × String)} {settings : Settings}
    (assembled : Config.assemble entries environment = .ok settings) :
    settings.source.validate = .ok () := by
  obtain ⟨found, -, rest⟩ := except_bind_eq_ok assembled
  obtain ⟨_, valid, same⟩ := except_bind_eq_ok rest
  cases same
  exact valid

namespace Trial

variable {μ α β : Type} {v : Volume} {w w' : Outside μ}

section Saving

/-- Steps one after the other, up to the first that fails, and what is written down of them. -/
inductive Performs : Volume → List FileStep → Except IoFault Unit → List (Note μ) → Volume → Prop
  | nil {v : Volume} : Performs v [] (.ok ()) [] v
  | stop {v w : Volume} {step steps e} : Performs v (step :: steps) (.error e) [.filed step (.error e)] w
  | next {v u w : Volume} {step steps result notes} : v.perform step = .ok u →
      Performs u steps result notes w →
      Performs v (step :: steps) result (.filed step (.ok ()) :: notes) w

theorem Performs.filed {steps : List FileStep} {result : Except IoFault Unit} {notes : List (Note μ)}
    {w : Volume} (performs : Performs v steps result notes w) :
    ∀ n ∈ notes, ∃ step outcome, n = .filed step outcome := by
  induction performs with
  | nil => simp
  | stop => simp
  | next _ _ ih => simpa using ih

/-- After the last step of a save the file has the checkpoint. -/
theorem Performs.saved {s : Store} {c : Checkpoint} {result : Except IoFault Unit} {notes : List (Note μ)}
    {w : Volume} (performs : Performs v (s.saveSteps c) result notes w)
    (renamed : .filed (.rename s.draft s.path) (.ok ()) ∈ notes) : w.read s.path = .ok c.toFile := by
  cases performs with
  | stop => simp at renamed
  | next created performs =>
    cases performs with
    | stop => simp at renamed
    | next appended performs =>
      cases performs with
      | stop => simp at renamed
      | next synced performs =>
        cases synced
        cases performs with
        | stop => simp at renamed
        | next moved performs =>
          cases performs
          exact Store.read_of_steps created appended moved

theorem perform_inv {step : FileStep} {result : Except IoFault Unit}
    (run : (FileSystem.perform step : Trial μ _) w = some (result, w')) :
    w'.log = w.log ++ [.filed step result] ∧
      (result = .ok () → w.volume.perform step = .ok w'.volume) := by
  obtain ⟨r, rest, replies, answered⟩ := ask_eq_some.mp run
  unfold perform at answered
  split at answered
  · cases answered
    exact ⟨rfl, nofun⟩
  · split at answered
    · rename_i done
      cases answered
      exact ⟨rfl, fun _ => done⟩
    · cases answered
      exact ⟨rfl, nofun⟩

theorem performAll_inv {steps : List FileStep} {result : Except IoFault Unit}
    (run : (Store.performAll steps : Trial μ _) w = some (result, w')) :
    ∃ notes, w'.log = w.log ++ notes ∧ Performs w.volume steps result notes w'.volume := by
  induction steps generalizing w with
  | nil =>
    cases run
    exact ⟨[], (List.append_nil _).symm, .nil⟩
  | cons step steps ih =>
    obtain ⟨outcome, u, performed, rest⟩ := bind_eq_some.mp run
    obtain ⟨log, done⟩ := perform_inv performed
    cases outcome with
    | error e =>
      cases rest
      exact ⟨_, log, .stop⟩
    | ok =>
      obtain ⟨notes, log', performs⟩ := ih rest
      refine ⟨_ :: notes, ?_, .next (done rfl) performs⟩
      rw [log', log, List.append_assoc, List.singleton_append]

theorem save_inv {s : Store} {c : Checkpoint} {result : Except Error Unit}
    (run : (s.save c : Trial μ _) w = some (result, w')) :
    ∃ notes outcome, w'.log = w.log ++ notes ∧ Performs w.volume (s.saveSteps c) outcome notes w'.volume := by
  obtain ⟨outcome, u, performed, rest⟩ := bind_eq_some.mp run
  cases rest
  obtain ⟨notes, log, performs⟩ := performAll_inv performed
  exact ⟨notes, outcome, log, performs⟩

end Saving

section Loading

/-- A call that only looks at a volume, with what its result is if it comes to an end. -/
def Reads (v : Volume) (x : Trial μ α) (Q : α → Prop) : Prop :=
  ∀ w a w', w.volume = v → x w = some (a, w') → w'.log = w.log ∧ w'.volume = v ∧ Q a

theorem Reads.pure {a : α} {Q : α → Prop} (q : Q a) : Reads v (Pure.pure a : Trial μ α) Q := by
  rintro w _ _ here ⟨⟩
  exact ⟨rfl, here, q⟩

theorem Reads.bind {x : Trial μ α} {f : α → Trial μ β} {Q : α → Prop} {R : β → Prop} (first : Reads v x Q)
    (second : ∀ a, Q a → Reads v (f a) R) : Reads v (x >>= f) R := by
  intro w b w' here run
  obtain ⟨a, u, run, run'⟩ := bind_eq_some.mp run
  obtain ⟨log, here', q⟩ := first w a u here run
  obtain ⟨log', here'', r⟩ := second a q u b w' here' run'
  exact ⟨log'.trans log, here'', r⟩

theorem look_reads (question : Volume → Except IoFault α) :
    Reads v (look question : Trial μ _) fun result => result = question v ∨ ∃ e, result = .error e := by
  intro w a w' here run
  obtain ⟨r, rest, replies, answered⟩ := ask_eq_some.mp run
  split at answered
  · cases answered
    exact ⟨rfl, here, .inr ⟨_, rfl⟩⟩
  · cases answered
    exact ⟨rfl, here, .inl (congrArg question here)⟩

theorem readText_reads (path : String) :
    Reads v (Config.readText? path : Trial μ (Option String)) fun _ => True := by
  refine (look_reads _).bind fun bytes _ => ?_
  cases bytes <;> exact .pure trivial

theorem findFile_reads (path : String) (formats : List Config.Format) :
    Reads v (Config.findFile path formats : Trial μ _) fun _ => True := by
  induction formats with
  | nil => exact .pure trivial
  | cons f fs ih =>
    refine (readText_reads _).bind fun text _ => ?_
    cases text with
    | some => exact .pure trivial
    | none => exact ih

/-- Settings that are loaded have been checked. -/
theorem settings_reads (path : String) (environment : List (String × String)) :
    Reads v (Config.load path environment : Trial μ (Except Error Settings)) fun result =>
      ∀ settings, result = .ok settings → settings.source.validate = .ok () := by
  have file : Reads v (Config.openFile path : Trial μ _) fun _ => True := by
    refine (readText_reads path).bind fun text _ => ?_
    cases text with
    | some => exact .pure trivial
    | none => exact findFile_reads path _
  refine file.bind fun found _ => ?_
  obtain _ | ⟨format, text⟩ := found
  · exact .pure (by rintro _ ⟨⟩)
  · dsimp only
    cases format.read? text with
    | none => exact .pure (by rintro _ ⟨⟩)
    | some entries => exact .pure fun _ => Config.validate_of_assemble

/-- A checkpoint that the file has is loaded, if the load does not fail. -/
theorem load_reads (s : Store) :
    Reads v (s.load : Trial μ (Except Error (Option Checkpoint))) fun result =>
      ∀ c : Checkpoint, v.read s.path = .ok c.toFile →
        result = .ok (some c.asRead) ∨ ∃ e, result = .error e := by
  refine (look_reads _).bind fun found own => ?_
  cases found with
  | error e => exact .pure fun _ _ => .inr ⟨_, rfl⟩
  | ok there =>
    cases there with
    | false =>
      refine .pure fun c file => ?_
      rw [Volume.hasEntry_of_read file] at own
      simp at own
    | true =>
      refine (look_reads _).bind fun bytes own => ?_
      cases bytes with
      | error e => exact .pure fun _ _ => .inr ⟨_, rfl⟩
      | ok bytes =>
        refine .pure fun c file => .inl ?_
        rw [file] at own
        obtain same | ⟨e, failed⟩ := own
        · cases same
          rw [Checkpoint.ofFile_toFile]
          rfl
        · cases failed

end Loading

end Trial

end ChangeFeed
