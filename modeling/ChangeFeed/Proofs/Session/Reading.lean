import ChangeFeed.Proofs.Wire.Framing
import ChangeFeed.Session.Dialogue

/-!
A plain reading of what a server sends: its messages in turn, and the failure with which they end.
Main statement: as far as a call comes with the bytes that are there, it comes to what the plain
reading of all bytes gives, and it leaves the bytes that are not read yet.
-/
namespace ChangeFeed.Session

open Wire

/-- The failure that a call meets where the server sends no more: it has closed its side, or reading
from the socket fails. -/
def endingError : Except IoFault Unit → Error
  | .ok _ => .connection .closedByServer
  | .error fault => .io fault

/-- What the bytes of a server say, from a place between two frames on, and how it ends. Nothing
follows a message that is malformed. -/
def script (bytes : Bytes) (ending? : Option (Except IoFault Unit)) : List (Except Error Message) :=
  match _h : next? bytes with
  | none => (ending?.map fun e => .error (endingError e)).toList
  | some (.error fault, _) => [.error (.protocol fault)]
  | some (.ok m, rest) => .ok m :: script rest ending?
termination_by bytes.length
decreasing_by exact length_of_next? _h

theorem script_eq (bytes : Bytes) (ending? : Option (Except IoFault Unit)) :
    script bytes ending? =
      match next? bytes with
      | none => (ending?.map fun e => .error (endingError e)).toList
      | some (.error fault, _) => [.error (.protocol fault)]
      | some (.ok m, rest) => .ok m :: script rest ending? := by
  rw [script]
  split <;> rename_i found <;> simp only [found]

/-- Frames are read one by one, and nothing is read of one that is incomplete. -/
theorem script_frames {frames : List (Char × Bytes)} {messages : List Message}
    (whole : List.Forall₂ (fun f m => f.2.length + 4 < 2 ^ 31 ∧
      message (UInt8.ofNat f.1.toNat) f.2 = .ok m) frames messages)
    {tag : Char} {bytes : Bytes} (range : bytes.length + 4 < 2 ^ 31) {n : Nat}
    (cut : n < (Request.frame tag bytes).length) {ending? : Option (Except IoFault Unit)} :
    script ((frames.map fun f => Request.frame f.1 f.2).flatten ++ (Request.frame tag bytes).take n)
      ending? = messages.map .ok ++ (ending?.map fun e => .error (endingError e)).toList := by
  induction whole with
  | nil =>
    rw [List.map_nil, List.flatten_nil, List.nil_append, script_eq,
      next?_take_frame tag bytes range cut]
    rfl
  | cons first _ ih =>
    rw [List.map_cons, List.flatten_cons, List.append_assoc, script_eq, next?_frame _ _ _ first.1,
      first.2]
    exact congrArg _ ih

theorem advance_eq (a : Await) (inbox : Bytes) :
    advance a inbox =
      match next? inbox with
      | none => .starved a inbox
      | some (.error fault, rest) => .done (a.fail (.protocol fault)) rest
      | some (.ok m, rest) =>
        match a.step m with
        | .wait next => advance next rest
        | .send bytes next => .send bytes next rest
        | .done result => .done result rest := by
  rw [advance]
  split
  · rename_i found; simp only [found]
  · rename_i found; simp only [found]
  · rename_i m _ found
    cases step : a.step m <;> simp only [found, step]

namespace Await

/-- What a call makes of messages as they come, with what it leaves of them; nothing if it goes on
waiting. A call that fails leaves nothing that counts. -/
def read (a : Await) :
    List (Except Error Message) → Option (Except Error (Outcome × List (Except Error Message)))
  | [] => none
  | .error e :: rest => some ((a.fail e).map (·, rest))
  | .ok m :: rest =>
    match a.step m with
    | .wait next | .send _ next => next.read rest
    | .done result => some (result.map (·, rest))

/-- Calls that send nothing while they last. -/
def listens : Await → Bool
  | .copyBoth | .recovery _ | .frame => true
  | _ => false

/-- Messages let a call go on waiting. -/
inductive Waits : Await → List Message → Await → Prop
  | nil {a} : Waits a [] a
  | cons {a b c m ms} : a.step m = .wait b → Waits b ms c → Waits a (m :: ms) c

theorem map_fail {α : Type} (a : Await) (e : Error) (f g : Outcome → α) :
    (a.fail e).map f = (a.fail e).map g := by
  cases a <;> rfl

theorem Waits.read_eq {a b : Await} {ms : List Message} (waits : Waits a ms b)
    (rest : List (Except Error Message)) : a.read (ms.map .ok ++ rest) = b.read rest := by
  induction waits with
  | nil => rfl
  | cons goes _ ih => rw [List.map_cons, List.cons_append, read, goes]; exact ih

theorem Waits.append {a b c : Await} {ms ns : List Message} (front : Waits a ms b)
    (back : Waits b ns c) : Waits a (ms ++ ns) c := by
  induction front with
  | nil => exact back
  | cons goes _ ih => exact .cons goes (ih back)

theorem step_of_listens {a : Await} (listens : a.listens = true) (m : Message) :
    (∃ result, a.step m = .done result) ∨ ∃ b, a.step m = .wait b ∧ b.listens = true := by
  unfold step
  split
  · exact Or.inl ⟨_, rfl⟩
  · cases a with
    | copyBoth => cases m <;> simp [onMessage, onCopyBoth, Await.listens]
    | recovery refusal => cases m <;> simp [onMessage, onRecovery, Step.fail, Await.listens]
    | frame => cases m <;> simp [onMessage, onFrame, Step.fail, Await.listens]
    | _ => cases listens

theorem Waits.listens {a b : Await} {ms : List Message} (waits : Waits a ms b)
    (listens : a.listens = true) : b.listens = true := by
  induction waits with
  | nil => exact listens
  | @cons _ _ _ m _ goes _ ih =>
    rcases step_of_listens listens m with ⟨result, done⟩ | ⟨b, goes', listens⟩
    · rw [goes] at done; cases done
    · rw [goes] at goes'
      cases goes'
      exact ih listens

end Await

theorem script_stops (bytes : Bytes) (ending : Except IoFault Unit) :
    ∃ e, .error e ∈ script bytes (some ending) := by
  induction length : bytes.length using Nat.strongRecOn generalizing bytes with
  | _ n ih =>
    rw [script_eq]
    cases next : next? bytes with
    | none => exact ⟨endingError ending, by simp⟩
    | some found =>
      obtain ⟨fault | m, rest⟩ := found
      · exact ⟨.protocol fault, List.mem_singleton_self _⟩
      · obtain ⟨e, member⟩ := ih _ (length ▸ length_of_next? next) rest rfl
        exact ⟨e, List.mem_cons_of_mem _ member⟩

/-- A call does not wait beyond the end of what a server says. -/
theorem Await.read_isSome {items : List (Except Error Message)} {e : Error} (stops : .error e ∈ items)
    (a : Await) : (a.read items).isSome := by
  induction items generalizing a with
  | nil => cases stops
  | cons item rest ih =>
    rcases item with e' | m
    · rfl
    · obtain ⟨⟨⟩⟩ | later := List.mem_cons.mp stops
      rw [read]
      cases a.step m with
      | wait next | send _ next => exact ih later next
      | done => rfl

/-- How far a call comes with the bytes that are there, as the plain reading tells it, whatever
bytes follow. -/
inductive Proceeds (a : Await) (inbox : Bytes) : Progress → Prop
  | starved {ms b rest} : a.Waits ms b → next? rest = none → rest.length ≤ inbox.length →
      (∀ more ending?,
        script (inbox ++ more) ending? = ms.map .ok ++ script (rest ++ more) ending?) →
      Proceeds a inbox (.starved b rest)
  | sends {ms b m bytes next rest} : a.Waits ms b → b.step m = .send bytes next →
      rest.length < inbox.length →
      (∀ more ending?,
        script (inbox ++ more) ending? = ms.map .ok ++ .ok m :: script (rest ++ more) ending?) →
      Proceeds a inbox (.send bytes next rest)
  | done {result rest} :
      (∀ more ending?, a.read (script (inbox ++ more) ending?) =
        some (result.map (·, script (rest ++ more) ending?))) →
      Proceeds a inbox (.done result rest)

theorem Proceeds.after {a b : Await} {inbox rest : Bytes} {m : Message} {p : Progress}
    (next : next? inbox = some (.ok m, rest)) (goes : a.step m = .wait b)
    (proceeds : Proceeds b rest p) : Proceeds a inbox p := by
  have shorter := length_of_next? next
  have front (more : Bytes) (ending? : Option (Except IoFault Unit)) :
      script (inbox ++ more) ending? = .ok m :: script (rest ++ more) ending? := by
    rw [script_eq, next?_append next more]
  cases proceeds with
  | starved waits short left split =>
    exact .starved (.cons goes waits) short (by omega) fun more ending? => by rw [front, split]; rfl
  | sends waits answers left split =>
    exact .sends (.cons goes waits) answers (by omega) fun more ending? => by rw [front, split]; rfl
  | done result =>
    refine .done fun more ending? => ?_
    rw [front, Await.read, goes]
    exact result more ending?

theorem proceeds (a : Await) (inbox : Bytes) : Proceeds a inbox (advance a inbox) := by
  induction length : inbox.length using Nat.strongRecOn generalizing a inbox with
  | _ n ih =>
    rw [advance_eq]
    cases next : next? inbox with
    | none => exact .starved .nil next (Nat.le_refl _) fun _ _ => rfl
    | some found =>
      obtain ⟨fault | m, rest⟩ := found
      · refine .done fun more ending? => ?_
        rw [script_eq, next?_append next]
        exact congrArg some (a.map_fail _ _ _)
      · have front (more : Bytes) (ending? : Option (Except IoFault Unit)) :
            script (inbox ++ more) ending? = .ok m :: script (rest ++ more) ending? := by
          rw [script_eq, next?_append next more]
        cases step : a.step m with
        | wait b =>
          simp only [step]
          exact .after next step (ih _ (length ▸ length_of_next? next) b rest rfl)
        | send bytes b =>
          simp only [step]
          exact .sends .nil step (length_of_next? next) front
        | done result =>
          simp only [step]
          refine .done fun more ending? => ?_
          rw [front, Await.read, step]

/-- The same of a call that listens, which goes on listening. -/
inductive Advances (a : Await) (inbox : Bytes) : Progress → Prop
  | starved {ms b rest} : a.Waits ms b → b.listens = true → next? rest = none →
      (∀ more ending?,
        script (inbox ++ more) ending? = ms.map .ok ++ script (rest ++ more) ending?) →
      Advances a inbox (.starved b rest)
  | done {result rest} :
      (∀ more ending?, a.read (script (inbox ++ more) ending?) =
        some (result.map (·, script (rest ++ more) ending?))) →
      Advances a inbox (.done result rest)

theorem advances {a : Await} (listens : a.listens = true) (inbox : Bytes) :
    Advances a inbox (advance a inbox) := by
  have proceeds := proceeds a inbox
  generalize advance a inbox = progress at proceeds
  cases proceeds with
  | starved waits short _ split => exact .starved waits (waits.listens listens) short split
  | sends waits answers =>
    rcases Await.step_of_listens (waits.listens listens) _ with ⟨result, done⟩ | ⟨b, goes, -⟩
    · rw [done] at answers; cases answers
    · rw [goes] at answers; cases answers
  | done result => exact .done result

end ChangeFeed.Session
