import ChangeFeed.Proofs.Session.Reading
import ChangeFeed.Session.Connection

/-!
A connection to a scripted peer: its bytes arrive cut in any way, with moments between them at which
nothing has arrived. Main statement: whatever becomes of a call, it has taken from the messages of
the server exactly those that a plain reading gives to it, and a call that is dropped while it waits
has lost nothing but the messages that it passed over.
-/
namespace ChangeFeed.Session

open Wire

/-- The other side of a socket: what reading from it gives in turn, with the moments at which
nothing has arrived, and the answers to what is sent. -/
structure Peer where
  arrivals : List (Option Arrival)
  sends : List (Except IoFault Unit)
deriving Inhabited

/-- Sockets as calls meet them; a call that waits for ever has no outcome. -/
abbrev Meeting := StateT Peer Option

namespace Peer

/-- The bytes of the arrivals up to the end. -/
def bytes : List (Option Arrival) → Bytes
  | [] => []
  | none :: rest => bytes rest
  | some (.ok (some bs)) :: rest => bs ++ bytes rest
  | some _ :: _ => []

/-- How the arrivals end, if they do. -/
def ending? : List (Option Arrival) → Option (Except IoFault Unit)
  | [] => none
  | none :: rest | some (.ok (some _)) :: rest => ending? rest
  | some (.ok none) :: _ => some (.ok ())
  | some (.error fault) :: _ => some (.error fault)

/-- The arrivals that are left once all bytes are taken. -/
def lastArrival (arrivals : List (Option Arrival)) : List (Option Arrival) :=
  (ending? arrivals).toList.map fun e => some (e.map fun _ => none)

theorem bytes_lastArrival (arrivals : List (Option Arrival)) :
    bytes (lastArrival arrivals) = [] := by
  rcases h : ending? arrivals with _ | _ | _ <;> simp [lastArrival, h, bytes, Except.map]

theorem ending?_lastArrival (arrivals : List (Option Arrival)) :
    ending? (lastArrival arrivals) = ending? arrivals := by
  rcases h : ending? arrivals with _ | _ | _ <;> simp [lastArrival, h, ending?, Except.map]

theorem none_notMem_lastArrival (arrivals : List (Option Arrival)) :
    none ∉ lastArrival arrivals := by
  simp [lastArrival]

/-- The first arrival after any moments without one. -/
def await : List (Option Arrival) → Option (Arrival × List (Option Arrival))
  | [] => none
  | none :: rest => await rest
  | some arrival :: rest => some (arrival, rest)

end Peer

instance : Network Meeting Unit where
  dial _ _ _ := return .ok ()
  send _ _ := modifyGet fun p => (p.sends.headD (.ok ()), { p with sends := p.sends.tail })
  receive _ := fun p => (Peer.await p.arrivals).map fun a => (a.1, { p with arrivals := a.2 })
  poll _ := fun p =>
    match p.arrivals with
    | [] => some (none, p)
    | a :: rest => some (a, { p with arrivals := rest })
  shut _ := return .ok ()
  drop _ := return ()
  nonce := return ""

theorem Connection.converse_eq {σ ι : Type} [Inhabited σ] [Network (StateT σ Option) ι]
    (read : StateT σ Option (Option Arrival)) (a : Await) (c : Connection ι) :
    Connection.converse read a c = do
      match ← Connection.exchange read a c with
      | .inl p => Connection.converse read p.1 p.2
      | .inr r => return r := by
  have : Nonempty (Option (Except Error Outcome) × Connection ι) := ⟨(none, c)⟩
  unfold Connection.converse
  refine (repeatM_eq_of_monadTail _).trans (bind_congr fun x => ?_)
  cases x <;> rfl

/-- What a read of a socket does; a patient one waits through the moments at which nothing has
arrived. -/
inductive Gives (patient : Bool) (p : Peer) : Option (Option Arrival × Peer) → Prop
  | hangs : patient = true → Peer.bytes p.arrivals = [] → Peer.ending? p.arrivals = none →
      Gives patient p none
  | silence : patient = false → p.arrivals = [] → Gives patient p (some (none, p))
  | pause {rest} : patient = false → p.arrivals = none :: rest →
      Gives patient p (some (none, { p with arrivals := rest }))
  | bytes {bs rest} : rest <:+ p.arrivals → rest.length < p.arrivals.length →
      Peer.bytes p.arrivals = bs ++ Peer.bytes rest → Peer.ending? p.arrivals = Peer.ending? rest →
      Gives patient p (some (some (.ok (some bs)), { p with arrivals := rest }))
  | ends {e rest} : rest <:+ p.arrivals → Peer.bytes p.arrivals = [] →
      Peer.ending? p.arrivals = some e →
      Gives patient p (some (some (e.map fun _ => none), { p with arrivals := rest }))

theorem gives_poll (p : Peer) : Gives false p ((Network.poll () : Meeting _).run p) := by
  obtain ⟨arrivals, sends⟩ := p
  cases arrivals with
  | nil => exact .silence rfl rfl
  | cons a rest =>
    match a with
    | none => exact .pause rfl rfl
    | some (.ok (some bs)) => exact .bytes (List.suffix_cons ..) (by simp) rfl rfl
    | some (.ok none) => exact .ends (e := .ok ()) (List.suffix_cons ..) rfl rfl
    | some (.error fault) => exact .ends (e := .error fault) (List.suffix_cons ..) rfl rfl

theorem gives_receive (p : Peer) :
    Gives true p ((some <$> Network.receive () : Meeting (Option Arrival)).run p) := by
  obtain ⟨arrivals, sends⟩ := p
  induction arrivals with
  | nil => exact .hangs rfl rfl rfl
  | cons a rest ih =>
    match a with
    | none =>
      -- A moment without an arrival makes no difference to a read that waits.
      change Gives true ⟨none :: rest, sends⟩
        ((some <$> Network.receive () : Meeting (Option Arrival)).run ⟨rest, sends⟩)
      generalize (some <$> Network.receive () : Meeting (Option Arrival)).run ⟨rest, sends⟩ = given
        at ih
      cases ih with
      | hangs patient nothing open' => exact .hangs patient nothing open'
      | silence impatient | pause impatient => cases impatient
      | bytes tail fewer same open' =>
        exact .bytes (tail.trans (List.suffix_cons ..)) (Nat.lt_succ_of_lt fewer) same open'
      | ends tail nothing closed => exact .ends (tail.trans (List.suffix_cons ..)) nothing closed
    | some (.ok (some bs)) => exact .bytes (List.suffix_cons ..) (by simp) rfl rfl
    | some (.ok none) => exact .ends (e := .ok ()) (List.suffix_cons ..) rfl rfl
    | some (.error fault) => exact .ends (e := .error fault) (List.suffix_cons ..) rfl rfl

/-- The messages of the server that a call on a connection has before it. -/
def ahead (c : Connection Unit) (p : Peer) : List (Except Error Message) :=
  script (c.inbox ++ Peer.bytes p.arrivals) (Peer.ending? p.arrivals)

/-- Where no whole message is left and no more bytes arrive, only the end of the server is ahead. -/
theorem ahead_of_spent {c : Connection Unit} {p : Peer} (short : next? c.inbox = none)
    (nothing : Peer.bytes p.arrivals = []) :
    ahead c p = ((Peer.ending? p.arrivals).map fun e => .error (endingError e)).toList := by
  rw [ahead, nothing, List.append_nil, script_eq, short]

/-- Bytes that have been taken from the socket are ahead as they were before. -/
theorem ahead_of_bytes (c : Connection Unit) {p : Peer} {bs : Bytes} {rest : List (Option Arrival)}
    (bytes : Peer.bytes p.arrivals = bs ++ Peer.bytes rest)
    (ending : Peer.ending? p.arrivals = Peer.ending? rest) :
    ahead c p = ahead { c with inbox := c.inbox ++ bs } { p with arrivals := rest } := by
  rw [ahead, ahead, bytes, ending, List.append_assoc]

/-- What becomes of a call: it waits for ever, it is dropped while it waits, or it ends. Dropping it
loses no more than the messages that it has passed over. -/
inductive Comes (patient : Bool) (a : Await) (c : Connection Unit) (p : Peer) :
    Option ((Option (Except Error Outcome) × Connection Unit) × Peer) → Prop
  | hangs : patient = true → a.read (ahead c p) = none → Comes patient a c p none
  | drops {ms b c' p'} : patient = false → a.Waits ms b → ahead c p = ms.map .ok ++ ahead c' p' →
      p'.sends = p.sends → p'.arrivals <:+ p.arrivals →
      (none ∈ p.arrivals ∧ p'.arrivals.length < p.arrivals.length ∨ ahead c' p' = []) →
      Comes patient a c p (some ((none, c'), p'))
  | ends {result c' p'} : a.read (ahead c p) = some (result.map (·, ahead c' p')) →
      p'.sends = p.sends → p'.arrivals <:+ p.arrivals →
      Comes patient a c p (some ((some result, c'), p'))

/-- Turns in which messages let a call go on and bytes arrive make no difference to what becomes of
it. -/
theorem Comes.after {patient : Bool} {a b : Await} {ms : List Message} {c c' : Connection Unit}
    {p p' : Peer} {r} (waits : a.Waits ms b) (same : ahead c p = ms.map .ok ++ ahead c' p')
    (sends : p'.sends = p.sends) (tail : p'.arrivals <:+ p.arrivals)
    (comes : Comes patient b c' p' r) : Comes patient a c p r := by
  have reads : a.read (ahead c p) = b.read (ahead c' p') := by rw [same, waits.read_eq]
  cases comes with
  | hangs patient never => exact .hangs patient (reads.trans never)
  | drops impatient more rest sends' tail' why =>
    refine .drops impatient (waits.append more) ?_ (sends'.trans sends) (tail'.trans tail) ?_
    · rw [same, rest, List.map_append, List.append_assoc]
    · refine why.imp_left fun ⟨pause, fewer⟩ => ⟨tail.subset pause, ?_⟩
      exact Nat.lt_of_lt_of_le fewer tail.length_le
  | ends result sends' tail' =>
    exact .ends (reads.trans result) (sends'.trans sends) (tail'.trans tail)

theorem Connection.converse_comes {patient : Bool} {read : Meeting (Option Arrival)}
    (gives : ∀ p, Gives patient p (read.run p)) {a : Await} (listens : a.listens = true)
    (c : Connection Unit) (p : Peer) :
    Comes patient a c p ((Connection.converse read a c).run p) := by
  -- The conversation goes on only after a read that took an arrival.
  induction count : p.arrivals.length using Nat.strongRecOn generalizing a c p with
  | _ n ih =>
    rw [converse_eq, StateT.run_bind, exchange]
    have advances := advances listens c.inbox
    generalize advance a c.inbox = progress at advances
    cases advances with
    | done result => exact .ends (result _ _) rfl (List.suffix_refl _)
    | @starved ms b rest waits listens short split =>
      dsimp only
      rw [StateT.run_bind]
      have given := gives p
      generalize read.run p = r at given
      have same : ahead c p = ms.map .ok ++ ahead { c with inbox := rest } p := split _ _
      cases given with
      | hangs patient nothing open' =>
        refine .hangs patient ?_
        rw [same, waits.read_eq, ahead_of_spent short nothing, open']
        rfl
      | silence impatient silent =>
        refine .drops impatient waits same rfl (List.suffix_refl _) (Or.inr ?_)
        rw [ahead_of_spent short (by rw [silent]; rfl), silent]
        rfl
      | pause impatient arrivals =>
        refine .drops impatient waits ?_ rfl (arrivals ▸ List.suffix_cons ..) (Or.inl ?_)
        · rw [same, ahead, arrivals]
          rfl
        · simp [arrivals]
      | @bytes bs left tail fewer bytes open' =>
        have front : ahead c p = ms.map .ok ++
            ahead { c with inbox := rest ++ bs } { p with arrivals := left } := by
          rw [same, ahead_of_bytes _ bytes open']
        exact .after waits front rfl tail (ih _ (count ▸ fewer) listens _ _ rfl)
      | @ends e left tail nothing closed =>
        have fails : a.read (ahead c p) = some ((b.fail (endingError e)).map (·, [])) := by
          rw [same, waits.read_eq, ahead_of_spent short nothing, closed]
          rfl
        cases e <;> exact .ends (fails.trans (congrArg some (b.map_fail _ _ _))) rfl tail

end ChangeFeed.Session
