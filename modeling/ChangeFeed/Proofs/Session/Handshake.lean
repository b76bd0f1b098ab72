import ChangeFeed.Proofs.Session.Commands
import ChangeFeed.Proofs.Session.Host
import Mathlib.Data.List.TakeWhile

/-!
Which messages of a server let a client in. Main statement: a login comes to its end exactly when what
it reads begins with requests for a password that the client can answer, each of its own kind, with the
server's own proof where the kind has one, then the news that the client is accepted, and, up to where
the server is ready, no failure.
-/
namespace ChangeFeed.Session

open Wire

namespace Scram

/-- The last message of a server that shows a signature. -/
def Shows (signature final : Bytes) : Prop :=
  ∃ shown, Text.Utf8.decode final = .ok (String.ofList ('v' :: '=' :: shown)) ∧
    (∀ c ∈ shown, isBase64Character c = true) ∧ Text.Base64.decode? shown = some signature

theorem Cursor.rest_of_expect {c : Char} {k k' : Cursor} (found : k.expect c = .ok k') :
    k.rest = c :: k'.rest := by
  unfold Cursor.expect at found
  split at found
  · cases found
  · rename_i rest
    split at found
    · rename_i same
      cases found
      rw [rest, same]
    · cases found

theorem Cursor.rest_of_part {name : Char} {p : Char → Bool} {k k' : Cursor} {taken : List Char}
    (found : k.part name p = .ok (taken, k')) :
    k.rest = name :: '=' :: (taken ++ k'.rest) ∧ ∀ c ∈ taken, p c = true := by
  obtain ⟨k₁, first, found⟩ := except_bind_eq_ok found
  obtain ⟨k₂, second, found⟩ := except_bind_eq_ok found
  cases found
  refine ⟨?_, fun c member => List.mem_takeWhile_imp member⟩
  rw [rest_of_expect first, rest_of_expect second, List.takeWhile_append_dropWhile]

theorem verdict_eq_signature {s : String} {shown : List Char} :
    Verdict.read s = .ok (.signature shown) ↔
      s.toList = 'v' :: '=' :: shown ∧ ∀ c ∈ shown, isBase64Character c = true := by
  unfold Verdict.read
  constructor
  · intro h
    split at h
    · obtain ⟨_, -, h⟩ := except_bind_eq_ok h
      obtain ⟨_, -, h⟩ := except_bind_eq_ok h
      cases h
    · obtain ⟨⟨taken, k⟩, part, h⟩ := except_bind_eq_ok h
      obtain ⟨_, done, h⟩ := except_bind_eq_ok h
      cases h
      obtain ⟨whole, plain⟩ := Cursor.rest_of_part part
      have nothing : k.rest = [] := by
        unfold Cursor.done at done
        split at done
        · assumption
        · cases done
      rw [nothing, List.append_nil] at whole
      exact ⟨whole, plain⟩
  · rintro ⟨whole, plain⟩
    have all : shown.takeWhile isBase64Character = shown := List.takeWhile_eq_self_iff.2 plain
    have none : shown.dropWhile isBase64Character = [] := List.dropWhile_eq_nil_iff.2 plain
    simp [whole, Cursor.part, Cursor.expect, Cursor.takeWhile, Cursor.done, all, none, bind, Except.bind, pure,
      Except.pure]

theorem verify_eq_ok {a : Answer} {final : Bytes} : verify a final = .ok () ↔ Shows a.signature final := by
  unfold verify Shows text base64
  constructor
  · intro h
    obtain ⟨s, decoded, h⟩ := except_bind_eq_ok h
    obtain ⟨verdict, read, h⟩ := except_bind_eq_ok h
    cases verdict with
    | refused => cases h
    | signature shown =>
      obtain ⟨whole, plain⟩ := verdict_eq_signature.mp read
      obtain ⟨bytes, base, h⟩ := except_bind_eq_ok h
      split at h
      · rename_i same
        subst same
        refine ⟨shown, ?_, plain, ?_⟩
        · rw [← whole, String.ofList_toList]
          cases text : Text.Utf8.decode final with
          | error => rw [text] at decoded; cases decoded
          | ok => rw [text] at decoded; cases decoded; rfl
        · cases found : Text.Base64.decode? shown with
          | none => rw [found] at base; cases base
          | some => rw [found] at base; cases base; rfl
      · cases h
  · rintro ⟨shown, decoded, plain, base⟩
    have read := verdict_eq_signature.mpr ⟨String.toList_ofList, plain⟩
    rw [decoded]
    simp only [Except.mapError, bind, Except.bind, read, base]
    exact if_pos trivial

end Scram

/-- How a server may ask for a password, and the login with which the client goes on once it has
answered: for the password itself, for a digest of it, or for a proof of it with one in return. -/
inductive Asks (l : Login) : List Message → Login → Prop
  | cleartext {password} : l.password = some password → 0 ∉ password → Asks l [.cleartextRequest] l
  | digest {password salt} : l.password = some password → Asks l [.md5Request salt] l
  | proof {password list names challenge answer final} : mechanisms (list.length + 1) list = .ok names →
      Scram.mechanism ∈ names → l.password = some password →
      Scram.answer password l.nonce challenge = .ok answer → Scram.Shows answer.signature final →
      Asks l [.mechanisms list, .saslContinue challenge, .saslFinal final] l.renew

/-- Requests in turn that the client can answer. -/
inductive Asking : Login → List Message → Prop
  | nil {l} : Asking l []
  | cons {l l' ms rest} : Asks l ms l' → Asking l' rest → Asking l (ms ++ rest)

/-- A message that may come between the news that the client is accepted and the end of the login. -/
def Message.passes (m : Message) : Prop := m ≠ .ready ∧ m ≠ .copyBoth ∧ ∀ fields, m ≠ .error fields

/-- Messages that let a client in. -/
inductive Handshake (l : Login) : List Message → Prop
  | intro {requests settings} : Asking l requests → (∀ m ∈ settings, Message.passes m) →
      Handshake l (requests ++ .loginAccepted :: settings ++ [.ready])

theorem Handshake.plain {l : Login} {requests : List Message} (asking : Asking l requests) :
    Handshake l (requests ++ [.loginAccepted, .ready]) := by
  simpa using Handshake.intro asking (List.forall_mem_nil _)

section Grammar

open Step

variable {l l' : Login} {ms settings : List Message} {items rest : List (Except Error Message)}
  {o : Outcome} {r : Outcome × List (Except Error Message)}

/-- What a call makes of the messages that follow the one that it has answered so. -/
def Step.reads (s : Step) (items : List (Except Error Message)) :
    Option (Except Error (Outcome × List (Except Error Message))) :=
  match s with
  | .wait next | .send _ next => next.read items
  | .done result => some (result.map (·, items))

/-- A call that comes to something has read a message. -/
theorem Await.exists_of_read {a : Await} (read : a.read items = some (.ok r)) :
    ∃ m later, items = .ok m :: later ∧ (a.step m).reads later = some (.ok r) := by
  cases items with
  | nil => cases read
  | cons item later =>
    rcases item with e | m
    · obtain ⟨e', fails⟩ := exists_of_fail a e
      rw [Await.read, fails] at read
      cases read
    · exact ⟨m, later, rfl, read⟩

theorem free_hexByte (b : UInt8) : '\x00' ∉ (hexByte b).toList := by
  have digit : ∀ d < 16, Text.Numeral.digitChar d ≠ '\x00' := by decide
  have high : b.toNat / 16 < 16 := by have := b.toNat_lt; omega
  have low : b.toNat % 16 < 16 := Nat.mod_lt _ (by decide)
  rw [hexByte, String.toList_ofList]
  simp [(digit _ high).symm, (digit _ low).symm]

/-- What is sent in place of the password holds no zero byte. -/
theorem zero_notMem_saltedDigest (user : String) (password salt : Bytes) :
    0 ∉ Login.saltedDigest user password salt := by
  have hex (bs : Bytes) : 0 ∉ Login.hexText bs := by
    refine Bytes.zero_notMem_ofString ?_
    rw [String.toList_join, List.mem_flatMap]
    rintro ⟨part, member, zero⟩
    obtain ⟨b, -, rfl⟩ := List.mem_map.mp member
    exact free_hexByte b zero
  rw [Login.saltedDigest, List.mem_append]
  exact not_or.mpr ⟨Bytes.zero_notMem_ofString (by decide +kernel), hex _⟩

theorem password_of_free {bs : Bytes} (free : 0 ∉ bs) : ∃ bytes, Request.password bs = .ok bytes := by
  have none : bs.contains 0 = false := by simpa using free
  exact ⟨_, by rw [Request.password, Request.terminated, none]; rfl⟩

/-- The client answers a request that it can answer, and waits for another. -/
theorem Asks.read_eq (asks : Asks l ms l') (rest : List (Except Error Message)) :
    (Await.loginRequest l).read (ms.map .ok ++ rest) = (Await.loginRequest l').read rest := by
  cases asks with
  | cleartext known free =>
    obtain ⟨bytes, written⟩ := password_of_free free
    simp [Await.read, Await.step, Await.onMessage, onLoginRequest, Step.requirePassword, Step.request,
      known, written]
  | @digest password salt known =>
    obtain ⟨bytes, written⟩ := password_of_free (zero_notMem_saltedDigest l.user password salt)
    simp [Await.read, Await.step, Await.onMessage, onLoginRequest, Step.requirePassword, Step.request,
      known, written]
  | proof offered own known answered shows =>
    have verified := Scram.verify_eq_ok.mpr shows
    simp [Await.read, Await.step, Await.onMessage, onLoginRequest, onChallenge, onVerdict, Step.parsed,
      Step.requirePassword, offered, own, known, answered, verified]

theorem Asking.read_eq (asking : Asking l ms) : ∃ l', ∀ rest : List (Except Error Message),
    (Await.loginRequest l).read (ms.map .ok ++ rest) = (Await.loginRequest l').read rest := by
  induction asking with
  | @nil l => exact ⟨l, fun _ => rfl⟩
  | cons asks _ ih =>
    obtain ⟨l', later⟩ := ih
    refine ⟨l', fun rest => ?_⟩
    rw [List.map_append, List.append_assoc, asks.read_eq, later]

theorem readiness_waits (passes : ∀ m ∈ settings, Message.passes m) :
    Await.readiness.Waits settings .readiness := by
  induction settings with
  | nil => exact .nil
  | cons m settings ih =>
    obtain ⟨⟨unready, plain, sound⟩, others⟩ := List.forall_mem_cons.mp passes
    refine .cons ?_ (ih others)
    cases m <;> simp_all [Await.step, Await.onMessage, onReadiness]

theorem Handshake.read_eq (handshake : Handshake l ms) (rest : List (Except Error Message)) :
    (Await.loginRequest l).read (ms.map .ok ++ rest) = some (.ok (.loggedIn, rest)) := by
  obtain ⟨asking, passes⟩ := handshake
  obtain ⟨l', asked⟩ := asking.read_eq
  simp only [List.map_append, List.map_cons, List.append_assoc, List.cons_append]
  rw [asked, Await.read]
  exact (readiness_waits passes).read_eq _

theorem free_of_password {bs bytes : Bytes} (written : Request.password bs = .ok bytes) : 0 ∉ bs := by
  unfold Request.password Request.terminated at written
  split at written
  · cases written
  · rename_i free; simpa using free

theorem Step.reads_requirePassword {f : Bytes → Step}
    (reads : (requirePassword l f).reads items = some (.ok r)) :
    ∃ password, l.password = some password ∧ (f password).reads items = some (.ok r) := by
  cases known : l.password with
  | none => rw [requirePassword, known] at reads; cases reads
  | some password => rw [requirePassword, known] at reads; exact ⟨password, rfl, reads⟩

theorem Step.reads_request {written : Except IoFault Bytes} {next : Await}
    (reads : (request written next).reads items = some (.ok r)) :
    ∃ bytes, written = .ok bytes ∧ next.read items = some (.ok r) := by
  cases written with
  | error fault => cases reads
  | ok bytes => exact ⟨bytes, rfl, reads⟩

theorem Step.reads_parsed {α : Type} {body : Except MessageFault α} {f : α → Step}
    (reads : (parsed body f).reads items = some (.ok r)) :
    ∃ a, body = .ok a ∧ (f a).reads items = some (.ok r) := by
  cases body with
  | error fault => cases reads
  | ok a => exact ⟨a, rfl, reads⟩

theorem challenge_read {password : Bytes} (read : (Await.challenge l password).read items = some (.ok r)) :
    ∃ challenge answer later, items = .ok (.saslContinue challenge) :: later ∧
      Scram.answer password l.nonce challenge = .ok answer ∧
      (Await.verdict l answer).read later = some (.ok r) := by
  obtain ⟨m, later, rfl, goes⟩ := Await.exists_of_read read
  cases m with
  | saslContinue challenge =>
    replace goes : (onChallenge l password (.saslContinue challenge)).reads later = some (.ok r) := goes
    rw [onChallenge] at goes
    cases answered : Scram.answer password l.nonce challenge with
    | error fault => rw [answered] at goes; cases goes
    | ok answer => rw [answered] at goes; exact ⟨challenge, answer, later, rfl, answered, goes⟩
  | _ => cases goes

theorem verdict_read {answer : Scram.Answer} (read : (Await.verdict l answer).read items = some (.ok r)) :
    ∃ final later, items = .ok (.saslFinal final) :: later ∧ Scram.Shows answer.signature final ∧
      (Await.loginRequest l.renew).read later = some (.ok r) := by
  obtain ⟨m, later, rfl, goes⟩ := Await.exists_of_read read
  cases m with
  | saslFinal final =>
    replace goes : (onVerdict l answer (.saslFinal final)).reads later = some (.ok r) := goes
    rw [onVerdict] at goes
    cases verified : Scram.verify answer final with
    | error fault => rw [verified] at goes; cases goes
    | ok => rw [verified] at goes; exact ⟨final, later, rfl, Scram.verify_eq_ok.mp verified, goes⟩
  | _ => cases goes

theorem readiness_read (read : Await.readiness.read items = some (.ok (o, rest))) :
    ∃ settings, items = (settings ++ [.ready]).map .ok ++ rest ∧ ∀ m ∈ settings, Message.passes m := by
  induction items with
  | nil => cases read
  | cons item later ih =>
    obtain ⟨m, later, same, goes⟩ := Await.exists_of_read read
    cases same
    by_cases passes : Message.passes m
    · have waits : Await.readiness.Waits [m] .readiness :=
        readiness_waits (List.forall_mem_singleton.mpr passes)
      have same := waits.read_eq later
      rw [List.map_singleton, List.singleton_append, read] at same
      obtain ⟨settings, rfl, others⟩ := ih same.symm
      exact ⟨m :: settings, rfl, List.forall_mem_cons.mpr ⟨passes, others⟩⟩
    · cases m with
      | ready => cases goes; exact ⟨[], rfl, by simp⟩
      | error | copyBoth => cases goes
      | _ => exact absurd ⟨by simp, by simp, by simp⟩ passes

/-- A login goes on with a request that the client can answer, or with the news that it is accepted. -/
theorem loginRequest_read (read : (Await.loginRequest l).read items = some (.ok r)) :
    (∃ later, items = .ok .loginAccepted :: later ∧ Await.readiness.read later = some (.ok r)) ∨
      ∃ l' ms later, Asks l ms l' ∧ items = ms.map .ok ++ later ∧ later.length < items.length ∧
        (Await.loginRequest l').read later = some (.ok r) := by
  obtain ⟨m, later, rfl, goes⟩ := Await.exists_of_read read
  cases m with
  | loginAccepted => exact Or.inl ⟨later, rfl, goes⟩
  | cleartextRequest =>
    obtain ⟨password, known, goes⟩ := Step.reads_requirePassword goes
    obtain ⟨bytes, written, read⟩ := Step.reads_request goes
    exact Or.inr ⟨l, _, later, .cleartext known (free_of_password written), rfl, by simp, read⟩
  | md5Request salt =>
    obtain ⟨password, known, goes⟩ := Step.reads_requirePassword goes
    obtain ⟨bytes, -, read⟩ := Step.reads_request goes
    exact Or.inr ⟨l, _, later, .digest known, rfl, by simp, read⟩
  | mechanisms list =>
    obtain ⟨names, offered, goes⟩ := Step.reads_parsed goes
    by_cases own : Scram.mechanism ∈ names
    · rw [if_pos (List.contains_iff_mem.mpr own)] at goes
      obtain ⟨password, known, read⟩ := Step.reads_requirePassword goes
      obtain ⟨challenge, answer, rest, rfl, answered, read⟩ := challenge_read read
      obtain ⟨final, rest, rfl, shows, read⟩ := verdict_read read
      exact Or.inr ⟨l.renew, _, rest, .proof offered own known answered shows, rfl, by simp; omega, read⟩
    · rw [if_neg (mt List.contains_iff_mem.mp own)] at goes
      cases goes
  | _ => cases goes

theorem Handshake.after {ns : List Message} (asks : Asks l ms l') (handshake : Handshake l' ns) :
    Handshake l (ms ++ ns) := by
  obtain ⟨asking, passes⟩ := handshake
  rw [← List.append_assoc, ← List.append_assoc]
  exact .intro (.cons asks asking) passes

/-- A login that succeeds has read a handshake. -/
theorem handshake_of_read (read : (Await.loginRequest l).read items = some (.ok (o, rest))) :
    ∃ ms, Handshake l ms ∧ items = ms.map .ok ++ rest := by
  induction length : items.length using Nat.strongRecOn generalizing l items with
  | _ n ih =>
    rcases loginRequest_read read with ⟨later, rfl, read⟩ | ⟨l', ms, later, asks, rfl, shorter, read⟩
    · obtain ⟨settings, rfl, passes⟩ := readiness_read read
      exact ⟨_, .intro .nil passes, rfl⟩
    · obtain ⟨ns, handshake, rfl⟩ := ih _ (length ▸ shorter) read rfl
      exact ⟨ms ++ ns, handshake.after asks, by simp⟩

end Grammar

end ChangeFeed.Session
