import ChangeFeed.Proofs.Text.Utf8
import ChangeFeed.Wire.Request

/-!
What a client says: whole messages, one after the other. Main statement: the query that such bytes
begin with is one of those that the client may ask.
-/
namespace ChangeFeed.Wire

open Request

/-- A message of a client that may give some commands. A command that cannot be written leaves its
beginning behind. -/
inductive Whole (commands : String → Prop) : Bytes → Prop
  | startup {params bytes} : startup params = .ok bytes → Whole commands bytes
  | frame {tag : Char} (body : Bytes) : UInt8.ofNat tag.toNat ≠ 0x51 → Whole commands (frame tag body)
  | query {text bytes} : commands text → query text = .ok bytes → Whole commands bytes
  | broken {text fault} : commands text → query text = .error fault → Whole commands brokenQuery

inductive Speech (commands : String → Prop) : Bytes → Prop
  | nil : Speech commands []
  | cons {message rest} : Whole commands message → Speech commands rest → Speech commands (message ++ rest)

variable {commands : String → Prop}

theorem Whole.speech {message : Bytes} (whole : Whole commands message) : Speech commands message := by
  have single := Speech.cons whole .nil
  rwa [List.append_nil] at single

theorem Whole.mono {others : String → Prop} (may : ∀ text, commands text → others text) {message : Bytes}
    (whole : Whole commands message) : Whole others message := by
  cases whole with
  | startup written => exact .startup written
  | frame body other => exact .frame body other
  | query allowed written => exact .query (may _ allowed) written
  | broken allowed unwritten => exact .broken (may _ allowed) unwritten

theorem Speech.mono {others : String → Prop} (may : ∀ text, commands text → others text) {said : Bytes}
    (speech : Speech commands said) : Speech others said := by
  induction speech with
  | nil => exact .nil
  | cons whole _ ih => exact .cons (whole.mono may) ih

theorem Speech.append {a b : Bytes} (first : Speech commands a) (second : Speech commands b) :
    Speech commands (a ++ b) := by
  induction first with
  | nil => exact second
  | cons whole _ ih =>
    rw [List.append_assoc]
    exact .cons whole ih

section Queries

theorem query_eq {text : String} {bytes : Bytes} (written : query text = .ok bytes) :
    0 ∉ Bytes.ofString text ∧ ∃ length, length.length = 4 ∧
      bytes = 0x51 :: (length ++ (Bytes.ofString text ++ [0])) := by
  unfold query terminatedText terminated at written
  split at written
  · cases written
  · rename_i free
    cases written
    exact ⟨by simpa using free, _, Bytes.length_ofNat 4 _, rfl⟩

/-- Texts that end at a zero byte are the same if bytes begin with both. -/
theorem eq_of_zero {a b rest rest' : Bytes} (free : 0 ∉ a) (free' : 0 ∉ b)
    (same : a ++ 0 :: rest = b ++ 0 :: rest') : a = b := by
  have cut {bs : Bytes} (free : 0 ∉ bs) (rest : Bytes) :
      (bs ++ 0 :: rest).takeWhile (fun b => decide (b ≠ 0)) = bs := by
    have all : ∀ b ∈ bs, decide (b ≠ 0) = true := fun b member =>
      decide_eq_true fun zero => free (zero ▸ member)
    rw [List.takeWhile_append_of_pos all]
    simp
  rw [← cut free rest, same, cut free' rest']

/-- The packet that opens a connection is no query of a text that does not begin with the byte 3. -/
theorem startup_ne_query {params : List (String × String)} {text : String} {packet asked more rest : Bytes}
    (opening : startup params = .ok packet) (written : query text = .ok asked)
    (other : (Bytes.ofString text).head? ≠ some 3) : packet ++ more ≠ asked ++ rest := by
  obtain ⟨-, length, four, rfl⟩ := query_eq written
  have version : (packet ++ more)[5]? = some 3 := by
    unfold startup at opening
    cases texts : params.mapM fun p => do return (← terminatedText p.1) ++ (← terminatedText p.2) with
    | error fault => rw [texts] at opening; cases opening
    | ok texts' =>
      rw [texts] at opening
      cases opening
      simp [Bytes.ofNat]
  intro same
  rw [same, List.cons_append, List.getElem?_cons_succ, List.append_assoc,
    List.getElem?_append_right (by omega), four] at version
  cases body : Bytes.ofString text with
  | nil => rw [body] at version; cases version
  | cons b bs =>
    rw [body] at version other
    exact other version

/-- A query that what is said begins with is one of the commands, if all of them can be written. -/
theorem Speech.query_mem {text : String} {asked said rest : Bytes} (speech : Speech commands said)
    (writable : ∀ t, commands t → ∃ bytes, query t = .ok bytes) (written : query text = .ok asked)
    (other : (Bytes.ofString text).head? ≠ some 3) (begins : said = asked ++ rest) :
    commands text := by
  have shape := query_eq written
  obtain ⟨free, length, four, rfl⟩ := shape
  cases speech with
  | nil => cases begins
  | cons whole _ =>
    cases whole with
    | startup opening => exact absurd begins (startup_ne_query opening written other)
    | frame body tag =>
      exact absurd (List.cons.inj begins).1 tag
    | broken allowed refused =>
      obtain ⟨bytes, fine⟩ := writable _ allowed
      rw [refused] at fine
      cases fine
    | query allowed asked' =>
      obtain ⟨free', length', four', rfl⟩ := query_eq asked'
      simp only [List.cons_append, List.append_assoc, List.cons.injEq, true_and] at begins
      have bodies := (List.append_inj begins (four'.trans four.symm)).2
      exact Bytes.ofString_injective (eq_of_zero free' free bodies) ▸ allowed

end Queries

section Order

/-- Bytes that are whole messages of a client, with the commands that they give in turn. -/
inductive Utters : Bytes → List String → Prop
  | nil : Utters [] []
  | startup {params packet rest asked} : startup params = .ok packet → Utters rest asked →
      Utters (packet ++ rest) asked
  | frame {tag : Char} (body : Bytes) {rest asked} : UInt8.ofNat tag.toNat ≠ 0x51 → Utters rest asked →
      Utters (Request.frame tag body ++ rest) asked
  | query {text bytes rest asked} : Request.query text = .ok bytes → Utters rest asked →
      Utters (bytes ++ rest) (text :: asked)
  | broken {text fault rest asked} : Request.query text = .error fault → Utters rest asked →
      Utters (brokenQuery ++ rest) asked

theorem Utters.append {a b : Bytes} {asked more : List String} (first : Utters a asked)
    (second : Utters b more) : Utters (a ++ b) (asked ++ more) := by
  induction first with
  | nil => exact second
  | startup written _ ih => rw [List.append_assoc]; exact .startup written ih
  | frame body other _ ih => rw [List.append_assoc]; exact .frame body other ih
  | query written _ ih => rw [List.append_assoc]; exact .query written ih
  | broken unwritten _ ih => rw [List.append_assoc]; exact .broken unwritten ih

theorem Utters.single {text : String} {bytes : Bytes} (written : Request.query text = .ok bytes) :
    Utters bytes [text] := by
  simpa using Utters.query written .nil

/-- Bytes that may give no command give none. -/
theorem Whole.utters {message : Bytes} (whole : Whole (fun _ => False) message) : Utters message [] := by
  cases whole with
  | startup written => simpa using Utters.startup written .nil
  | frame body other => simpa using Utters.frame body other .nil
  | query never => exact never.elim
  | broken never => exact never.elim

theorem Utters.eq_nil {asked : List String} (silent : Utters [] asked) : asked = [] := by
  generalize none : ([] : Bytes) = said at silent
  cases silent with
  | nil => rfl
  | @startup params _ _ _ written =>
    have empty := (List.append_eq_nil_iff.mp none.symm).1
    rw [empty, Request.startup] at written
    cases texts : params.mapM fun p => do return (← terminatedText p.1) ++ (← terminatedText p.2) with
    | error fault => rw [texts] at written; cases written
    | ok => rw [texts] at written; cases written
  | frame => cases none
  | query written =>
    obtain ⟨-, length, -, rfl⟩ := query_eq written
    cases none
  | broken => cases none

end Order

end ChangeFeed.Wire
