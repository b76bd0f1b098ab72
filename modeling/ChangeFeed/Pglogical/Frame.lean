import ChangeFeed.Decoder
import ChangeFeed.Text.Utf8

/-!
The frames of the pglogical output plugin, classified by their tag without decoding rows. Row
changes name their table by a number that an earlier relation frame has announced; frames of that
kind, of the start of the stream and of origins are consumed here.
-/
namespace ChangeFeed.Pglogical

def extensionSchema : String := "pgcapture"

/-- The extension's log of statements that change the schema. -/
def ddlTable : String := "ddl_logs"

/-- The extension's bookkeeping, whose changes are never handed on. -/
def sourcesTable : String := "sources"

structure Relation where
  id : Nat
  schema : String
  table : String
deriving DecidableEq, Repr

structure Relations where
  known : List Relation
deriving Repr

namespace Relations

def empty : Relations := ⟨[]⟩

def get? (rs : Relations) (id : Nat) : Option Relation := rs.known.find? (·.id == id)

/-- The relation takes the place of one with its number. -/
def insert (rs : Relations) (r : Relation) : Relations :=
  ⟨r :: rs.known.filter (·.id != r.id)⟩

theorem get?_insert (rs : Relations) (r : Relation) (id : Nat) :
    (rs.insert r).get? id = if r.id = id then some r else rs.get? id := by
  by_cases h : r.id = id
  · simp [insert, get?, h]
  · simp only [insert, get?, List.find?_cons, beq_eq_false_iff_ne.mpr h, if_neg h]
    rw [List.find?_filter]
    congr 1
    funext a
    by_cases ha : a.id = id <;> simp [ha, Ne.symm h]

end Relations

structure Message where
  tag : UInt8
  cls : MessageClass
  /-- The table of a row change. -/
  relation : Option Relation
  payload : Bytes
deriving DecidableEq, Repr

/-- A name after a byte that counts its bytes; one NUL at its end is no part of it. -/
def readName : Bytes → Except DecodeFault (String × Bytes)
  | [] => .error .missingName
  | n :: rest =>
    match Bytes.splitAt? n.toNat rest with
    | none => .error .truncatedName
    | some (raw, rest) =>
      let name := if raw.getLast? = some 0 then raw.dropLast else raw
      .ok (Text.Utf8.lossyString name, rest)

/-- The number of a relation after a byte of flags. -/
def relationId (body : Bytes) : Nat := Bytes.toNat ((body.drop 1).take 4)

def readRelation (body : Bytes) : Except DecodeFault Relation := do
  if body.length < 6 then .error .shortRelation
  else
    let (schema, rest) ← readName (body.drop 5)
    let (table, _) ← readName rest
    return ⟨relationId body, schema, table⟩

/-- Flags, final position, commit time and transaction number take 1, 8, 8 and 4 bytes. -/
def readBegin (body : Bytes) : Except DecodeFault MessageClass :=
  if body.length < 21 then .error .shortBegin
  else .ok (.begin (Bytes.toNat ((body.drop 9).take 8)))

def classOfRelation (r : Relation) : MessageClass :=
  .change (r.schema == extensionSchema && r.table == sourcesTable)
    (r.schema == extensionSchema && r.table == ddlTable)

def readRowChange (rs : Relations) (body : Bytes) : Except DecodeFault Relation :=
  if body.length < 5 then .error .shortRowChange
  else match rs.get? (relationId body) with
    | some r => .ok r
    | none => .error (.unknownRelation (relationId body))

inductive Kind
  | begin | commit | row | relation | skipped | unknown
deriving DecidableEq, Repr

def kindOf (tag : UInt8) : Kind :=
  if tag = 0x42 then .begin
  else if tag = 0x43 then .commit
  else if tag = 0x49 ∨ tag = 0x55 ∨ tag = 0x44 then .row
  else if tag = 0x52 then .relation
  else if tag = 0x53 ∨ tag = 0x4f then .skipped
  else .unknown

/-- What a frame says: the message, if it is handed on, and the relations known after it. -/
def read (rs : Relations) : Bytes → Except DecodeFault (Option Message × Relations)
  | [] => .ok (none, rs)
  | tag :: body =>
    match kindOf tag with
    | .begin => do return (some ⟨tag, ← readBegin body, none, tag :: body⟩, rs)
    | .commit => .ok (some ⟨tag, .other, none, tag :: body⟩, rs)
    | .row => do
      let r ← readRowChange rs body
      return (some ⟨tag, classOfRelation r, some r, tag :: body⟩, rs)
    | .relation => do return (none, rs.insert (← readRelation body))
    | .skipped => .ok (none, rs)
    | .unknown => .error (.unknownTag tag)

/-- A frame that is refused leaves the relations as they are. -/
def decode (rs : Relations) (frame : Bytes) : Except Error (Option Message) × Relations :=
  match read rs frame with
  | .ok (m, rs') => (.ok m, rs')
  | .error e => (.error (.decode e), rs)

-- Tables are announced in the stream itself, so nothing that is loaded matters.
instance : Decoder Relations Message where
  decode := decode
  refreshed := id
  classOf := Message.cls

end ChangeFeed.Pglogical
