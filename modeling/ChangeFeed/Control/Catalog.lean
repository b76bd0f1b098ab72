import ChangeFeed.Control.Database

/-!
The names of the server's types by number, loaded over a control connection.
-/
namespace ChangeFeed.Control

/-- Loaders of the metadata that a decoder depends on. -/
class SchemaLoader (m : Type → Type) (σ : Type) where
  refresh : σ → m (Except Error Unit × σ)

structure Catalog (κ : Type) where
  client : κ
  /-- In the order of the numbers. -/
  types : List (Nat × String)

namespace Catalog

/-- The entry in its place, instead of one with its number. -/
def insert (oid : Nat) (name : String) : List (Nat × String) → List (Nat × String)
  | [] => [(oid, name)]
  | t :: ts =>
    if oid < t.1 then (oid, name) :: t :: ts
    else if oid = t.1 then (oid, name) :: ts
    else t :: insert oid name ts

def unreadable : DatabaseFault := ⟨"error deserializing column", none⟩

def entry : List (Option String) → Except DatabaseFault (Nat × String)
  | [some oid, some name] =>
    match Text.Numeral.unsigned? 10 UInt32.size oid.toList with
    | some n => .ok (n, name)
    | none => .error unreadable
  | _ => .error unreadable

def load (rows : Rows) : Except DatabaseFault (List (Nat × String)) := do
  let entries ← rows.mapM entry
  return entries.foldl (fun ts e => insert e.1 e.2 ts) []

/-- A refresh that fails leaves what was loaded before. -/
instance {m : Type → Type} {κ : Type} [Monad m] [Database m κ] : SchemaLoader m (Catalog κ) where
  refresh c := do
    match (← Database.execute c.client .listTypes).bind load with
    | .ok types => return (.ok (), { c with types })
    | .error fault => return (.error (.postgres fault), c)

end Catalog

end ChangeFeed.Control
