import ChangeFeed.Checkpoint.Store

/-!
A tree of files held in memory, the plain meaning of the steps that a store performs.
-/
namespace ChangeFeed

inductive Entry
  | file (bytes : Bytes)
  | folder
deriving DecidableEq, Repr

/-- Every entry with its place; the top folder has none. -/
structure Volume where
  entries : List (Place × Entry)
deriving DecidableEq, Repr

namespace Volume

open ChangeFeed.Path

def empty : Volume := ⟨[]⟩

def get? (v : Volume) (p : Place) : Option Entry :=
  if p.isEmpty then some .folder else (v.entries.find? (·.1 == p)).map (·.2)

def erase (v : Volume) (p : Place) : Volume := ⟨v.entries.filter (·.1 != p)⟩

def insert (v : Volume) (p : Place) (e : Entry) : Volume := ⟨(p, e) :: (v.erase p).entries⟩

/-- Places that are folders can be passed. -/
def pass (v : Volume) : List Place → Except IoFault Unit
  | [] => .ok ()
  | p :: ps =>
    match v.get? p with
    | some .folder => v.pass ps
    | some (.file _) => .error .notDirectory
    | none => .error .notFound

/-- Follows a path up to the place that it leads to. -/
def follow (v : Volume) (path : String) : Except IoFault Unit :=
  if path = "" then .error .notFound else v.pass (way path)

/-- What a path leads to. -/
def find (v : Volume) (path : String) : Except IoFault Entry := do
  v.follow path
  match v.get? (place path) with
  | some (.file bytes) => if endsInSlash path then .error .notDirectory else .ok (.file bytes)
  | some .folder => .ok .folder
  | none => .error .notFound

def hasEntry (v : Volume) (path : String) : Except IoFault Bool :=
  match v.find path with
  | .error .notFound => .ok false
  | .error e => .error e
  | .ok _ => .ok true

def read (v : Volume) (path : String) : Except IoFault Bytes := do
  match ← v.find path with
  | .file bytes => .ok bytes
  | .folder => .error .isDirectory

/-- A file of that name and contents, in place of a file that was there. -/
def write (v : Volume) (path : String) (bytes : Bytes) : Except IoFault Volume := do
  v.follow path
  if endsInSlash path ∨ v.get? (place path) = some .folder then .error .isDirectory
  else .ok (v.insert (place path) (.file bytes))

/-- Moves a file to a path. -/
def rename (v : Volume) (path target : String) : Except IoFault Volume := do
  let bytes ← v.read path
  v.follow target
  if endsInDots target then .error (.other "Device or resource busy (os error 16)")
  else if endsInSlash target then .error .notDirectory
  else (v.erase (place path)).write target bytes

/-- A folder of that name, and the folders above it that are missing. -/
def makeFolder (v : Volume) (path : String) : Volume :=
  let p := place path
  (List.range p.length).foldl (fun v n =>
    if (v.get? (p.take (n + 1))).isSome then v else v.insert (p.take (n + 1)) .folder) v

def perform (v : Volume) : FileStep → Except IoFault Volume
  | .create path => v.write path []
  | .append path bytes => do v.write path ((← v.read path) ++ bytes)
  | .sync _ => .ok v
  | .rename path target => v.rename path target

def remove (v : Volume) (path : String) : Except IoFault Volume := do
  let _ ← v.read path
  return v.erase (place path)

def names (v : Volume) : List String :=
  (v.entries.filterMap fun e => match e.1 with
    | [name] => some name
    | _ => none).mergeSort (· ≤ ·)

/-- Runs a change of the volume; one that fails changes nothing. -/
def modify (f : Volume → Except IoFault Volume) : StateM Volume (Except IoFault Unit) := fun v =>
  match f v with
  | .ok w => (.ok (), w)
  | .error e => (.error e, v)

instance : FileSystem (StateM Volume) where
  hasEntry path := fun v => (v.hasEntry path, v)
  read path := fun v => (v.read path, v)
  perform step := modify (·.perform step)
  remove path := modify (·.remove path)

end Volume

end ChangeFeed
