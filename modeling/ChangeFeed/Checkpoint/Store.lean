import ChangeFeed.Checkpoint.Path
import ChangeFeed.Checkpoint.Text

/-!
One checkpoint kept in a file. A new one is written beside the old one and put in its place when it
is complete, so at every moment the file holds one or the other.
-/
namespace ChangeFeed

inductive FileStep
  /-- An empty file, in place of a file of that name. -/
  | create (path : String)
  | append (path : String) (bytes : Bytes)
  /-- What was written survives a crash from here on. -/
  | sync (path : String)
  /-- The file takes another name, in place of a file of that name. -/
  | rename (path target : String)
deriving DecidableEq, Repr

class FileSystem (m : Type → Type) where
  hasEntry : String → m (Except IoFault Bool)
  read : String → m (Except IoFault Bytes)
  perform : FileStep → m (Except IoFault Unit)
  remove : String → m (Except IoFault Unit)

/-- A checkpoint store, named by the path of its file. -/
structure Store where
  path : String
deriving DecidableEq, Repr

namespace Store

/-- The file beside the store's that a save writes first. -/
def draft (s : Store) : String := Path.withExtension s.path "tmp"

def saveSteps (s : Store) (c : Checkpoint) : List FileStep :=
  [.create s.draft, .append s.draft c.toFile, .sync s.draft, .rename s.draft s.path]

variable {m : Type → Type} [Monad m] [FileSystem m]

def performAll : List FileStep → m (Except IoFault Unit)
  | [] => return .ok ()
  | step :: steps => do
    match ← FileSystem.perform step with
    | .ok _ => performAll steps
    | .error e => return .error e

def save (s : Store) (c : Checkpoint) : m (Except Error Unit) := do
  return (← performAll (s.saveSteps c)).mapError .io

/-- The saved checkpoint, or nothing when there is no file. -/
def load (s : Store) : m (Except Error (Option Checkpoint)) := do
  match ← FileSystem.hasEntry s.path with
  | .error e => return .error (.io e)
  | .ok false => return .ok none
  | .ok true =>
    match ← FileSystem.read s.path with
    | .error e => return .error (.io e)
    | .ok bytes => return (Checkpoint.ofFile bytes).map some

def delete (s : Store) : m (Except Error Unit) := do
  match ← FileSystem.hasEntry s.path with
  | .error e => return .error (.io e)
  | .ok false => return .ok ()
  | .ok true => return (← FileSystem.remove s.path).mapError .io

end Store

end ChangeFeed
