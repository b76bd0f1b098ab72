import ChangeFeed.Checkpoint.Store
import ChangeFeed.Config.Document
import ChangeFeed.Config.Place
import ChangeFeed.Config.Settings

/-!
Loading settings: a file, and over it the variables of the environment whose names begin with
`PG_CAPTURE_`. In the rest of such a name two underscores part the names of a place.
-/
namespace ChangeFeed.Config

/-- What begins the name of a variable that is a setting. -/
def variableMark : String := "pg_capture_"

/-- The name of the setting that a variable gives. -/
def settingName? (name : String) : Option String :=
  let name := fold name
  if name.startsWith variableMark then
    some ((String.ofList (name.toList.drop variableMark.length)).replace "__" ".")
  else none

def ofEnvironment (environment : List (String × String)) : List (String × Value) :=
  environment.filterMap fun v => (settingName? v.1).map fun name => (name, .text v.2)

/-- Either what a table has under a name, or what a list has at the name's position. -/
def field? (v : Value) (name : String) (position : Nat) : Option Value :=
  match v with
  | .table _ => v.get? name
  | .list items => items[position]?
  | _ => none

/-- A setting that has to be there. -/
def required {α : Type} (read : Value → Option α) (v : Value) (name : String) (position : Nat) :
    Except SettingsFault α :=
  match field? v name position with
  | none => .error (.missingSetting name)
  | some w => (read w).elim (.error (.unfitSetting name)) .ok

/-- A setting that need not be there. -/
def optional {α : Type} (read : Value → Option α) (v : Value) (name : String) (position : Nat)
    (absent : α) : Except SettingsFault α :=
  match field? v name position with
  | none => .ok absent
  | some w => (read w).elim (.error (.unfitSetting name)) .ok

/-- Whether a value can hold settings of its own. -/
def Value.isGroup : Value → Bool
  | .table _ | .list _ => true
  | _ => false

def sourceOf (v : Value) : Except SettingsFault SourceConfig := do
  if !v.isGroup then .error (.unfitSetting "source")
  return {
    setupTarget := ← required Value.text? v "setup_conn_str" 0
    replicationTarget := ← required Value.text? v "repl_conn_str" 1
    slot := ← required Value.text? v "repl_slot" 2
    createSlot := ← optional Value.bool? v "create_slot" 3 false
    reportInterval := ← optional Value.natural? v "report_interval_secs" 4 5
    channelCapacity := ← optional Value.natural? v "channel_capacity" 5 100
    connectTimeout := ← optional Value.natural? v "connect_timeout_secs" 6 30 }

def file? : Value → Option (Option String)
  | .nothing => some none
  | v => v.text?.map some

def checkpointOf (v : Value) : Except SettingsFault CheckpointConfig := do
  if !v.isGroup then .error (.unfitSetting "checkpoint")
  return {
    file := ← optional file? v "file" 0 none
    saveInterval := ← optional Value.natural? v "save_interval_secs" 1 10 }

def settingsOf (v : Value) : Except SettingsFault Settings := do
  let source ← required some v "source" 0
  let checkpoint ← optional some v "checkpoint" 1 (.table [])
  return ⟨← sourceOf source, ← checkpointOf checkpoint⟩

/-- The settings that a file's text and an environment give, if none of them is refused. -/
def assemble (file : List (String × Value)) (environment : List (String × String)) :
    Except Error Settings := do
  let root := ((Value.table []).merge file).merge (ofEnvironment environment)
  let settings ← (settingsOf root).mapError fun fault => .config (.settings fault)
  settings.source.validate
  return settings

section

variable {m : Type → Type} [Monad m] [FileSystem m]

/-- The text of a file, if there is one of that name. -/
def readText? (path : String) : m (Option String) := do
  match ← FileSystem.read path with
  | .ok bytes =>
    let bytes := if bytes.take 3 = [0xEF, 0xBB, 0xBF] then bytes.drop 3 else bytes
    return some (Text.Utf8.lossyString bytes)
  | .error _ => return none

/-- The first file that is there of those named by a path and the extension of a format. -/
def findFile (path : String) : List Format → m (Except SettingsFault (Format × String))
  | [] => return .error (.missingFile path)
  | f :: fs => do
    match ← readText? (path ++ "." ++ f.extension) with
    | some text => return .ok (f, text)
    | none => findFile path fs

/-- The format and the text of a settings file. A path that names no file may lack the extension. -/
def openFile (path : String) : m (Except SettingsFault (Format × String)) := do
  match ← readText? path with
  | some text => return ((formatOf? path).map (·, text)).elim (.error (.unknownFormat path)) .ok
  | none => findFile path formats

/-- Loads the settings of a file and an environment. -/
def load (path : String) (environment : List (String × String)) : m (Except Error Settings) := do
  match ← openFile path with
  | .error fault => return .error (.config (.settings fault))
  | .ok (format, text) =>
    match format.read? text with
    | none => return .error (.config (.settings (.malformed path)))
    | some entries => return assemble entries environment

end

end ChangeFeed.Config
