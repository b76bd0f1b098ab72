/-!
The command line of the program. The arguments are read from left to right, and the first that asks
for help or is wrong decides.
-/
namespace ChangeFeed.Program

structure Options where
  /-- The settings file. -/
  config : String
  jsonLogs : Bool
  verbose : Bool
  /-- Whether a saved checkpoint does not count. -/
  fromCurrent : Bool
deriving DecidableEq, Repr

inductive UsageFault
  | unexpected (argument : String)
  | repeated (option : String)
  | missingValue
deriving DecidableEq, Repr

def UsageFault.text : UsageFault → String
  | .unexpected argument => "error: unexpected argument '" ++ argument ++ "' found"
  | .repeated option =>
    "error: the argument '" ++ option ++ "' cannot be used multiple times"
  | .missingValue =>
    "error: a value is required for '--config <FILE>' but none was supplied"

inductive Invocation
  | run (o : Options)
  | help
  | wrong (fault : UsageFault)
deriving DecidableEq, Repr

def usageLine : String := "Usage: pglogical-capture [OPTIONS]"

def helpLines : List String :=
  ["Stream PostgreSQL logical replication changes as JSON lines",
    "",
    usageLine,
    "",
    "Options:",
    "  -c, --config <FILE>  [default: config.toml]",
    "  -j, --json-logs      Enable JSON output for logs",
    "  -v, --verbose        Verbose logging",
    "      --from-current   Ignore any saved checkpoint and start at the server's current position",
    "  -h, --help           Print help"]

/-- What has been read of the arguments; a settings file may be named once. -/
structure Reading where
  config : Option String
  jsonLogs : Bool
  verbose : Bool
  fromCurrent : Bool

namespace Reading

def empty : Reading := ⟨none, false, false, false⟩

def options (r : Reading) : Options :=
  ⟨r.config.getD "config.toml", r.jsonLogs, r.verbose, r.fromCurrent⟩

def setConfig (r : Reading) (file : String) : Except UsageFault Reading :=
  if file.isEmpty then .error .missingValue
  else if r.config.isSome then .error (.repeated "--config <FILE>")
  else .ok { r with config := some file }

def setJsonLogs (r : Reading) : Except UsageFault Reading :=
  if r.jsonLogs then .error (.repeated "--json-logs") else .ok { r with jsonLogs := true }

def setVerbose (r : Reading) : Except UsageFault Reading :=
  if r.verbose then .error (.repeated "--verbose") else .ok { r with verbose := true }

def setFromCurrent (r : Reading) : Except UsageFault Reading :=
  if r.fromCurrent then .error (.repeated "--from-current") else .ok { r with fromCurrent := true }

end Reading

inductive Reaction
  | next (r : Reading)
  /-- The settings file is the argument that follows. -/
  | awaitConfig (r : Reading)
  | stop (i : Invocation)

def Reaction.ofExcept : Except UsageFault Reading → Reaction
  | .ok r => .next r
  | .error fault => .stop (.wrong fault)

/-- An argument of letters after one hyphen. What follows the letter that takes a value is the value. -/
def readLetters (r : Reading) : List Char → Reaction
  | [] => .next r
  | c :: cs =>
    if c = 'h' then .stop .help
    else if c = 'c' then
      match cs with
      | [] => .awaitConfig r
      | '=' :: file => .ofExcept (r.setConfig (String.ofList file))
      | file => .ofExcept (r.setConfig (String.ofList file))
    else
      let set := if c = 'j' then r.setJsonLogs
        else if c = 'v' then r.setVerbose
        else .error (.unexpected (String.ofList ['-', c]))
      match set with
      | .ok r => readLetters r cs
      | .error fault => .stop (.wrong fault)

/-- An argument of a word after two hyphens, without these. -/
def readWord (r : Reading) (word : String) : Reaction :=
  let cs := word.toList
  let name := String.ofList (cs.takeWhile (· ≠ '='))
  let value? := match cs.dropWhile (· ≠ '=') with
    | _ :: v => some (String.ofList v)
    | [] => none
  match name, value? with
  | "config", some file => .ofExcept (r.setConfig file)
  | "config", none => .awaitConfig r
  | "json-logs", none => .ofExcept r.setJsonLogs
  | "verbose", none => .ofExcept r.setVerbose
  | "from-current", none => .ofExcept r.setFromCurrent
  | "help", none => .stop .help
  | _, _ => .stop (.wrong (.unexpected ("--" ++ word)))

def react (r : Reading) (argument : String) : Reaction :=
  match argument.toList with
  | '-' :: '-' :: word => readWord r (String.ofList word)
  | '-' :: c :: cs => readLetters r (c :: cs)
  | _ => .stop (.wrong (.unexpected argument))

/-- Whether an argument can be a value: not what begins with a hyphen, but a hyphen alone can. -/
def isValue (argument : String) : Bool :=
  match argument.toList with
  | '-' :: _ :: _ => false
  | _ => true

def readFrom : Reading → List String → Invocation
  | r, [] => .run r.options
  | r, argument :: rest =>
    if argument = "--" then
      match rest with
      | [] => .run r.options
      | extra :: _ => .wrong (.unexpected extra)
    else match react r argument with
      | .stop i => i
      | .next r => readFrom r rest
      | .awaitConfig r =>
        match rest with
        | [] => .wrong .missingValue
        | file :: rest =>
          if isValue file then
            match r.setConfig file with
            | .ok r => readFrom r rest
            | .error fault => .wrong fault
          else .wrong .missingValue

def readArguments (arguments : List String) : Invocation := readFrom .empty arguments

end ChangeFeed.Program
