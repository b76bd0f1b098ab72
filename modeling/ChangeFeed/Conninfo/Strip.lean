import ChangeFeed.Conninfo.Setting
import ChangeFeed.Conninfo.Url

/-!
Connection strings without their `replication` option. A replication connection sets the option
itself, so one that is given is taken out before the string is read; the rest is left as written.
-/
namespace ChangeFeed.Conninfo

open Text

def replicationKey : List Char := "replication".toList

/-- Whether a parameter of a URL sets the option. -/
def setsReplication (param : List Char) : Bool := (replicationKey ++ ['=']).isPrefixOf param

/-- Empty parameters go as well, and the question mark with the last of them. -/
def stripUrl (cs : List Char) : List Char :=
  match cut? '?' cs with
  | none => cs
  | some (base, query) =>
    match (parts '&' query).filter fun p => p != [] && !setsReplication p with
    | [] => base
    | kept => base ++ '?' :: join '&' kept

/-- One space stands between the settings that stay; a malformed text is left for its reader to
refuse. -/
def stripSettings (cs : List Char) : List Char :=
  match settings? cs with
  | none => cs
  | some settings => join ' ' ((settings.filter (·.key != replicationKey)).map (·.text))

def stripReplication (s : String) : String :=
  let cs := trimEnd (trimStart s.toList)
  String.ofList (if (Url.afterScheme? cs).isSome then stripUrl cs else stripSettings cs)

end ChangeFeed.Conninfo
