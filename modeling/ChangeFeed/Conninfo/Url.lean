import ChangeFeed.Text.Cut

/-!
Connection strings in the form of a URL, divided into their parts by position: credentials up to the
first `@`, hosts up to `/` or `?`, a path up to `?`, and parameters. Nothing is decoded here.
-/
namespace ChangeFeed.Conninfo

open Text

structure Url where
  credentials : Option (List Char)
  hosts : List Char
  path : List Char
  /-- Keys and values in their order. -/
  params : List (List Char × List Char)
deriving DecidableEq, Repr

namespace Url

def schemes : List (List Char) := ["postgres://".toList, "postgresql://".toList]

def afterScheme? (cs : List Char) : Option (List Char) :=
  (schemes.find? (·.isPrefixOf cs)).map fun s => cs.drop s.length

/-- Each key ends at an equals sign, each value at an ampersand. -/
def params? (cs : List Char) : Option (List (List Char × List Char)) :=
  if cs = [] then some []
  else match _h : cut? '=' cs with
    | none => none
    | some (key, rest) =>
      match _r : cut? '&' rest with
      | none => some [(key, rest)]
      | some (value, rest') => (params? rest').map ((key, value) :: ·)
termination_by cs.length
decreasing_by
  have := length_of_cut? _h
  have := length_of_cut? _r
  omega

/-- Divides what follows the scheme; nothing if a parameter lacks its equals sign. -/
def read? (cs : List Char) : Option Url :=
  let (credentials, cs) := match cut? '@' cs with
    | some (creds, rest) => (some creds, rest)
    | none => (none, cs)
  let endsHosts := fun c => c == '/' || c == '?'
  let hosts := cs.takeWhile (!endsHosts ·)
  let (path, query) := match cs.dropWhile (!endsHosts ·) with
    | '/' :: rest => (rest.takeWhile (· != '?'), rest.dropWhile (· != '?'))
    | rest => ([], rest)
  (params? (query.drop 1)).map (⟨credentials, hosts, path, ·⟩)

end Url

end ChangeFeed.Conninfo
