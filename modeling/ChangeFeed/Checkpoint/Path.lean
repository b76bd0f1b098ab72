import ChangeFeed.Text.Cut

/-!
Paths, by their parts between slashes: a part that is empty or a single dot stays where it is, two dots
go up, and any other part is a name.
-/
namespace ChangeFeed

/-- The names on the way from the top folder to an entry. -/
abbrev Place := List String

namespace Path

def parts (path : String) : List (List Char) := Text.parts '/' path.toList

def stays (part : List Char) : Bool := part = [] || part = ['.']

/-- Where a part leads to from a place. -/
def step (p : Place) (part : List Char) : Place :=
  if stays part then p
  else if part = ['.', '.'] then p.dropLast
  else p ++ [String.ofList part]

/-- The places from which parts lead on, from the first one's. -/
def wayFrom (p : Place) : List (List Char) → List Place
  | [] => []
  | part :: parts => p :: wayFrom (step p part) parts

def names (path : String) : List (List Char) := (parts path).filter (· ≠ [])

/-- The places on the way to what a path names. -/
def way (path : String) : List Place := wayFrom [] (names path)

def place (path : String) : Place := (names path).foldl step []

/-- A path that ends in a slash names nothing but a folder. -/
def endsInSlash (path : String) : Bool := path.toList.getLast? = some '/'

/-- Whether the last part of a path is no name. -/
def endsInDots (path : String) : Bool := (names path).getLast?.all fun part => stays part || part = ['.', '.']

/-- The parts of a path up to the last that moves, and this one, if it is a name. -/
def split? (path : String) : Option (List (List Char) × List Char) :=
  match (parts path).reverse.dropWhile stays with
  | [] => none
  | name :: before => if name = ['.', '.'] then none else some (before.reverse, name)

/-- A name up to its last dot, unless that dot is its first character. -/
def stem (name : List Char) : List Char :=
  match name.reverse.dropWhile (· ≠ '.') with
  | _ :: c :: before => (c :: before).reverse
  | _ => name

/-- The path with another extension to the name that it ends with; one that ends with no name stays. -/
def withExtension (path extension : String) : String :=
  match split? path with
  | none => path
  | some (folder, name) =>
    String.ofList (Text.join '/' (folder ++ [stem name ++ '.' :: extension.toList]))

end Path

end ChangeFeed
