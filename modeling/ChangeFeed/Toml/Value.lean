/-!
What a TOML text can hold. Dates and times are kept as their text.
-/
namespace ChangeFeed.Toml

inductive Value
  | text (s : String)
  | integer (n : Int)
  | real (x : Float)
  | bool (b : Bool)
  | moment (text : String)
  | list (items : List Value)
  | table (entries : List (String × Value))

end ChangeFeed.Toml
