/-!
# Values

The values of a TOML document. A table keeps how it was written, because that decides which later
lines may add to it. Floating-point numbers and dates are known as such only: no setting is one.
-/

namespace CellCanvas.Toml

/-- How a table came into being. -/
inductive Origin where
  /-- By a header of its own. -/
  | header
  /-- By a longer header than its own. -/
  | implied
  /-- By a dotted key. -/
  | dotted
  /-- Between braces. -/
  | inline
deriving DecidableEq, Repr

/-- A value of a document. -/
inductive Value where
  | text (content : String)
  | integer (n : Int)
  | float
  | boolean (b : Bool)
  | moment
  | list (items : List Value)
  | table (origin : Origin) (entries : List (String × Value))
  /-- Tables under equal headers in double brackets; the last one is the one that grows. -/
  | tables (earlier : List (List (String × Value))) (last : List (String × Value))

/-- The keys of a table with their values, in the order of the document. -/
abbrev Entries := List (String × Value)

end CellCanvas.Toml
