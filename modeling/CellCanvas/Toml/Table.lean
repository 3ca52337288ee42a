import CellCanvas.Toml.Value

/-!
# Growing tables

A document defines each table once and each key once. A dotted key adds only to tables that dotted
keys made, a header opens a new table or one that a longer header implied, and a header in double
brackets adds a table to those under the same header.
-/

namespace CellCanvas.Toml

/-- A dotted key: the tables on the way, and the last part. -/
structure Key where
  parents : List String
  name : String
deriving DecidableEq, Repr

namespace Entries

/-- Change the value of a key that is there. -/
def replace (es : Entries) (name : String) (v : Value) : Entries :=
  es.map fun entry => if entry.1 = name then (name, v) else entry

/-- Add a key that is not there yet. -/
def add? (es : Entries) (name : String) (v : Value) : Option Entries :=
  if (es.lookup name).isSome then none else some (es ++ [(name, v)])

/-- Whether a key that makes tables of origin `made` may pass through a table. -/
def mayPass (made passed : Origin) : Bool :=
  match made with
  | .dotted => passed = .dotted || passed = .implied
  | _ => passed ≠ .inline

/-- Change the table at the end of a path. Tables that are missing on the way are made with the
origin `made`, and of tables under equal headers the last one is taken. -/
def change? (made : Origin) (f : Origin → Entries → Option Entries) :
    List String → Origin → Entries → Option Entries
  | [], origin, es => f origin es
  | name :: path, _, es =>
    match es.lookup name with
    | none => (change? made f path made []).bind fun inner => add? es name (.table made inner)
    | some (.table origin inner) =>
      if mayPass made origin then
        (change? made f path origin inner).map fun inner => replace es name (.table origin inner)
      else none
    | some (.tables earlier last) =>
      (change? made f path .header last).map fun last => replace es name (.tables earlier last)
    | some _ => none

/-- Give a dotted key its value. The table that holds it was made by the dotted key itself or by
another one, unless the key has one part only. -/
def assign? (es : Entries) (k : Key) (v : Value) : Option Entries :=
  change? .dotted
    (fun origin es => if k.parents ≠ [] && origin ≠ .dotted then none else add? es k.name v)
    k.parents .header es

/-- Open the table of a header. -/
def openTable? (es : Entries) (k : Key) : Option Entries :=
  change? .implied
    (fun _ es =>
      match es.lookup k.name with
      | none => add? es k.name (.table .header [])
      | some (.table .implied inner) => some (replace es k.name (.table .header inner))
      | some _ => none)
    k.parents .header es

/-- Open one more table under a header in double brackets. -/
def openElement? (es : Entries) (k : Key) : Option Entries :=
  change? .implied
    (fun _ es =>
      match es.lookup k.name with
      | none => add? es k.name (.tables [] [])
      | some (.tables earlier last) => some (replace es k.name (.tables (earlier ++ [last]) []))
      | some _ => none)
    k.parents .header es

/-- Give a dotted key its value in the table of the header above it. -/
def assignWithin? (es : Entries) (here : List String) (k : Key) (v : Value) : Option Entries :=
  change? .implied (fun _ es => assign? es k v) here .header es

end Entries

end CellCanvas.Toml
