import CellCanvas.Toml.Syntax

/-!
# TOML documents

A document is read line by line; each header says to which table the lines below it belong.
-/

namespace CellCanvas.Toml

/-- A document that is being read. -/
structure Document where
  entries : Entries := []
  /-- The table of the last header. -/
  here : List String := []

namespace Document

/-- The document with one more line. -/
def add? (d : Document) : Line → Option Document
  | .empty => some d
  | .assignment k v => (d.entries.assignWithin? d.here k v).map fun es => { d with entries := es }
  | .tableHeader k =>
    (d.entries.openTable? k).map fun es => { entries := es, here := k.parents ++ [k.name] }
  | .elementHeader k =>
    (d.entries.openElement? k).map fun es => { entries := es, here := k.parents ++ [k.name] }

/-- The document with all lines of a text. -/
def addAll? (d : Document) (cs : List Char) : Option Document :=
  if cs.isEmpty then some d
  else
    match line? cs with
    | none => none
    | some (line, rest) =>
      if rest.length < cs.length then (d.add? line).bind fun d => d.addAll? rest else none
termination_by cs.length

end Document

/-- Read a document. A byte order mark at its beginning does not count. -/
def read? (text : String) : Option Entries :=
  let cs := match text.toList with
    | '\uFEFF' :: rest => rest
    | cs => cs
  (Document.addAll? {} cs).map Document.entries

end CellCanvas.Toml
