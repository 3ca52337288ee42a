import CellCanvas.Proofs.Wire.Parameters

/-!
# Reading Sixel images

A terminal reads the data of a Sixel image as items, each a character with the parameters behind it:
raster attributes, colour registers that are defined or selected, counts, columns of six pixels, the
return to the left edge and the step to the next band. What it paints is kept for each pixel, in
order, with no bound on the picture.
-/

namespace CellCanvas.Sixel

open Wire

/-- A colour by the percentages of its channels. -/
structure Shade where
  red : Nat
  green : Nat
  blue : Nat
deriving DecidableEq, Repr

/-- A character that a terminal acts on, with its parameters as written. -/
structure Item where
  head : Char
  parameters : List Char
deriving DecidableEq, Repr

/-- Whether a character belongs to the parameters of the item before it. -/
def continuesItem (c : Char) : Bool := c.isDigit || c == ';'

/-- The parameters at the start of some characters, and the items behind them. -/
def items : List Char → List Char × List Item
  | [] => ([], [])
  | c :: rest =>
    let (ps, others) := items rest
    if continuesItem c then (c :: ps, others) else ([], ⟨c, ps⟩ :: others)

/-- A picture that is being drawn. -/
structure Canvas where
  /-- The raster attributes: the aspect ratio, the width and the height. -/
  raster : List Nat := []
  /-- The registers that have been defined, in order. -/
  definitions : List (Nat × Shade) := []
  selected : Option Nat := none
  /-- How many columns the next character stands for. -/
  count : Nat := 1
  column : Nat := 0
  /-- The first row of the band. -/
  top : Nat := 0
  /-- What has been painted at a column and a row, in order. -/
  paints : Nat → Nat → List Shade := fun _ _ => []
  /-- Whether everything made sense so far: no register was defined twice or selected before it was
  defined, and nothing was drawn without a colour. -/
  isSound : Bool := true

namespace Canvas

/-- The canvas after something that makes no sense. -/
def fail (c : Canvas) : Canvas := { c with isSound := false }

/-- Define a register, which is selected then. -/
def define (c : Canvas) (register : Nat) (shade : Shade) : Canvas :=
  { c with
    definitions := c.definitions ++ [(register, shade)]
    selected := some register
    isSound := c.isSound && (c.definitions.lookup register).isNone }

/-- Select a register. -/
def select (c : Canvas) (register : Nat) : Canvas :=
  { c with
    selected := some register
    isSound := c.isSound && (c.definitions.lookup register).isSome }

/-- The colour that is selected. -/
def shade? (c : Canvas) : Option Shade := c.selected.bind fun r => c.definitions.lookup r

/-- Paint the pixels of a column whose bits are set, from the top of the band downwards, and the
same in the columns to the right as often as is counted. -/
def draw (c : Canvas) (bits : Nat) : Canvas :=
  match c.shade? with
  | some shade =>
    { c with
      count := 1
      column := c.column + c.count
      paints := fun x y => c.paints x y ++
        if c.column ≤ x ∧ x < c.column + c.count ∧ c.top ≤ y ∧ bits.testBit (y - c.top) = true then
          [shade]
        else [] }
  | none => c.fail

/-- Act on an item. Percentages are the second of the ways to define a colour. -/
def act (c : Canvas) : Item → Canvas
  | ⟨'"', ps⟩ => { c with raster := numbers ps }
  | ⟨'#', ps⟩ =>
    match numbers ps with
    | [register] => c.select register
    | [register, 2, red, green, blue] => c.define register ⟨red, green, blue⟩
    | _ => c.fail
  | ⟨'!', ps⟩ => { c with count := number ps }
  | ⟨'$', []⟩ => { c with column := 0 }
  | ⟨'-', []⟩ => { c with column := 0, top := c.top + 6 }
  | ⟨head, []⟩ =>
    if 0x3F ≤ head.toNat ∧ head.toNat ≤ 0x7E then c.draw (head.toNat - 0x3F) else c.fail
  | _ => c.fail

/-- Act on items in order. -/
def actAll (c : Canvas) (is : List Item) : Canvas := is.foldl act c

@[simp] theorem actAll_nil (c : Canvas) : c.actAll [] = c := rfl

@[simp] theorem actAll_cons (c : Canvas) (i : Item) (is : List Item) :
    c.actAll (i :: is) = (c.act i).actAll is := rfl

theorem actAll_append (c : Canvas) (is js : List Item) :
    c.actAll (is ++ js) = (c.actAll is).actAll js :=
  List.foldl_append

end Canvas

/-- A picture that was drawn at a cell. -/
structure Drawing where
  /-- The row and the column of the cell, counted from one. -/
  cell : List Nat
  /-- Whether pixels that are not painted stay as they are. -/
  isOverlay : Bool
  canvas : Canvas

/-- The picture that a text draws: a cursor position and one device control string with whole
items. -/
def drawing? (text : String) : Option Drawing :=
  match scan .ground text.toList with
  | (.ground, [.control cell 'H', .string 'P' body]) =>
    match body.dropWhile (· ≠ 'q') with
    | _ :: data =>
      match items data with
      | ([], is) =>
        some ⟨numbers cell, (numbers (body.takeWhile (· ≠ 'q')))[1]? == some 1,
          ({} : Canvas).actAll is⟩
      | _ => none
    | [] => none
  | _ => none

/-- The picture that some bytes draw. -/
def decode? (bytes : ByteArray) : Option Drawing := (String.fromUTF8? bytes).bind drawing?

/-- The characters are exactly these items. -/
def Reads (cs : List Char) (is : List Item) : Prop := items cs = ([], is)

namespace Reads

theorem nil : Reads [] [] := rfl

/-- Parameters behind a character that starts an item. -/
theorem item {head : Char} {ps : List Char} (hhead : continuesItem head = false)
    (hps : ∀ c ∈ ps, continuesItem c = true) : Reads (head :: ps) [⟨head, ps⟩] := by
  have hread : items ps = (ps, []) := by
    induction ps with
    | nil => rfl
    | cons c ps ih =>
      rw [items, ih fun d hd => hps d (List.mem_cons_of_mem c hd)]
      exact if_pos (hps c List.mem_cons_self)
  rw [Reads, items, hread]
  exact if_neg (by rw [hhead]; exact Bool.false_ne_true)

theorem append {as bs : List Char} {is js : List Item} (ha : Reads as is) (hb : Reads bs js) :
    Reads (as ++ bs) (is ++ js) := by
  have hsplit : items (as ++ bs) = ((items as).1, (items as).2 ++ js) := by
    clear ha
    induction as with
    | nil => exact hb
    | cons c as ih =>
      rw [List.cons_append, items, items, ih]
      dsimp only
      split_ifs <;> rfl
  unfold Reads at ha ⊢
  rw [hsplit, ha]

theorem flatMap {α : Type} {xs : List α} {text : α → List Char} {read : α → List Item}
    (h : ∀ x ∈ xs, Reads (text x) (read x)) : Reads (xs.flatMap text) (xs.flatMap read) := by
  induction xs with
  | nil => exact nil
  | cons x xs ih =>
    simp only [List.flatMap_cons]
    exact (h x (by simp)).append (ih fun y hy => h y (by simp [hy]))

end Reads

theorem continuesItem_of_mem_numeral {n : Nat} {c : Char} (h : c ∈ numeral n) :
    continuesItem c = true := by
  rw [continuesItem, isDigit_of_mem_numeral h, Bool.true_or]

end CellCanvas.Sixel
