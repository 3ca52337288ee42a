import CellCanvas.Proofs.Image.Sixel.Reader
import CellCanvas.Proofs.Image.Texts
import Mathlib.Data.List.GetD

/-!
# Drawing a pass

What a terminal draws when it reads the pass of a register over a band. A counted run draws the same
as its characters one by one, so a pass draws all of its columns from the left edge.
-/

namespace CellCanvas.Sixel

open Wire

/-- The paint at a pixel of columns that start at a left edge, below the top of a band. -/
def columnsPaint (left top : Nat) (shade : Shade) (columns : List Nat) (x y : Nat) : List Shade :=
  if left ≤ x ∧ top ≤ y ∧ (columns.getD (x - left) 0).testBit (y - top) = true then [shade] else []

theorem columnsPaint_nil (left top : Nat) (shade : Shade) (x y : Nat) :
    columnsPaint left top shade [] x y = [] := by
  simp [columnsPaint]

theorem columnsPaint_append (left top : Nat) (shade : Shade) (as bs : List Nat) (x y : Nat) :
    columnsPaint left top shade (as ++ bs) x y =
      columnsPaint left top shade as x y ++ columnsPaint (left + as.length) top shade bs x y := by
  unfold columnsPaint
  by_cases hfirst : x < left + as.length
  · have hget (hleft : left ≤ x) : (as ++ bs).getD (x - left) 0 = as.getD (x - left) 0 :=
      List.getD_append _ _ _ _ (by omega)
    rw [if_neg (fun h : left + as.length ≤ x ∧ _ => absurd h.1 (Nat.not_le.mpr hfirst)),
      List.append_nil]
    exact if_congr (and_congr_right fun hleft => by rw [hget hleft]) rfl rfl
  · have hleft : left ≤ x := by omega
    have hrest : x - (left + as.length) = x - left - as.length := by omega
    rw [List.getD_append_right _ _ _ _ (by omega), List.getD_eq_default as 0 (by omega), hrest]
    simp [hleft, Nat.le_of_not_lt hfirst]

namespace Canvas

/-- The canvas with more paint, and perhaps another register selected. -/
def paint (c : Canvas) (selected : Option Nat) (new : Nat → Nat → List Shade) : Canvas :=
  { c with selected, paints := fun x y => c.paints x y ++ new x y }

theorem paint_paint (c : Canvas) (selected selected' : Option Nat)
    (new new' : Nat → Nat → List Shade) : (c.paint selected new).paint selected' new' =
      c.paint selected' fun x y => new x y ++ new' x y := by
  simp only [paint, List.append_assoc]

theorem paint_nil (c : Canvas) : c.paint c.selected (fun _ _ => []) = c := by
  simp only [paint, List.append_nil]

/-- Columns drawn one after the other in a colour. -/
def stroke (c : Canvas) (shade : Shade) (columns : List Nat) : Canvas :=
  { c with
    column := c.column + columns.length
    paints := fun x y => c.paints x y ++ columnsPaint c.column c.top shade columns x y }

theorem stroke_nil (c : Canvas) (shade : Shade) : c.stroke shade [] = c := by
  simp [stroke, columnsPaint_nil]

theorem stroke_append (c : Canvas) (shade : Shade) (as bs : List Nat) :
    (c.stroke shade as).stroke shade bs = c.stroke shade (as ++ bs) := by
  simp only [stroke, List.length_append, Nat.add_assoc, columnsPaint_append, List.append_assoc]

/-- A counted column is drawn as often as is counted. -/
theorem draw_counted {c : Canvas} {shade : Shade} (hcount : c.count = 1)
    (hshade : c.shade? = some shade) (n bits : Nat) :
    ({ c with count := n } : Canvas).draw bits = c.stroke shade (List.replicate n bits) := by
  have hshade' : ({ c with count := n } : Canvas).shade? = some shade := hshade
  have hiff (x y : Nat) : (c.column ≤ x ∧ x < c.column + n ∧ c.top ≤ y ∧
      bits.testBit (y - c.top) = true) ↔ c.column ≤ x ∧ c.top ≤ y ∧
        ((List.replicate n bits).getD (x - c.column) 0).testBit (y - c.top) = true := by
    by_cases hx : x - c.column < n
    · rw [List.getD_eq_getElem _ _ (by simpa using hx), List.getElem_replicate]
      have : c.column ≤ x → x < c.column + n := by omega
      tauto
    · have hnot : ¬(c.column ≤ x ∧ x < c.column + n) := by omega
      have hout : (List.replicate n bits).getD (x - c.column) 0 = 0 :=
        List.getD_eq_default _ _ (by simpa using hx)
      rw [hout, Nat.zero_testBit]
      simp
      omega
  rw [draw, hshade']
  simp only [stroke, columnsPaint, hiff, hcount, List.length_replicate]

theorem draw_once {c : Canvas} {shade : Shade} (hcount : c.count = 1)
    (hshade : c.shade? = some shade) (bits : Nat) : c.draw bits = c.stroke shade [bits] := by
  have hone : ({ c with count := 1 } : Canvas) = c := by rw [← hcount]
  have hdraw := draw_counted hcount hshade 1 bits
  rwa [hone] at hdraw

end Canvas

/-- Whether a character stands for a column of six pixels. -/
def IsColumn (c : Char) : Prop := 0x3F ≤ c.toNat ∧ c.toNat ≤ 0x7E

/-- The pixels of a column as bits. -/
def bitsOf (c : Char) : Nat := c.toNat - 0x3F

theorem IsColumn.continuesItem {c : Char} (h : IsColumn c) : continuesItem c = false := by
  have hdigit : c.isDigit = false := by
    by_contra hdigit
    have hn := toNat_of_isDigit (Bool.eq_true_of_not_eq_false hdigit)
    have := h.1
    omega
  have hsemicolon : c ≠ ';' := by
    rintro rfl
    exact absurd h.1 (by decide)
  rw [Sixel.continuesItem, hdigit, beq_false_of_ne hsemicolon]
  rfl

theorem Canvas.act_column {head : Char} (h : IsColumn head) (c : Canvas) :
    c.act ⟨head, []⟩ = c.draw (bitsOf head) := by
  unfold act
  split
  case h_6 heq =>
    cases heq
    exact if_pos h
  case h_7 hother => exact absurd rfl (hother head)
  -- The other items start with characters that are no columns.
  all_goals
    rename_i heq
    cases heq
    exact absurd h.1 (by decide)

section Runs

/-- The items of a run. -/
def runItems (run : Char × Nat) : List Item :=
  if minCountedRun ≤ run.2 then [⟨'!', numeral run.2⟩, ⟨run.1, []⟩]
  else List.replicate run.2 ⟨run.1, []⟩

theorem reads_encodeRun {run : Char × Nat} (h : IsColumn run.1) :
    Reads (encodeRun run).toList (runItems run) := by
  have hone : Reads [run.1] [⟨run.1, []⟩] := .item h.continuesItem nofun
  unfold encodeRun runItems
  split_ifs
  · have hcount : Reads ('!' :: numeral run.2) [⟨'!', numeral run.2⟩] :=
      .item rfl fun c => continuesItem_of_mem_numeral
    rw [String.toList_append, String.toList_append, toList_toString]
    exact hcount.append (by simpa using hone)
  · rw [String.toList_ofList]
    induction run.2 with
    | zero => exact .nil
    | succ n ih => exact hone.append ih

/-- The characters of runs are those that the runs were made of. -/
theorem flatMap_runs (cs : List Char) :
    (runs cs).flatMap (fun run => List.replicate run.2 run.1) = cs := by
  induction cs with
  | nil => rfl
  | cons c rest ih =>
    rw [runs]
    cases hruns : runs rest with
    | nil =>
      rw [hruns] at ih
      rw [← ih]
      rfl
    | cons run others =>
      obtain ⟨d, n⟩ := run
      rw [hruns, List.flatMap_cons] at ih
      dsimp only at ih ⊢
      split_ifs with hc
      · rw [hc, List.flatMap_cons, List.replicate_succ, List.cons_append, ih]
      · rw [List.flatMap_cons, List.flatMap_cons, ih]
        rfl

variable {c : Canvas} {shade : Shade}

theorem Canvas.actAll_columns (hcount : c.count = 1) (hshade : c.shade? = some shade) {head : Char}
    (h : IsColumn head) (n : Nat) :
    c.actAll (List.replicate n ⟨head, []⟩) = c.stroke shade (List.replicate n (bitsOf head)) := by
  induction n generalizing c with
  | zero => exact (c.stroke_nil shade).symm
  | succ n ih =>
    have hfirst := c.stroke_append shade [bitsOf head] (List.replicate n (bitsOf head))
    rw [List.replicate_succ, actAll_cons, act_column h, draw_once hcount hshade]
    rw [ih (c := c.stroke shade [bitsOf head]) hcount hshade, hfirst]
    rfl

theorem Canvas.actAll_runItems (hcount : c.count = 1) (hshade : c.shade? = some shade)
    {run : Char × Nat} (h : IsColumn run.1) :
    c.actAll (runItems run) = c.stroke shade (List.replicate run.2 (bitsOf run.1)) := by
  unfold runItems
  split_ifs
  · have hnumber : c.act ⟨'!', numeral run.2⟩ = { c with count := run.2 } := by
      simp only [act, number_numeral]
    rw [actAll_cons, actAll_cons, actAll_nil, hnumber, act_column h, draw_counted hcount hshade]
  · exact actAll_columns hcount hshade h run.2

theorem Canvas.actAll_flatMap_runItems (hcount : c.count = 1) (hshade : c.shade? = some shade)
    {rs : List (Char × Nat)} (h : ∀ run ∈ rs, IsColumn run.1) :
    c.actAll (rs.flatMap runItems) =
      c.stroke shade ((rs.flatMap fun run => List.replicate run.2 run.1).map bitsOf) := by
  induction rs generalizing c with
  | nil => exact (c.stroke_nil shade).symm
  | cons run rs ih =>
    have hrest := ih (c := c.stroke shade (List.replicate run.2 (bitsOf run.1))) hcount hshade
      fun r hr => h r (List.mem_cons_of_mem run hr)
    rw [List.flatMap_cons, actAll_append, actAll_runItems hcount hshade (h run List.mem_cons_self),
      hrest, stroke_append, List.flatMap_cons, List.map_append, List.map_replicate]

end Runs

section Passes

/-- The items of the pass of a register over columns. -/
def passItems (register : Nat) (columns : List Char) : List Item :=
  ⟨'#', numeral register⟩ :: (runs columns).flatMap runItems ++ [⟨'$', []⟩]

theorem reads_pass (register : Nat) {columns : List Char} (h : ∀ c ∈ columns, IsColumn c) :
    Reads ("#" ++ toString register ++ String.join ((runs columns).map encodeRun) ++ "$").toList
      (passItems register columns) := by
  have hregister : Reads ('#' :: numeral register) [⟨'#', numeral register⟩] :=
    .item rfl fun c => continuesItem_of_mem_numeral
  have hruns : Reads (String.join ((runs columns).map encodeRun)).toList
      ((runs columns).flatMap runItems) := by
    rw [String.toList_join, List.flatMap_map]
    exact Reads.flatMap fun run hrun => reads_encodeRun (h _ (mem_of_mem_runs hrun))
  have hreturn : Reads ['$'] [⟨'$', []⟩] := .item rfl nofun
  rw [String.toList_append, String.toList_append, String.toList_append, toList_toString]
  exact (hregister.append hruns).append hreturn

/-- A pass paints the columns of its register and returns to the left edge. -/
theorem Canvas.actAll_passItems {c : Canvas} {shade : Shade} (hcount : c.count = 1)
    (hcolumn : c.column = 0) {register : Nat}
    (hregister : c.definitions.lookup register = some shade) {columns : List Char}
    (h : ∀ ch ∈ columns, IsColumn ch) :
    c.actAll (passItems register columns) =
      c.paint (some register) (columnsPaint 0 c.top shade (columns.map bitsOf)) := by
  have hselect : c.act ⟨'#', numeral register⟩ = { c with selected := some register } := by
    simp [act, numbers_numeral, select, hregister]
  have hshade : ({ c with selected := some register } : Canvas).shade? = some shade := hregister
  have hcolumns : ∀ run ∈ runs columns, IsColumn run.1 :=
    fun run hrun => h _ (mem_of_mem_runs hrun)
  have hruns := Canvas.actAll_flatMap_runItems (c := { c with selected := some register }) hcount
    hshade hcolumns
  rw [passItems, List.cons_append, actAll_cons, hselect, actAll_append, hruns, flatMap_runs,
    actAll_cons, actAll_nil]
  simp only [act, stroke, paint, hcolumn]

end Passes

end CellCanvas.Sixel
