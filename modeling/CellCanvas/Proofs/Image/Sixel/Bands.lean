import CellCanvas.Proofs.Image.Sixel.Passes

/-!
# Drawing bands

The passes of a band paint every pixel of the band that has a register once, in the colour of that
register, and the bands cover the image.
-/

namespace CellCanvas.Sixel

open Wire

/-- Of different members one is selected. -/
theorem flatMap_ite_eq {α β : Type} [DecidableEq α] {l : List α} (hl : l.Nodup) (a : α)
    (s : List β) : (l.flatMap fun b => if b = a then s else []) = if a ∈ l then s else [] := by
  induction l with
  | nil => rfl
  | cons b l ih =>
    obtain ⟨hb, hl⟩ := List.nodup_cons.mp hl
    rw [List.flatMap_cons, ih hl]
    by_cases hba : b = a
    · subst hba
      simp [hb]
    · simp [hba, Ne.symm hba]

section Columns

variable (image : Indexed) (w h : Nat)

/-- Bit `k` of a column is the pixel in the row with that number. -/
theorem testBit_columnBits (register x k : Nat) (rows : List Nat) :
    (columnBits image w register x rows).testBit k = true ↔
      ∃ y, rows[k]? = some y ∧ image.register? w x y = some register := by
  induction rows generalizing k with
  | nil => simp [columnBits]
  | cons y rows ih =>
    rw [columnBits_cons]
    cases k with
    | zero =>
      rw [Nat.testBit_zero]
      split_ifs with hy
      · simp [hy]
      · simp [hy]
    | succ k =>
      have hhalf : (columnBits image w register x rows * 2 +
          if image.register? w x y = some register then 1 else 0) / 2 =
            columnBits image w register x rows := by
        split_ifs <;> omega
      rw [Nat.testBit_succ, hhalf, ih, List.getElem?_cons_succ]

theorem mem_bandRows {top y : Nat} : y ∈ bandRows h top ↔ top ≤ y ∧ y < top + 6 ∧ y < h := by
  rw [bandRows, List.mem_range'_1]
  omega

theorem getElem?_bandRows {top y : Nat} (hy : top ≤ y) (y' : Nat) :
    (bandRows h top)[y - top]? = some y' ↔ y' = y ∧ y ∈ bandRows h top := by
  rw [mem_bandRows, bandRows, List.getElem?_eq_some_iff]
  simp only [List.length_range', List.getElem_range', exists_prop]
  omega

/-- The columns of a register in a band, as written. -/
def columnChars (register top : Nat) : List Char :=
  (List.range w).map fun x => columnChar image w register x (bandRows h top)

theorem isColumn_columnChars {register top : Nat} {c : Char}
    (hc : c ∈ columnChars image w h register top) : IsColumn c := by
  obtain ⟨x, -, rfl⟩ := List.mem_map.mp hc
  obtain ⟨htoNat, hle⟩ := toNat_columnChar image w register x (length_bandRows_le h top)
  exact ⟨by omega, hle⟩

/-- The pass of a register paints its pixels of the band. -/
theorem columnsPaint_columnChars (register top : Nat) (shade : Shade) (x y : Nat) :
    columnsPaint 0 top shade ((columnChars image w h register top).map bitsOf) x y =
      if x < w ∧ y ∈ bandRows h top ∧ image.register? w x y = some register then [shade]
      else [] := by
  have hiff : (top ≤ y ∧ (((columnChars image w h register top).map bitsOf).getD x 0).testBit
      (y - top) = true) ↔
        x < w ∧ y ∈ bandRows h top ∧ image.register? w x y = some register := by
    by_cases hx : x < w
    · have hbits : ((columnChars image w h register top).map bitsOf).getD x 0 =
          columnBits image w register x (bandRows h top) := by
        obtain ⟨htoNat, -⟩ := toNat_columnChar image w register x (length_bandRows_le h top)
        simp [columnChars, hx, bitsOf, htoNat]
      rw [hbits, testBit_columnBits]
      constructor
      · rintro ⟨htop, y', hrow, hregister⟩
        obtain ⟨rfl, hy⟩ := (getElem?_bandRows h htop y').mp hrow
        exact ⟨hx, hy, hregister⟩
      · rintro ⟨-, hy, hregister⟩
        have htop := ((mem_bandRows h).mp hy).1
        exact ⟨htop, y, (getElem?_bandRows h htop y).mpr ⟨rfl, hy⟩, hregister⟩
    · simp [columnChars, hx]
  rw [columnsPaint, Nat.sub_zero]
  exact if_congr (by simpa using hiff) rfl rfl

end Columns

section Registers

variable (image : Indexed) (w : Nat)

/-- Mark the register of a pixel. -/
def mark (x y : Nat) (seen : Array Bool) : Array Bool :=
  match image.register? w x y with
  | some r => seen.setIfInBounds r true
  | none => seen

theorem size_mark (x y : Nat) (seen : Array Bool) : (mark image w x y seen).size = seen.size := by
  unfold mark
  cases image.register? w x y with
  | none => rfl
  | some r => exact Array.size_setIfInBounds

theorem getD_mark (x y r : Nat) (seen : Array Bool) :
    (mark image w x y seen).getD r false = true ↔
      seen.getD r false = true ∨ r < seen.size ∧ image.register? w x y = some r := by
  unfold mark
  cases hregister : image.register? w x y with
  | none => simp
  | some r' =>
    simp only [Array.getD_eq_getD_getElem?, Array.getElem?_setIfInBounds, Option.some.injEq]
    by_cases hr : r' = r
    · subst hr
      by_cases hlt : r' < seen.size
      · simp [hlt]
      · simp [hlt]
    · simp [hr]

/-- The marks of the first columns of a row. -/
theorem getD_markRow (y n r : Nat) (seen : Array Bool) :
    (Nat.fold n (fun x _ seen => mark image w x y seen) seen).size = seen.size ∧
      ((Nat.fold n (fun x _ seen => mark image w x y seen) seen).getD r false = true ↔
        seen.getD r false = true ∨
          r < seen.size ∧ ∃ x < n, image.register? w x y = some r) := by
  induction n with
  | zero => simp
  | succ n ih =>
    obtain ⟨hsize, hmarked⟩ := ih
    rw [Nat.fold_succ, size_mark, getD_mark, hsize, hmarked]
    refine ⟨rfl, ?_⟩
    simp only [Nat.lt_succ_iff_lt_or_eq, or_and_right, exists_or, exists_eq_left]
    rw [and_or_left, or_assoc]

theorem getD_markRows (rows : List Nat) (r : Nat) (seen : Array Bool) :
    (rows.foldl (fun seen y => Nat.fold w (fun x _ seen => mark image w x y seen) seen) seen).getD r
        false = true ↔
      seen.getD r false = true ∨
        r < seen.size ∧ ∃ y ∈ rows, ∃ x < w, image.register? w x y = some r := by
  induction rows generalizing seen with
  | nil => simp
  | cons y rows ih =>
    obtain ⟨hsize, hmarked⟩ := getD_markRow image w y w r seen
    rw [List.foldl_cons, ih, hsize, hmarked]
    simp only [List.mem_cons, or_and_right, exists_or, exists_eq_left]
    rw [and_or_left, or_assoc]

theorem mem_registersIn {rows : List Nat} {r : Nat} :
    r ∈ registersIn image w rows ↔
      r < image.palette.size ∧ ∃ y ∈ rows, ∃ x < w, image.register? w x y = some r := by
  have hmarked := getD_markRows image w rows r (Array.replicate image.palette.size false)
  have hnone : (Array.replicate image.palette.size false).getD r false = false := by
    rw [Array.getD_eq_getD_getElem?, Array.getElem?_replicate]
    split_ifs <;> rfl
  rw [hnone, Array.size_replicate] at hmarked
  rw [registersIn, List.mem_filter, List.mem_range]
  simp only [Bool.false_eq_true, false_or] at hmarked
  exact (and_congr_right fun _ => hmarked).trans and_self_left

theorem nodup_registersIn (rows : List Nat) : (registersIn image w rows).Nodup :=
  List.nodup_range.filter _

end Registers

section Bands

/-- Every register of the image is one of its palette. -/
def Indexed.IsValid (image : Indexed) (w h : Nat) : Prop :=
  ∀ x < w, ∀ y < h, ∀ r, image.register? w x y = some r → r < image.palette.size

/-- The canvas is at the left edge of a band, and the first registers have their colours. -/
structure Canvas.IsReady (registers : Nat) (shades : Nat → Shade) (c : Canvas) : Prop where
  once : c.count = 1
  left : c.column = 0
  lookup : ∀ r < registers, c.definitions.lookup r = some (shades r)

variable (image : Indexed) (w h : Nat) (shades : Nat → Shade)

/-- The items of a band. -/
def bandItems (top : Nat) : List Item :=
  (registersIn image w (bandRows h top)).flatMap
    (fun r => passItems r (columnChars image w h r top)) ++ [⟨'-', []⟩]

/-- The paint of an indexed image at a pixel. -/
def indexedPaint (x y : Nat) : List Shade := (image.register? w x y).toList.map shades

/-- The paint of a band at a pixel. -/
def bandPaint (top x y : Nat) : List Shade :=
  if x < w ∧ y ∈ bandRows h top then indexedPaint image w shades x y else []

theorem reads_encodeBand (top : Nat) :
    Reads (encodeBand image w h top).toList (bandItems image w h top) := by
  have hnext : Reads ['-'] [⟨'-', []⟩] := .item rfl nofun
  rw [encodeBand, String.toList_append, String.toList_join, List.flatMap_map]
  refine Reads.append (Reads.flatMap fun r _ => ?_) hnext
  exact reads_pass r fun _ => isColumn_columnChars image w h

/-- The passes of registers paint in their order. -/
theorem actAll_passes {c : Canvas} {rs : List Nat} (hready : c.IsReady image.palette.size shades)
    (hrs : ∀ r ∈ rs, r < image.palette.size) : ∃ selected,
    c.actAll (rs.flatMap fun r => passItems r (columnChars image w h r c.top)) =
      c.paint selected fun x y => rs.flatMap fun r =>
        if x < w ∧ y ∈ bandRows h c.top ∧ image.register? w x y = some r then [shades r]
        else [] := by
  induction rs generalizing c with
  | nil => exact ⟨c.selected, c.paint_nil.symm⟩
  | cons r rs ih =>
    have hcolumns : ∀ ch ∈ columnChars image w h r c.top, IsColumn ch :=
      fun _ => isColumn_columnChars image w h
    have hpass := Canvas.actAll_passItems hready.once hready.left
      (hready.lookup r (hrs r List.mem_cons_self)) hcolumns
    obtain ⟨selected, hrest⟩ := ih (c := c.paint (some r) _)
      ⟨hready.once, hready.left, hready.lookup⟩ fun r' hr' => hrs r' (List.mem_cons_of_mem r hr')
    refine ⟨selected, ?_⟩
    rw [List.flatMap_cons, Canvas.actAll_append, hpass]
    refine hrest.trans ?_
    rw [Canvas.paint_paint]
    simp only [columnsPaint_columnChars, List.flatMap_cons]
    rfl

variable {image w h shades}

/-- The passes of a band paint each of its pixels once, if at all. -/
theorem flatMap_registersIn (hvalid : image.IsValid w h) (top x y : Nat) :
    ((registersIn image w (bandRows h top)).flatMap fun r =>
      if x < w ∧ y ∈ bandRows h top ∧ image.register? w x y = some r then [shades r] else []) =
      bandPaint image w h shades top x y := by
  unfold bandPaint
  by_cases hin : x < w ∧ y ∈ bandRows h top
  · obtain ⟨hx, hy⟩ := hin
    simp only [hx, hy, and_self, true_and, if_true]
    unfold indexedPaint
    cases hregister : image.register? w x y with
    | none => simp
    | some r =>
      have hlt := hvalid x hx y ((mem_bandRows h).mp hy).2.2 r hregister
      have hmem : r ∈ registersIn image w (bandRows h top) :=
        (mem_registersIn image w).mpr ⟨hlt, y, hy, x, hx, hregister⟩
      have hone (b : Nat) : (if some r = some b then [shades b] else []) =
          if b = r then [shades r] else [] := by
        by_cases hb : b = r
        · rw [if_pos hb, if_pos (congrArg some hb.symm), hb]
        · rw [if_neg hb, if_neg fun heq => hb (Option.some.inj heq).symm]
      simp only [hone, flatMap_ite_eq (nodup_registersIn image w _), hmem, if_true]
      rfl
  · simp [← and_assoc, hin]

theorem actAll_bandItems (hvalid : image.IsValid w h) {c : Canvas}
    (hready : c.IsReady image.palette.size shades) : ∃ selected,
    c.actAll (bandItems image w h c.top) =
      { c.paint selected (bandPaint image w h shades c.top) with top := c.top + 6 } := by
  obtain ⟨selected, hpasses⟩ := actAll_passes image w h shades hready
    fun r hr => ((mem_registersIn image w).mp hr).1
  refine ⟨selected, ?_⟩
  rw [bandItems, Canvas.actAll_append, hpasses]
  simp only [flatMap_registersIn hvalid]
  simp only [Canvas.actAll_cons, Canvas.actAll_nil, Canvas.act, Canvas.paint, hready.left]

/-- Bands one below the other. -/
theorem actAll_bands (hvalid : image.IsValid w h) {c : Canvas}
    (hready : c.IsReady image.palette.size shades) (htop : c.top = 0) (n : Nat) : ∃ selected,
    c.actAll ((List.range n).flatMap fun i => bandItems image w h (i * 6)) =
      { c.paint selected (fun x y => (List.range n).flatMap fun i =>
          bandPaint image w h shades (i * 6) x y) with
        top := n * 6 } := by
  induction n with
  | zero =>
    have hsame : ({ c with top := 0 } : Canvas) = c := by rw [← htop]
    refine ⟨c.selected, ?_⟩
    simpa [Canvas.paint] using hsame.symm
  | succ n ih =>
    obtain ⟨selected, hbands⟩ := ih
    have hlast := actAll_bandItems hvalid (c := { c.paint selected (fun x y =>
      (List.range n).flatMap fun i => bandPaint image w h shades (i * 6) x y) with top := n * 6 })
      ⟨hready.once, hready.left, hready.lookup⟩
    obtain ⟨selected', hlast⟩ := hlast
    refine ⟨selected', ?_⟩
    rw [List.range_succ, List.flatMap_append, List.flatMap_singleton, Canvas.actAll_append, hbands]
    refine hlast.trans ?_
    simp only [Canvas.paint, List.flatMap_append, List.flatMap_singleton, List.append_assoc,
      Nat.succ_mul]

/-- The bands of an image paint each pixel once, if it has a register. -/
theorem flatMap_bandPaint (x y : Nat) :
    ((List.range ((h + 5) / 6)).flatMap fun i => bandPaint image w h shades (i * 6) x y) =
      if x < w ∧ y < h then indexedPaint image w shades x y else [] := by
  have hband (i : Nat) : bandPaint image w h shades (i * 6) x y =
      if i = y / 6 then if x < w ∧ y < h then indexedPaint image w shades x y else []
      else [] := by
    unfold bandPaint
    rw [← ite_and]
    refine if_congr ?_ rfl rfl
    rw [mem_bandRows]
    omega
  simp only [hband, flatMap_ite_eq List.nodup_range, List.mem_range]
  by_cases hy : y < h
  · rw [if_pos (by omega)]
  · simp [hy]

end Bands

end CellCanvas.Sixel
