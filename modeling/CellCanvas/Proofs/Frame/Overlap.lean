import CellCanvas.Proofs.Frame.InPlace

/-!
# What a resize keeps

A resized frame is valid however its cells were arranged. The rows of a valid frame consist of
units, which the repair leaves alone, and a cut goes between units or behind a lead. So the common
part is kept but for the leads at the cut, which become replacement signs.
-/

namespace CellCanvas

/-- A paired row may be cut before a cell that is no continuation. -/
theorem CellRow.IsPaired.drop {row : CellRow} (h : row.IsPaired) {n : Nat}
    (hn : ∀ c, row n = some c → c.width ≠ 0) : IsPaired fun x => row (x + n) := by
  intro x c hc
  rcases h (x + n) c hc with ⟨h₀, hempty, w, l, hw, hl, hwide⟩ | h₁ | ⟨h₂, r, hr, hr₀⟩
  · cases x with
    | zero => exact absurd h₀ (hn c (by simpa using hc))
    | succ x =>
      obtain rfl : w = x + n := by omega
      exact .inl ⟨h₀, hempty, x, l, rfl, hl, hwide⟩
  · exact .inr (.inl h₁)
  · rw [Nat.add_right_comm] at hr
    exact .inr (.inr ⟨h₂, r, hr, hr₀⟩)

section Units

variable {row rest : List Cell} {c : Cell}

/-- A paired row consists of units. -/
theorem isUnits_of_isPaired (row : List Cell) (h : (CellRow.ofList row).IsPaired) :
    IsUnits row := by
  fun_induction IsUnits row with
  | case1 => trivial
  | case2 c =>
    rcases h 0 c rfl with ⟨-, -, w, l, hw, -⟩ | h₁ | ⟨-, r, hr, -⟩
    · omega
    · exact h₁
    · cases hr
  | case3 c n rest ih₁ ih₂ =>
    rcases h 0 c rfl with ⟨-, -, w, l, hw, -⟩ | h₁ | ⟨h₂, r, hr, h₀⟩
    · omega
    · refine .inl ⟨h₁, ih₁ (h.drop (n := 1) fun d hd h₀ => ?_)⟩
      obtain ⟨-, w, l, hw, hl, hwide⟩ := h.lead hd h₀
      obtain rfl : w = 0 := by omega
      cases hl
      omega
    · cases hr
      refine .inr ⟨h₂, h₀, (h.lead (x := 1) rfl h₀).1, ih₂ (h.drop (n := 2) fun d hd hd₀ => ?_)⟩
      obtain ⟨-, w, l, hw, hl, hwide⟩ := h.lead hd hd₀
      obtain rfl : w = 1 := by omega
      cases hl
      omega

/-- Units are left alone. -/
theorem repairRow_append (h : IsUnits row) (rest : List Cell) :
    Frame.repairRow (row ++ rest) = row ++ Frame.repairRow rest := by
  fun_induction IsUnits row with
  | case1 => rfl
  | case2 c =>
    exact Frame.repairRow_narrow (by simp [Cell.isContinuation, h]) (by simp [Cell.isWide, h]) rest
  | case3 c n row ih₁ ih₂ =>
    rcases h with ⟨hc, hrow⟩ | ⟨hc, hn, -, hrow⟩
    · rw [List.cons_append, Frame.repairRow_narrow (by simp [Cell.isContinuation, hc])
        (by simp [Cell.isWide, hc]), ih₁ hrow]
      rfl
    · rw [List.cons_append, List.cons_append, Frame.repairRow_pair (by simp [Cell.isWide, hc])
        (by simp [Cell.isContinuation, hn]), ih₂ hrow]
      rfl

/-- A cut goes between units or behind a lead. -/
theorem isUnits_take (h : IsUnits row) (n : Nat) :
    IsUnits (row.take n) ∨
      ∃ front lead, row.take n = front ++ [lead] ∧ IsUnits front ∧ lead.width = 2 := by
  fun_induction IsUnits row generalizing n with
  | case1 => simp [IsUnits]
  | case2 c =>
    cases n with
    | zero => exact .inl trivial
    | succ n =>
      left
      rw [List.take_succ_cons, List.take_nil]
      exact h
  | case3 c d row ih₁ ih₂ =>
    cases n with
    | zero => exact .inl trivial
    | succ n =>
      rw [List.take_succ_cons]
      rcases h with ⟨hc, hrow⟩ | ⟨hc, hd, hempty, hrow⟩
      · rcases ih₁ hrow n with hunits | ⟨front, lead, htake, hunits, hwide⟩
        · exact .inl (isUnits_cons hc hunits)
        · exact .inr ⟨c :: front, lead, by rw [htake, List.cons_append], isUnits_cons hc hunits,
            hwide⟩
      · cases n with
        | zero => exact .inr ⟨[], c, rfl, trivial, hc⟩
        | succ n =>
          rw [List.take_succ_cons]
          rcases ih₂ hrow n with hunits | ⟨front, lead, htake, hunits, hwide⟩
          · exact .inl (.inr ⟨hc, hd, hempty, hunits⟩)
          · exact .inr ⟨c :: d :: front, lead, by rw [htake, List.cons_append, List.cons_append],
              .inr ⟨hc, hd, hempty, hunits⟩, hwide⟩

theorem repairRow_of_isUnits (h : IsUnits row) : Frame.repairRow row = row := by
  simpa [Frame.repairRow] using repairRow_append h []

/-- No lead is left over at the end of units. -/
theorem not_wide_of_isUnits (h : IsUnits row) {x : Nat} (hlast : x + 1 = row.length)
    (hc : row[x]? = some c) : c.isWide = false := by
  rw [← Bool.not_eq_true, Cell.isWide, beq_iff_eq]
  intro hwide
  obtain ⟨r, hr, -⟩ := (CellRow.isPaired_of_isUnits row h).tail hc hwide
  have hlt := (List.getElem?_eq_some_iff.mp hr).1
  omega

end Units

/-- What is left of a cell when its row is cut behind it. -/
def Cell.cut (c : Cell) : Cell := if c.isWide then .replacement c.style else c

/-- A cut changes the last cell alone. -/
theorem getElem?_repairRow_take {row : List Cell} (h : IsUnits row) {width x : Nat}
    (hwidth : width < row.length) (hx : x < width) :
    (Frame.repairRow (row.take width))[x]? =
      if x + 1 = width then row[x]?.map Cell.cut else row[x]? := by
  have hlength : (row.take width).length = width := by simp; omega
  have hkept : (row.take width)[x]? = row[x]? := List.getElem?_take_of_lt hx
  rcases isUnits_take h width with hunits | ⟨front, lead, htake, hunits, hwide⟩
  · rw [repairRow_of_isUnits hunits, hkept]
    split_ifs with hlast
    · cases hc : row[x]? with
      | none => rfl
      | some c =>
        have hnarrow := not_wide_of_isUnits hunits (hlast.trans hlength.symm) (hkept.trans hc)
        rw [Option.map_some, Cell.cut, hnarrow]
        rfl
    · rfl
  · have hfront : front.length + 1 = width := by simpa [htake] using hlength
    have hlead : Frame.repairRow [lead] = [.replacement lead.style] := by
      simp [Frame.repairRow, Cell.isContinuation, Cell.isWide, hwide]
    rw [htake, repairRow_append hunits, hlead, ← hkept, htake]
    by_cases hlast : x + 1 = width
    · obtain rfl : x = front.length := by omega
      rw [if_pos hlast]
      simp [Cell.cut, Cell.isWide, hwide]
    · rw [if_neg hlast, List.getElem?_append_left (by omega), List.getElem?_append_left (by omega)]

/-- A row of units that takes another width. -/
theorem getElem?_repairRow_fitRow {row : List Cell} (h : IsUnits row) {width x : Nat}
    (hx : x < width) :
    (Frame.repairRow (Frame.fitRow row width))[x]? =
      if x < row.length then
        if x + 1 = width ∧ width < row.length then row[x]?.map Cell.cut else row[x]?
      else some .empty := by
  unfold Frame.fitRow
  rcases Nat.lt_or_ge width row.length with hcut | hroom
  · rw [Nat.sub_eq_zero_of_le hcut.le, List.replicate_zero, List.append_nil,
      getElem?_repairRow_take h hcut hx, if_pos (hx.trans hcut)]
    simp only [hcut, and_true]
  · have hblank := repairRow_of_isUnits (Frame.isUnits_replicate_empty (width - row.length))
    rw [List.take_of_length_le hroom, repairRow_append h, hblank,
      if_neg (show ¬(x + 1 = width ∧ width < row.length) by omega)]
    split_ifs with hin
    · exact List.getElem?_append_left hin
    · rw [List.getElem?_append_right (by omega), List.getElem?_replicate, if_pos (by omega)]

namespace Frame

variable {f g : Frame} {x y : Nat}

/-- The cells of a resized frame that was valid. -/
theorem cell?_resize (hf : f.isValid = true) {width height : UInt16}
    (hsize : ¬(width.toNat = f.width ∧ height.toNat = f.height)) (hx : x < width.toNat)
    (hy : y < height.toNat) :
    (f.resize width height).cell? x y =
      if x < f.width ∧ y < f.height then
        if x + 1 = width.toNat ∧ width.toNat < f.width then (f.cell? x y).map Cell.cut
        else f.cell? x y
      else some .empty := by
  have hrow := congrFun (cellRow_resize hsize hy) x
  change (f.resize width height).cell? x y = (f.resizedRow width.toNat y)[x]? at hrow
  rw [hrow, resizedRow]
  by_cases hin : y < f.height
  · obtain ⟨row, hkept⟩ : ∃ row, f.row? y = some row := ⟨_, if_pos hin⟩
    have hcells := ofList_row? hkept
    have hlength : row.toList.length = f.width := length_row? hkept
    have hunits : IsUnits row.toList :=
      isUnits_of_isPaired _ (hcells ▸ isPaired_cellRow hf y)
    have hcell : row.toList[x]? = f.cell? x y := congrFun hcells x
    simp only [hkept, getElem?_repairRow_fitRow hunits hx, hlength, hcell, hin, and_true]
  · have hnone : f.row? y = none := if_neg hin
    simp only [hnone, hin, and_false, if_false, List.getElem?_replicate, hx, if_true]

end Frame

/-- The cells that can be built: spaces, clusters of one or two columns, replacement signs and
continuations. -/
inductive Cell.IsBuilt : Cell → Prop
  | blank (s : Style) : IsBuilt (.blank s)
  | cluster (text : String) {n : Nat} (hn : n = 1 ∨ n = 2) (s : Style) :
      IsBuilt (.ofCluster text n s)
  | replacement (s : Style) : IsBuilt (.replacement s)
  | continuation (s : Style) : IsBuilt (.continuation s)

theorem Cell.IsBuilt.isPlain {c : Cell} (h : c.IsBuilt) : c.IsPlain := by
  cases h with
  | blank s => exact ⟨one_le_two, nofun⟩
  | cluster text hn s =>
    unfold Cell.ofCluster
    split_ifs
    · exact ⟨one_le_two, nofun⟩
    · exact ⟨by dsimp only; omega, fun h₀ => by dsimp only at h₀; omega⟩
    · exact ⟨one_le_two, nofun⟩
  | replacement s => exact ⟨one_le_two, nofun⟩
  | continuation s => exact ⟨Nat.zero_le 2, fun _ => rfl⟩

namespace Frame

/-- A frame that takes another size is valid, however its cells were arranged, and has the same
links. The scan in place gives the same frame. If the frame was valid, the common part is kept but
for leads at the new right edge, and everything else is a plain space. -/
theorem resize_keeps_overlap (f : Frame) (width height : UInt16) (hbuilt : ∀ c ∈ f.cells, c.IsBuilt)
    (hsize : ¬(width.toNat = f.width ∧ height.toNat = f.height)) :
    f.resizeInPlace width height = f.resize width height ∧
      (f.resize width height).isValid = true ∧
      (f.resize width height).width = width.toNat ∧
      (f.resize width height).height = height.toNat ∧
      (f.resize width height).cells.size = width.toNat * height.toNat ∧
      (f.resize width height).links = f.links ∧
      (f.isValid = true → ∀ x < width.toNat, ∀ y < height.toNat,
        (f.resize width height).cell? x y =
          if x < f.width ∧ y < f.height then
            if x + 1 = width.toNat ∧ width.toNat < f.width then (f.cell? x y).map Cell.cut
            else f.cell? x y
          else some .empty) := by
  have hvalid := isValid_resize_of_isPlain (fun c hc => (hbuilt c hc).isPlain) hsize
  refine ⟨f.resizeInPlace_eq width height, hvalid, ?_, ?_, ?_, ?_,
    fun hf x hx y hy => cell?_resize hf hsize hx hy⟩
  · rw [resize, if_neg hsize]
  · rw [resize, if_neg hsize]
  · rw [(f.resize width height).size_cells, resize, if_neg hsize]
  · rw [resize, if_neg hsize]

/-- A continuation at the left edge, then a lead without and a lead with its continuation. -/
def jumbled : Frame :=
  ((((blank 4 1).set 0 0 (.continuation .plain)).set 1 0 (.ofCluster "日" 2 .plain)).set 2 0
    (.ofCluster "本" 2 .plain)).set 3 0 (.continuation .plain)

/-- Cut behind its second lead, the row has no half glyph left. -/
theorem resize_keeps_overlap_jumbled :
    (∀ c ∈ jumbled.cells, c.IsBuilt) ∧ jumbled.isValid = false ∧
      (jumbled.resize 3 1).isValid = true ∧
      (jumbled.resize 3 1).cells =
        #[.blank .plain, .replacement .plain, .blank .plain] := by
  have hbuilt : ∀ c ∈ jumbled.cells, c.IsBuilt := by
    have hcells : jumbled.cells = #[.continuation .plain, .ofCluster "日" 2 .plain,
        .ofCluster "本" 2 .plain, .continuation .plain] := by decide +kernel
    intro c hc
    simp only [hcells, List.mem_toArray, List.mem_cons, List.not_mem_nil, or_false] at hc
    rcases hc with rfl | rfl | rfl | rfl
    · exact .continuation _
    · exact .cluster _ (.inr rfl) _
    · exact .cluster _ (.inr rfl) _
    · exact .continuation _
  have hresized := resize_keeps_overlap jumbled 3 1 hbuilt (by decide)
  exact ⟨hbuilt, by decide +kernel, hresized.2.1, by decide +kernel⟩

end Frame

end CellCanvas
