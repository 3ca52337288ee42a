import CellCanvas.Proofs.Frame.Resizing

/-!
# Resizing in place

The first cells of every kept row are copied into a grid with rows of another length, and the row is
scanned from left to right. The scan looks back at a cell that it may have changed and ahead at one
that it may change. What carries it is that a lead is left of the cursor only if the cursor stands
on its continuation, while everything from the cursor on is as it was or a space. It comes to the
repair of the row as a list.
-/

namespace CellCanvas

theorem Cell.isContinuation_of_isWide {c : Cell} (h : c.isWide = true) :
    c.isContinuation = false := by
  simp only [isWide, beq_iff_eq] at h
  simp [isContinuation, h]

namespace Frame

/-- Take over the first cells of a row of another frame. -/
def copyRow (f : Frame) (count y : Nat) (g : Frame) : Frame :=
  (List.range count).foldl (fun g x =>
    match f.cell? x y with
    | some c => g.set x y c
    | none => g) g

/-- Repair the cell at a column, and the next one if this is a lead without its continuation. -/
def repairAt (y : Nat) (g : Frame) (x : Nat) : Frame :=
  match g.cell? x y with
  | none => g
  | some c =>
    if c.isContinuation then
      if x = 0 ∨ (g.cell? (x - 1) y).any Cell.isWide = false then g.set x y (.blank c.style) else g
    else if c.isWide then
      if (g.cell? (x + 1) y).any Cell.isContinuation then g
      else (g.set x y (.replacement c.style)).set (x + 1) y (.blank c.style)
    else g

/-- Repair the cells of a row from left to right. -/
def scanRow (y : Nat) (g : Frame) : Frame := (List.range g.width).foldl (repairAt y) g

/-- A frame of plain spaces with the links of another frame. -/
def fresh (f : Frame) (width height : UInt16) : Frame :=
  { blank width height with
    links := f.links
    safe_links := f.safe_links }

/-- Take over what is kept of a row, and scan it. -/
def takeRow (f : Frame) (width : Nat) (g : Frame) (y : Nat) : Frame :=
  scanRow y (copyRow f (min width f.width) y g)

/-- Change the size of a frame row by row in a new grid. -/
def resizeInPlace (f : Frame) (width height : UInt16) : Frame :=
  if width.toNat = f.width ∧ height.toNat = f.height then f
  else (List.range (min height.toNat f.height)).foldl (f.takeRow width.toNat) (f.fresh width height)

variable {f g k : Frame} {x y : Nat} {c : Cell} {row : List Cell}

theorem repairRow_narrow (hcont : c.isContinuation = false) (hwide : c.isWide = false)
    (rest : List Cell) : repairRow (c :: rest) = c :: repairRow rest := by
  cases rest <;> simp [repairRow, hcont, hwide]

theorem repairRow_pair {n : Cell} (hwide : c.isWide = true) (hnext : n.isContinuation = true)
    (rest : List Cell) : repairRow (c :: n :: rest) = c :: n :: repairRow rest := by
  simp [repairRow, Cell.isContinuation_of_isWide hwide, hwide, hnext]

theorem repairRow_continuation (hcont : c.isContinuation = true) (rest : List Cell) :
    repairRow (c :: rest) = .blank c.style :: repairRow rest := by
  cases rest <;> simp [repairRow, hcont]

theorem repairRow_lonely (hwide : c.isWide = true) {rest : List Cell}
    (hnext : rest.head?.any Cell.isContinuation = false) :
    repairRow (c :: rest) = .replacement c.style :: repairRow (rest.set 0 (.blank c.style)) := by
  have hcont := Cell.isContinuation_of_isWide hwide
  cases rest with
  | nil => simp [repairRow, hcont, hwide]
  | cons n others =>
    have hn : n.isContinuation = false := hnext
    rw [List.set_cons_zero, repairRow_narrow (c := .blank c.style) rfl rfl]
    simp [repairRow, hcont, hwide, hn]

theorem length_row? {row : Array Cell} (h : f.row? y = some row) :
    row.toList.length = f.width := by
  unfold row? at h
  split_ifs at h with hy
  cases h
  have hend : f.index f.width y ≤ f.cells.size := by
    rw [f.size_cells, index, ← Nat.succ_mul, Nat.mul_comm]
    exact Nat.mul_le_mul_left _ hy
  rw [Array.length_toList, Array.size_extract, Nat.min_eq_left hend]
  simp [index]

/-- The row of a frame as a list. -/
structure HasRow (g : Frame) (y : Nat) (row : List Cell) : Prop where
  cells : g.cellRow y = .ofList row
  length : row.length = g.width

namespace HasRow

theorem cell? (h : g.HasRow y row) (x : Nat) : g.cell? x y = row[x]? := congrFun h.cells x

theorem of_row? {cells : Array Cell} (h : f.row? y = some cells) : f.HasRow y cells.toList :=
  ⟨(ofList_row? h).symm, length_row? h⟩

/-- A stored cell is stored in the list; behind its end nothing happens. -/
theorem set (h : g.HasRow y row) (hy : y < g.height) (x : Nat) (c : Cell) :
    (g.set x y c).HasRow y (row.set x c) := by
  refine ⟨?_, by rw [List.length_set, h.length, width_set]⟩
  funext i
  change (g.set x y c).cell? i y = (row.set x c)[i]?
  rw [List.getElem?_set, h.length]
  by_cases hx : x < g.width
  · rw [cell?_set, h.cell?]
    simp only [inBounds, hx, hy, decide_true, Bool.and_self, and_true, if_true, eq_comm]
  · have hout : g.set x y c = g := if_neg (by simp [inBounds, hx])
    rw [hout, h.cell?]
    split_ifs with hi
    · rw [← hi, List.getElem?_eq_none (by rw [h.length]; omega)]
    · rfl

end HasRow

/-- The second frame differs from the first in one row only. -/
structure ChangesRow (y : Nat) (f g : Frame) : Prop where
  width : g.width = f.width
  height : g.height = f.height
  links : g.links = f.links
  rows : ∀ j, j ≠ y → g.cellRow j = f.cellRow j

namespace ChangesRow

theorem refl (y : Nat) (f : Frame) : ChangesRow y f f := ⟨rfl, rfl, rfl, fun _ _ => rfl⟩

theorem trans (h : ChangesRow y f g) (h' : ChangesRow y g k) : ChangesRow y f k :=
  ⟨h'.width.trans h.width, h'.height.trans h.height, h'.links.trans h.links,
    fun j hj => (h'.rows j hj).trans (h.rows j hj)⟩

theorem set (g : Frame) (x y : Nat) (c : Cell) : ChangesRow y g (g.set x y c) := by
  refine ⟨by simp, by simp, by simp, fun j hj => ?_⟩
  funext i
  rw [cellRow, cell?_set, if_neg (fun h => hj h.2.1), cellRow]

theorem foldl {step : Frame → Nat → Frame} (h : ∀ g x, ChangesRow y g (step g x))
    (xs : List Nat) (g : Frame) : ChangesRow y g (xs.foldl step g) := by
  induction xs generalizing g with
  | nil => exact refl y g
  | cons x xs ih => exact (h g x).trans (ih _)

theorem copyRow (f : Frame) (count y : Nat) (g : Frame) : ChangesRow y g (f.copyRow count y g) := by
  refine foldl (fun g x => ?_) _ g
  cases f.cell? x y with
  | none => exact refl y g
  | some c => exact set g x y c

theorem repairAt (y : Nat) (g : Frame) (x : Nat) : ChangesRow y g (g.repairAt y x) := by
  unfold Frame.repairAt
  cases g.cell? x y with
  | none => exact refl y g
  | some c =>
    dsimp only
    split_ifs
    · exact set g x y _
    · exact refl y g
    · exact refl y g
    · exact (set g x y _).trans (set _ (x + 1) y _)
    · exact refl y g

theorem scanRow (y : Nat) (g : Frame) : ChangesRow y g (g.scanRow y) :=
  foldl (ChangesRow.repairAt y) _ g

end ChangesRow

/-- Copying a row into a blank one cuts or extends it. -/
theorem HasRow.copyRow (hf : f.HasRow y row) (hg : g.HasRow y (List.replicate g.width .empty))
    (hy : y < g.height) : (f.copyRow (min g.width f.width) y g).HasRow y (fitRow row g.width) := by
  suffices hcopied : ∀ n, n ≤ min g.width f.width →
      (f.copyRow n y g).HasRow y (row.take n ++ List.replicate (g.width - n) .empty) by
    have h := hcopied _ le_rfl
    rw [← hf.length] at h ⊢
    have hrest : g.width - min g.width row.length = g.width - row.length := by omega
    have hkept : row.take (min g.width row.length) = row.take g.width := by
      rw [List.take_eq_take_iff]
      omega
    rwa [hrest, hkept] at h
  intro n
  induction n with
  | zero => exact fun _ => hg
  | succ n ih =>
    intro hn
    have hlt : n < row.length := by rw [hf.length]; omega
    have hchanges := ChangesRow.copyRow f n y g
    have hnext := (ih (by omega)).set (hchanges.height ▸ hy) n row[n]
    have hblank : List.replicate (g.width - n) Cell.empty =
        .empty :: List.replicate (g.width - (n + 1)) .empty := by
      rw [← List.replicate_succ]
      congr 1
      omega
    have hfront : (row.take n).length = n := by
      rw [List.length_take]
      omega
    rw [List.set_append_right _ _ hfront.le, hfront, Nat.sub_self, hblank, List.set_cons_zero,
      List.append_cons, ← List.take_succ_eq_append_getElem hlt] at hnext
    rw [Frame.copyRow, List.range_succ, List.foldl_concat, hf.cell?,
      List.getElem?_eq_getElem hlt]
    exact hnext

/-- What the repair makes of the cells behind another one, which is repaired already. -/
def repairBehind (previous : Option Cell) (rest : List Cell) : List Cell :=
  if previous.any Cell.isWide then rest.take 1 ++ repairRow (rest.drop 1) else repairRow rest

/-- A row in the middle of its scan: what is left of the cursor is repaired, and it ends in a lead
only if the cursor stands on the continuation. -/
structure Scanned (row done rest : List Cell) : Prop where
  repaired : repairRow row = done ++ repairBehind done.getLast? rest
  next : done.getLast?.any Cell.isWide → ∃ n others, rest = n :: others ∧ n.isContinuation

namespace Scanned

variable {done rest : List Cell}

theorem start (row : List Cell) : Scanned row [] row := ⟨rfl, nofun⟩

theorem finish (h : Scanned row done []) : repairRow row = done := by
  rw [h.repaired, repairBehind]
  split_ifs <;> simp [repairRow]

/-- Behind a cell that is no lead the row is repaired as if it began there. -/
theorem narrow {n : Cell} {others : List Cell} (hn : n.isWide = false)
    (h : repairRow row = done ++ n :: repairRow others) : Scanned row (done ++ [n]) others := by
  refine ⟨?_, by simp [hn]⟩
  rw [List.getLast?_concat, repairBehind, Option.any_some, hn, h]
  simp

end Scanned

/-- The scan looks back at the cell that it has left last. -/
theorem HasRow.behind {done rest : List Cell} (h : g.HasRow y (done ++ rest)) :
    (done.length = 0 ∨ (g.cell? (done.length - 1) y).any Cell.isWide = false) ↔
      done.getLast?.any Cell.isWide = false := by
  cases done using List.reverseRecOn with
  | nil => simp
  | append_singleton done p =>
    rw [h.cell?, List.length_append, List.length_singleton, Nat.add_sub_cancel,
      List.append_assoc, List.getElem?_append_right le_rfl, Nat.sub_self, List.getLast?_concat]
    simp

/-- One cell is repaired in place. -/
theorem HasRow.repairAt {done rest : List Cell} (h : g.HasRow y (done ++ c :: rest))
    (hy : y < g.height) (hscanned : Scanned row done (c :: rest)) :
    ∃ d others, (g.repairAt y done.length).HasRow y (done ++ d :: others) ∧
      Scanned row (done ++ [d]) others ∧ others.length = rest.length := by
  have hhere : g.cell? done.length y = some c := by
    rw [h.cell?, List.getElem?_append_right le_rfl, Nat.sub_self]
    rfl
  have hahead : g.cell? (done.length + 1) y = rest.head? := by
    rw [h.cell?, List.getElem?_append_right (by omega), Nat.add_sub_cancel_left,
      List.getElem?_cons_succ, List.head?_eq_getElem?]
  have hset (d : Cell) : (g.set done.length y d).HasRow y (done ++ d :: rest) := by
    have hset := h.set hy done.length d
    rwa [List.set_append_right _ _ le_rfl, Nat.sub_self] at hset
  have hrepaired := hscanned.repaired
  simp only [Frame.repairAt, hhere, hahead, h.behind]
  cases hbehind : done.getLast?.any Cell.isWide with
  | true =>
    obtain ⟨n, others, heq, hcont⟩ := hscanned.next hbehind
    obtain ⟨rfl, rfl⟩ := List.cons.inj heq
    have hnarrow : c.isWide = false := by
      by_contra hwide
      rw [Cell.isContinuation_of_isWide (by simpa using hwide)] at hcont
      cases hcont
    rw [if_pos hcont, if_neg (by simp)]
    refine ⟨c, rest, h, .narrow hnarrow ?_, rfl⟩
    rw [hrepaired, repairBehind, if_pos hbehind]
    rfl
  | false =>
    rw [repairBehind, hbehind, if_neg (by simp)] at hrepaired
    simp only [↓reduceIte]
    split_ifs with hcont hwide hnext
    · refine ⟨.blank c.style, rest, hset _, .narrow rfl ?_, rfl⟩
      rw [hrepaired, repairRow_continuation hcont]
    · obtain ⟨n, hn, hncont⟩ := (Option.any_eq_true _ _).mp hnext
      obtain ⟨others, rfl⟩ := List.head?_eq_some_iff.mp hn
      refine ⟨c, n :: others, h, ⟨?_, fun _ => ⟨n, others, rfl, hncont⟩⟩, rfl⟩
      rw [hrepaired, repairRow_pair hwide hncont, List.getLast?_concat, repairBehind,
        Option.any_some, if_pos hwide]
      simp
    · have hcells := (hset (.replacement c.style)).set (by simpa using hy) (done.length + 1)
        (.blank c.style)
      rw [List.set_append_right _ _ (by omega), Nat.add_sub_cancel_left,
        List.set_cons_succ] at hcells
      refine ⟨.replacement c.style, _, hcells, .narrow rfl ?_, List.length_set⟩
      rw [hrepaired, repairRow_lonely hwide (by simpa using hnext)]
    · refine ⟨c, rest, h, .narrow (by simpa using hwide) ?_, rfl⟩
      rw [hrepaired, repairRow_narrow (by simpa using hcont) (by simpa using hwide)]

/-- The scan of a row comes to its repair. -/
theorem HasRow.scanRow (h : g.HasRow y row) (hy : y < g.height) :
    (g.scanRow y).HasRow y (repairRow row) := by
  suffices hscan : ∀ rest done (g : Frame), y < g.height → g.HasRow y (done ++ rest) →
      Scanned row done rest →
      ((List.range' done.length rest.length).foldl (Frame.repairAt y) g).HasRow y
        (repairRow row) by
    have hall := hscan row [] g hy h (.start row)
    rwa [List.length_nil, h.length, ← List.range_eq_range'] at hall
  intro rest
  induction hn : rest.length generalizing rest with
  | zero =>
    intro done g _ hg hscanned
    obtain rfl := List.length_eq_zero_iff.mp hn
    rw [hscanned.finish]
    simpa using hg
  | succ n ih =>
    intro done g hy hg hscanned
    obtain ⟨c, rest, rfl⟩ := List.exists_cons_of_length_eq_add_one hn
    obtain ⟨d, others, hnext, hscanned, hlength⟩ := hg.repairAt hy hscanned
    have hheight := (ChangesRow.repairAt y g done.length).height
    rw [List.append_cons] at hnext
    have hrest := ih others (by simp_all) (done ++ [d]) _ (hheight ▸ hy) hnext hscanned
    rw [List.length_append, List.length_singleton] at hrest
    rwa [List.range'_succ, List.foldl_cons]

theorem hasRow_fresh (f : Frame) (width height : UInt16) (hy : y < height.toNat) :
    (f.fresh width height).HasRow y (List.replicate width.toNat .empty) := by
  refine ⟨?_, List.length_replicate⟩
  funext x
  change (blank width height).cell? x y = (List.replicate width.toNat Cell.empty)[x]?
  rw [List.getElem?_replicate]
  by_cases hx : x < width.toNat
  · have hin : (blank width height).inBounds x y = true := by simp [inBounds, blank, hx, hy]
    have hlt := (blank width height).index_lt_size hx hy
    rw [if_pos hx, cell?, if_pos hin, Array.getElem?_eq_getElem hlt]
    simp [blank]
  · rw [if_neg hx, cell?_eq_none (fun h => hx h.1)]

/-- A grid into which the first rows of a frame have been taken over. -/
structure TookRows (f : Frame) (width height n : Nat) (g : Frame) : Prop where
  width_eq : g.width = width
  height_eq : g.height = height
  links_eq : g.links = f.links
  taken : ∀ y < n, g.HasRow y (f.resizedRow width y)
  blank : ∀ y, n ≤ y → y < height → g.HasRow y (List.replicate width .empty)

/-- A row is taken over, and the other rows stay as they are. -/
theorem TookRows.step {width height n : Nat} (h : TookRows f width height n g)
    (hn : n < height) (hn' : n < f.height) :
    TookRows f width height (n + 1) (f.takeRow width g n) := by
  obtain ⟨cells, hcells⟩ : ∃ cells, f.row? n = some cells := ⟨_, if_pos hn'⟩
  have hcopied := ChangesRow.copyRow f (min width f.width) n g
  have hchanges := hcopied.trans (ChangesRow.scanRow n _)
  have hkept {y : Nat} {row : List Cell} (hy : y ≠ n) (hrow : g.HasRow y row) :
      (f.takeRow width g n).HasRow y row :=
    ⟨(hchanges.rows y hy).trans hrow.cells, hrow.length.trans hchanges.width.symm⟩
  refine ⟨hchanges.width.trans h.width_eq, hchanges.height.trans h.height_eq,
    hchanges.links.trans h.links_eq, ?_, ?_⟩
  · intro y hy
    by_cases hlast : y = n
    · subst hlast
      have hblank := h.blank y le_rfl hn
      have hheight : y < g.height := h.height_eq ▸ hn
      rw [← h.width_eq] at hblank
      have hrow := ((HasRow.of_row? hcells).copyRow hblank hheight).scanRow
        ((ChangesRow.copyRow f _ y g).height ▸ hheight)
      rw [h.width_eq] at hrow
      rw [resizedRow, hcells]
      exact hrow
    · exact hkept hlast (h.taken y (by omega))
  · intro y hy hlt
    exact hkept (by omega) (h.blank y (by omega) hlt)

/-- A frame is its size, its links and its rows. -/
theorem ext_cellRow (hwidth : g.width = f.width) (hheight : g.height = f.height)
    (hlinks : g.links = f.links) (hrows : ∀ y < f.height, g.cellRow y = f.cellRow y) : g = f := by
  have hcells : g.cells = f.cells := by
    apply Array.ext_getElem?
    intro i
    by_cases hi : i < f.width * f.height
    · have hw : 0 < f.width := Nat.pos_of_mul_pos_right (Nat.zero_lt_of_lt hi)
      have hx := Nat.mod_lt i hw
      have hy : i / f.width < f.height := Nat.div_lt_of_lt_mul hi
      have hcell := congrFun (hrows (i / f.width) hy) (i % f.width)
      simpa [cellRow, cell?, inBounds, index, hwidth, hheight, hx, hy, Nat.div_add_mod'] using hcell
    · rw [Array.getElem?_eq_none (by rw [g.size_cells, hwidth, hheight]; omega),
        Array.getElem?_eq_none (by rw [f.size_cells]; omega)]
  obtain ⟨⟩ := f
  obtain ⟨⟩ := g
  simp_all

/-- The resize in place is the resize. -/
theorem resizeInPlace_eq (f : Frame) (width height : UInt16) :
    f.resizeInPlace width height = f.resize width height := by
  by_cases hsize : width.toNat = f.width ∧ height.toNat = f.height
  · rw [resizeInPlace, if_pos hsize, resize, if_pos hsize]
  · have htook (n : Nat) (hn : n ≤ min height.toNat f.height) :
        TookRows f width.toNat height.toNat n
          ((List.range n).foldl (f.takeRow width.toNat) (f.fresh width height)) := by
      induction n with
      | zero =>
        exact ⟨rfl, rfl, rfl, fun y hy => absurd hy (Nat.not_lt_zero y),
          fun y _ => f.hasRow_fresh width height⟩
      | succ n ih =>
        rw [List.range_succ, List.foldl_concat]
        exact (ih (by omega)).step (by omega) (by omega)
    have hall := htook _ le_rfl
    rw [resizeInPlace, if_neg hsize]
    have hresized : (f.resize width height).width = width.toNat ∧
        (f.resize width height).height = height.toNat := by
      rw [resize, if_neg hsize]
      exact ⟨rfl, rfl⟩
    refine ext_cellRow (hall.width_eq.trans hresized.1.symm)
      (hall.height_eq.trans hresized.2.symm) (hall.links_eq.trans ?_) ?_
    · rw [resize, if_neg hsize]
    · intro y hy
      rw [hresized.2] at hy
      rw [cellRow_resize hsize hy]
      rcases Nat.lt_or_ge y f.height with hkept | hnew
      · exact (hall.taken y (by omega)).cells
      · rw [resizedRow, show f.row? y = none from if_neg (by omega)]
        exact (hall.blank y (by omega) hy).cells

end Frame

end CellCanvas
