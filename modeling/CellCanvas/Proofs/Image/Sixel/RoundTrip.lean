import CellCanvas.Proofs.Image.Limits
import CellCanvas.Proofs.Image.Sixel.Bands
import CellCanvas.Proofs.Image.Sixel.Registers

/-!
# Sixel images read back

A Sixel image that is encoded draws the pixels that it was made of: each opaque pixel is painted
once, in the colour of its levels, and nothing else is painted. The registers are numbered in the
order in which their colours appear in the rows, and each is defined once, before it is used.
-/

namespace CellCanvas.Sixel

open Wire

section Definitions

/-- The parameters of the definition of a register. -/
def colorParameters (register key : Nat) : List Char :=
  numeral register ++ ';' :: (numeral 2 ++ ';' :: (numeral (percent (key / 36)) ++
    ';' :: (numeral (percent (key / 6 % 6)) ++ ';' :: numeral (percent (key % 6)))))

theorem reads_encodeColor (register key : Nat) :
    Reads (encodeColor register key).toList [⟨'#', colorParameters register key⟩] := by
  have htext : (encodeColor register key).toList = '#' :: colorParameters register key := by
    have hsecond : ";2;".toList = ';' :: (numeral 2 ++ [';']) := by decide
    have hnext : ";".toList = [';'] := rfl
    simp only [encodeColor, colorParameters, String.toList_append, toList_toString, hsecond, hnext,
      List.append_assoc, List.cons_append, List.nil_append]
    rfl
  rw [htext]
  apply Reads.item rfl
  intro c hc
  simp only [colorParameters, List.mem_append, List.mem_cons] at hc
  rcases hc with hc | rfl | hc | rfl | hc | rfl | hc | rfl | hc
  all_goals first | rfl | exact continuesItem_of_mem_numeral hc

theorem Canvas.act_definition {c : Canvas} {register : Nat}
    (hnew : c.definitions.lookup register = none) (key : Nat) :
    c.act ⟨'#', colorParameters register key⟩ =
      { c with
        definitions := c.definitions ++ [(register, .ofKey key)]
        selected := some register } := by
  simp [act, colorParameters, define, hnew, Shade.ofKey]

/-- Registers that are new are defined in their order. -/
theorem Canvas.actAll_definitions {c : Canvas} {first : Nat}
    (hnew : ∀ r, first ≤ r → c.definitions.lookup r = none) (palette : List Nat) : ∃ selected,
    c.actAll ((palette.zipIdx first).map fun (key, r) => ⟨'#', colorParameters r key⟩) =
      { c with definitions := c.definitions ++ definitionsFrom first palette, selected } := by
  induction palette generalizing c first with
  | nil =>
    refine ⟨c.selected, ?_⟩
    simp [definitionsFrom]
  | cons key palette ih =>
    have hnext (r : Nat) (hr : first + 1 ≤ r) :
        (c.definitions ++ [(first, Shade.ofKey key)]).lookup r = none := by
      rw [List.lookup_append, hnew r (by omega), Option.none_or, List.lookup_cons,
        beq_false_of_ne (by omega)]
      rfl
    obtain ⟨selected, hrest⟩ := ih (c := { c with
      definitions := c.definitions ++ [(first, Shade.ofKey key)], selected := some first }) hnext
    refine ⟨selected, ?_⟩
    rw [List.zipIdx_cons, List.map_cons, actAll_cons, act_definition (hnew first (Nat.le_refl _)),
      definitionsFrom_cons]
    refine hrest.trans ?_
    rw [List.append_assoc]
    rfl

end Definitions

section Body

variable (image : Indexed) (w h : Nat)

/-- The raster attributes of an image. -/
def rasterItem : Item :=
  ⟨'"', numeral 1 ++ ';' :: (numeral 1 ++ ';' :: (numeral w ++ ';' :: numeral h))⟩

/-- The items of an image. -/
def bodyItems : List Item :=
  rasterItem w h :: (image.palette.toList.zipIdx.map fun (key, r) =>
    ⟨'#', colorParameters r key⟩) ++
      (List.range ((h + 5) / 6)).flatMap fun i => bandItems image w h (i * 6)

theorem toList_body : ∃ data, (body image w h).toList = "0;1;0q".toList ++ data ∧
    Reads data (bodyItems image w h) := by
  have hraster : Reads ('"' :: (rasterItem w h).parameters) [rasterItem w h] := by
    apply Reads.item rfl
    intro c hc
    simp only [rasterItem, List.mem_append, List.mem_cons] at hc
    rcases hc with hc | rfl | hc | rfl | hc | rfl | hc
    all_goals first | rfl | exact continuesItem_of_mem_numeral hc
  have hcolors : Reads
      (String.join (image.palette.toList.zipIdx.map fun (key, r) => encodeColor r key)).toList
      (image.palette.toList.zipIdx.map fun (key, r) => ⟨'#', colorParameters r key⟩) := by
    rw [String.toList_join, List.flatMap_map, List.map_eq_flatMap]
    exact Reads.flatMap fun entry _ => reads_encodeColor entry.2 entry.1
  have hbands : Reads
      (String.join ((List.range ((h + 5) / 6)).map fun i => encodeBand image w h (i * 6))).toList
      ((List.range ((h + 5) / 6)).flatMap fun i => bandItems image w h (i * 6)) := by
    rw [String.toList_join, List.flatMap_map]
    exact Reads.flatMap fun i _ => reads_encodeBand image w h (i * 6)
  refine ⟨_, ?_, (hraster.append hcolors).append hbands⟩
  have hopen : "0;1;0q\"1;1;".toList =
      "0;1;0q".toList ++ '"' :: (numeral 1 ++ ';' :: (numeral 1 ++ [';'])) := by decide
  have hnext : ";".toList = [';'] := rfl
  simp only [body, rasterItem, String.toList_append, toList_toString, hopen, hnext,
    List.append_assoc, List.cons_append, List.nil_append]

/-- Reading an indexed image gives its items back. -/
theorem drawing?_encodeIndexed (column row : Nat) :
    drawing? (encodeIndexed image w h column row) =
      some ⟨[row + 1, column + 1], true, ({} : Canvas).actAll (bodyItems image w h)⟩ := by
  have hspells : scan .ground (encodeIndexed image w h column row).toList = (.ground,
      [.control (numeral (row + 1) ++ ';' :: numeral (column + 1)) 'H',
        .string 'P' (body image w h).toList]) :=
    spells_encodeIndexed image w h column row
  obtain ⟨data, hbody, hdata⟩ := toList_body image w h
  have hrest : ("0;1;0q".toList ++ data).dropWhile (· ≠ 'q') = 'q' :: data := rfl
  have hheader : ("0;1;0q".toList ++ data).takeWhile (· ≠ 'q') = "0;1;0".toList := rfl
  have hoverlay : ((numbers "0;1;0".toList)[1]? == some 1) = true := by decide
  unfold Reads at hdata
  simp only [drawing?, hspells, hbody, hrest, hheader, hdata, hoverlay, numbers_append,
    numbers_numeral, List.singleton_append]

variable {image w h}

/-- What is drawn for an image whose registers have these colours. -/
theorem actAll_bodyItems (hvalid : image.IsValid w h) {shades : Nat → Shade}
    (hshades : ∀ r < image.palette.size,
      (definitionsFrom 0 image.palette.toList).lookup r = some (shades r)) :
    ∃ selected, ({} : Canvas).actAll (bodyItems image w h) =
      { raster := [1, 1, w, h]
        definitions := definitionsFrom 0 image.palette.toList
        selected
        top := (h + 5) / 6 * 6
        paints := fun x y =>
          if x < w ∧ y < h then indexedPaint image w shades x y else [] } := by
  have hraster : ({} : Canvas).act (rasterItem w h) = { raster := [1, 1, w, h] } := by
    simp [Canvas.act, rasterItem]
  obtain ⟨selected, hcolors⟩ := Canvas.actAll_definitions (c := { raster := [1, 1, w, h] })
    (fun r (_ : 0 ≤ r) => rfl) image.palette.toList
  obtain ⟨selected', hbands⟩ := actAll_bands hvalid (c := {
      raster := [1, 1, w, h], definitions := definitionsFrom 0 image.palette.toList, selected })
    ⟨rfl, rfl, hshades⟩ rfl ((h + 5) / 6)
  refine ⟨selected', ?_⟩
  rw [bodyItems, List.cons_append, Canvas.actAll_cons, hraster, Canvas.actAll_append, hcolors]
  refine hbands.trans ?_
  simp only [Canvas.paint, flatMap_bandPaint, List.nil_append]

end Body

/-- What a pixel paints: nothing when it is transparent, and else the colour of its levels. -/
def paintOf (p : Pixel) : List Shade := if p.alpha.toNat < 128 then [] else [.ofPixel p]

/-- A drawing of some pixels at a cell. -/
structure Drawing.Shows (pixels : ByteArray) (w h column row : Nat) (d : Drawing) : Prop where
  /-- No register was defined twice or used before it was defined. -/
  sound : d.canvas.isSound = true
  cell : d.cell = [row + 1, column + 1]
  overlay : d.isOverlay = true
  raster : d.canvas.raster = [1, 1, w, h]
  /-- Each pixel of the raster is painted as it wants, and no pixel outside is painted. -/
  paints : ∀ x y, d.canvas.paints x y =
    if x < w ∧ y < h then paintOf (pixelAt pixels (y * w + x)) else []
  /-- The registers have consecutive numbers. -/
  registers : d.canvas.definitions.map Prod.fst = List.range d.canvas.definitions.length
  /-- Their colours are those of the pixels in the order in which they first appear. -/
  shades : d.canvas.definitions.map Prod.snd =
    ((List.range (w * h)).flatMap fun i => paintOf (pixelAt pixels i)).eraseDups
  few : d.canvas.definitions.length < 217

theorem paintOf_eq (p : Pixel) : paintOf p = (paintedKey p).map Shade.ofKey := by
  have hsolid : Color.isOpaque p.alpha = true ↔ ¬p.alpha.toNat < 128 := by
    rw [Color.isOpaque, Color.opaqueAlpha, decide_eq_true_eq, Nat.not_lt]
  unfold paintOf paintedKey
  by_cases hp : p.alpha.toNat < 128
  · rw [if_pos hp, if_neg (mt hsolid.mp (not_not.mpr hp))]
    rfl
  · rw [if_neg hp, if_pos (hsolid.mpr hp), List.map_singleton, Shade.ofKey_key]

theorem isValid_index (bytes : ByteArray) (w h : Nat) : (index bytes (w * h)).IsValid w h := by
  intro x hx y hy r hr
  rw [register?_index bytes hx hy, registerIn] at hr
  split_ifs at hr with hsolid
  cases hr
  rw [← Array.length_toList]
  exact List.idxOf_lt_length_of_mem (mem_palette_index bytes hx hy hsolid)

/-- The colour of a register of an image. -/
def Indexed.shade (image : Indexed) (r : Nat) : Shade := .ofKey (image.palette.getD r 0)

theorem Indexed.lookup_shade (image : Indexed) {r : Nat} (hr : r < image.palette.size) :
    (definitionsFrom 0 image.palette.toList).lookup r = some (image.shade r) := by
  rw [lookup_definitionsFrom, if_pos (Nat.zero_le r)]
  simp [Indexed.shade, hr]

theorem indexedPaint_index (bytes : ByteArray) {w h x y : Nat} (hx : x < w) (hy : y < h) :
    indexedPaint (index bytes (w * h)) w (index bytes (w * h)).shade x y =
      paintOf (pixelAt bytes (y * w + x)) := by
  rw [indexedPaint, register?_index bytes hx hy, registerIn, paintOf_eq, paintedKey]
  split_ifs with hsolid
  · have hmem := mem_palette_index bytes hx hy hsolid
    have hlt := List.idxOf_lt_length_of_mem hmem
    have hshade := (index bytes (w * h)).lookup_shade (by rwa [Array.length_toList] at hlt)
    rw [lookup_register hmem] at hshade
    rw [List.map_singleton, Shade.ofKey_key, Option.some.inj hshade]
    rfl
  · rfl

theorem shows_index (pixels : ByteArray) (w h column row : Nat) : ∃ drawing,
    drawing? (encodeIndexed (index pixels (w * h)) w h column row) = some drawing ∧
      drawing.Shows pixels w h column row := by
  obtain ⟨selected, hcanvas⟩ := actAll_bodyItems (isValid_index pixels w h)
    fun r hr => (index pixels (w * h)).lookup_shade hr
  refine ⟨_, drawing?_encodeIndexed _ w h column row, ?_⟩
  rw [hcanvas]
  have hlength : (definitionsFrom 0 (index pixels (w * h)).palette.toList).length =
      (index pixels (w * h)).palette.size := by
    simp [definitionsFrom]
  constructor
  case sound => rfl
  case cell => rfl
  case overlay => rfl
  case raster => rfl
  case paints =>
    intro x y
    dsimp only
    split_ifs with hin
    · exact indexedPaint_index pixels hin.1 hin.2
    · rfl
  case registers =>
    dsimp only
    rw [map_fst_definitionsFrom, hlength, Array.length_toList, List.range_eq_range']
  case shades =>
    dsimp only
    have hinjective : Set.InjOn Shade.ofKey
        {k | k ∈ ((List.range (w * h)).map (pixelAt pixels)).flatMap paintedKey} :=
      Shade.injOn_ofKey.mono fun k hk => lt_of_mem_paintedKey hk
    rw [map_snd_definitionsFrom, palette_index, ← eraseDups_map hinjective, List.map_flatMap,
      List.flatMap_map]
    simp only [paintOf_eq]
  case few =>
    dsimp only
    rw [hlength]
    exact Nat.lt_succ_of_le (size_palette_index_le pixels (w * h))

section Encode

variable {pixels : ByteArray} {w h : Nat} {scratch : Scratch}

/-- Encoding gives back what it charges, also when it fails. -/
theorem snd_encode (pixels : ByteArray) (w h column row : Nat) (scratch : Scratch) :
    (encode pixels w h column row scratch).2 = scratch := by
  rw [← encodeCharged_eq]
  exact restores_encodeCharged pixels w h column row scratch

/-- Pixels enough are encoded when an indexed copy fits into the budget. -/
theorem encode_eq_ok (hw : 0 < w) (hw' : w < 65536) (hh : 0 < h) (hh' : h < 65536)
    (hsize : w * h * 4 ≤ pixels.size) (hroom : w * h ≤ scratch.remaining) (column row : Nat) :
    (encode pixels w h column row scratch).1 =
      .ok (encodeIndexed (index pixels (w * h)) w h column row) := by
  have hsides : ¬(w = 0 ∨ h = 0) := by omega
  have hquarter : w * h * 4 / 4 = w * h := Nat.mul_div_cancel _ (by decide)
  rw [encode, if_neg hsides, Size.rgba_eq hw' hh']
  change ((if pixels.size < w * h * 4 then _ else _ : Scratching String) scratch).1 = _
  rw [if_neg (Nat.not_lt.mpr hsize)]
  change ((Scratch.charge (w * h * 4 / 4) >>= fun _ => pure _) scratch).1 = _
  rw [hquarter, Scratch.run_bind, Scratch.charge, dif_pos hroom]
  rfl

end Encode

/-- Encoding leaves the budget as it was, and a buffer that does not take the text too. Pixels of a
raster that is not empty are encoded when there is room for an indexed copy, as a text that a buffer
takes whole if there is room for it; its bytes draw the pixels at the cell. -/
theorem encode_shows (pixels : ByteArray) (w h column row : Nat) (scratch : Scratch)
    (output : Output) :
    let result := encode pixels w h column row scratch
    result.2 = scratch ∧
      (∀ e, (output.offer result.1).2 = some e → (output.offer result.1).1 = output) ∧
      (0 < w → w < 65536 → 0 < h → h < 65536 → w * h * 4 ≤ pixels.size →
        w * h ≤ scratch.remaining → ∃ (bytes : ByteArray) (drawing : Drawing),
          output.offer result.1 = (if bytes.size ≤ output.remaining then (output.push bytes, none)
            else (output, some (.limit .output))) ∧
          decode? bytes = some drawing ∧ drawing.Shows pixels w h column row) := by
  intro result
  refine ⟨snd_encode pixels w h column row scratch, fun e => Output.offer_failed, ?_⟩
  intro hw hw' hh hh' hsize hroom
  have hok : result.1 = _ := encode_eq_ok hw hw' hh hh' hsize hroom column row
  obtain ⟨drawing, hdrawing, hshows⟩ := shows_index pixels w h column row
  refine ⟨(encodeIndexed (index pixels (w * h)) w h column row).toUTF8, drawing, ?_, ?_, hshows⟩
  · rw [hok]
    exact output.offer_ok _
  · rw [decode?, fromUTF8?_toUTF8, Option.bind_some, hdrawing]

/-- A red pixel and a transparent one. -/
def redAndClear : ByteArray := ⟨#[255, 0, 0, 255, 0, 0, 255, 127]⟩

/-- Only the red pixel is painted. -/
theorem encode_shows_red_and_clear :
    ∃ (bytes : ByteArray) (drawing : Drawing),
      Output.unbounded.offer (encode redAndClear 2 1 4 2 (.withBudget 2)).1 =
        (if bytes.size ≤ Output.unbounded.remaining then (Output.unbounded.push bytes, none)
          else (Output.unbounded, some (.limit .output))) ∧
      decode? bytes = some drawing ∧ drawing.canvas.paints 0 0 = [⟨100, 0, 0⟩] ∧
        drawing.canvas.paints 1 0 = [] := by
  obtain ⟨bytes, drawing, hoffer, hdecode, hshows⟩ :=
    (encode_shows redAndClear 2 1 4 2 (.withBudget 2) .unbounded).2.2 (by decide) (by decide)
      (by decide) (by decide) (by decide) (by decide)
  refine ⟨bytes, drawing, hoffer, hdecode, ?_, ?_⟩
  · rw [hshows.paints]
    decide
  · rw [hshows.paints]
    decide

end CellCanvas.Sixel
