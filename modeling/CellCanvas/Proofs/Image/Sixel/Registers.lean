import CellCanvas.Image.Sixel
import CellCanvas.Proofs.Image.Sixel.Reader

/-!
# Registers of an indexed image

Pixels are assigned to registers one after the other. The palette is the list of the cube colours in
the order in which they first appear, and the register of a pixel is the place of its colour there.
Different cube colours have different percentages, so the same can be said of the colours that a
terminal is told.
-/

namespace CellCanvas.Sixel

section FirstAppearance

variable {α β : Type} [DecidableEq α] [DecidableEq β]

/-- What is appended to a list comes last among its different members, or has come before. -/
theorem eraseDups_concat (as : List α) (a : α) :
    (as ++ [a]).eraseDups = if a ∈ as then as.eraseDups else as.eraseDups ++ [a] := by
  rw [List.eraseDups_append]
  by_cases ha : a ∈ as
  · simp [List.removeAll, ha]
  · simp [List.removeAll, ha, List.eraseDups_cons]

theorem nodup_eraseDups (as : List α) : as.eraseDups.Nodup := by
  induction as using List.reverseRecOn with
  | nil => exact List.nodup_nil
  | append_singleton as a ih =>
    rw [eraseDups_concat]
    split_ifs with ha
    · exact ih
    · refine List.nodup_append.mpr ⟨ih, List.nodup_singleton a, ?_⟩
      rintro b hb c hc rfl
      obtain rfl := List.mem_singleton.mp hc
      exact ha (List.mem_eraseDups.mp hb)

theorem eraseDups_map {f : α → β} {as : List α} (hf : Set.InjOn f {a | a ∈ as}) :
    (as.map f).eraseDups = as.eraseDups.map f := by
  induction as using List.reverseRecOn with
  | nil => rfl
  | append_singleton as a ih =>
    have hmem : f a ∈ as.map f ↔ a ∈ as := by
      constructor
      · intro ha
        obtain ⟨b, hb, heq⟩ := List.mem_map.mp ha
        rwa [← hf (by simp [hb]) (by simp) heq]
      · exact List.mem_map_of_mem
    rw [List.map_append, List.map_singleton, eraseDups_concat, eraseDups_concat,
      ih (hf.mono fun b hb => List.mem_append_left _ hb)]
    simp only [hmem]
    split_ifs
    · rfl
    · rw [List.map_append, List.map_singleton]

end FirstAppearance

theorem level_lt (v : UInt8) : level v.toNat < 6 := by
  have hv := v.toNat_lt
  unfold level
  omega

theorem key_lt (p : Pixel) : key p < cubeSize := by
  have hred := level_lt p.red
  have hgreen := level_lt p.green
  have hblue := level_lt p.blue
  unfold key cubeSize
  omega

/-- The colour of a place in the cube. -/
def Shade.ofKey (key : Nat) : Shade :=
  ⟨percent (key / 36), percent (key / 6 % 6), percent (key % 6)⟩

/-- The percentages of the levels of a pixel. -/
def Shade.ofPixel (p : Pixel) : Shade :=
  ⟨percent (level p.red.toNat), percent (level p.green.toNat), percent (level p.blue.toNat)⟩

theorem Shade.ofKey_key (p : Pixel) : ofKey (key p) = ofPixel p := by
  have hred := level_lt p.red
  have hgreen := level_lt p.green
  have hblue := level_lt p.blue
  have hfirst : key p / 36 = level p.red.toNat := by
    unfold key
    omega
  have hsecond : key p / 6 % 6 = level p.green.toNat := by
    unfold key
    omega
  have hthird : key p % 6 = level p.blue.toNat := by
    unfold key
    omega
  rw [ofKey, hfirst, hsecond, hthird, ofPixel]

theorem percent_inj : ∀ a < 6, ∀ b < 6, percent a = percent b → a = b := by decide

/-- Different places in the cube have different colours. -/
theorem Shade.injOn_ofKey : Set.InjOn ofKey {key | key < cubeSize} := by
  intro a ha b hb heq
  change a < 216 at ha
  change b < 216 at hb
  obtain ⟨hred, hgreen, hblue⟩ := Shade.mk.inj heq
  have hfirst := percent_inj _ (by omega) _ (by omega) hred
  have hsecond := percent_inj _ (by omega) _ (by omega) hgreen
  have hthird := percent_inj _ (by omega) _ (by omega) hblue
  omega

/-- The place of a pixel in the cube, if it is painted. -/
def paintedKey (p : Pixel) : List Nat := if Color.isOpaque p.alpha then [key p] else []

theorem lt_of_mem_paintedKey {ps : List Pixel} {k : Nat} (h : k ∈ ps.flatMap paintedKey) :
    k < cubeSize := by
  obtain ⟨p, -, hp⟩ := List.mem_flatMap.mp h
  unfold paintedKey at hp
  split_ifs at hp
  · rw [List.mem_singleton.mp hp]
    exact key_lt p
  · cases hp

/-- The colours of a palette in the order of their registers. -/
def definitionsFrom (first : Nat) (palette : List Nat) : List (Nat × Shade) :=
  (palette.zipIdx first).map fun (key, r) => (r, .ofKey key)

/-- The register of a pixel in a palette, if it is painted. -/
def registerIn (palette : List Nat) (p : Pixel) : Option Nat :=
  if Color.isOpaque p.alpha then some (palette.idxOf (key p)) else none

namespace Assignment

/-- What is known after some pixels have been assigned. -/
structure Assigns (ps : List Pixel) (a : Assignment) : Prop where
  palette : a.image.palette.toList = (ps.flatMap paintedKey).eraseDups
  pixels : a.image.pixels.toList = ps.map (registerIn a.image.palette.toList)
  size : a.registers.size = cubeSize
  registers : ∀ k, a.registers.getD k none =
    if k ∈ a.image.palette.toList then some (a.image.palette.toList.idxOf k) else none

variable {ps : List Pixel} {a : Assignment}

theorem Assigns.start : Assigns [] start := by
  refine ⟨rfl, rfl, Array.size_replicate, ?_⟩
  intro k
  by_cases hk : k < cubeSize
  · simp [Assignment.start, hk]
  · simp [Assignment.start, hk]

theorem Assigns.mem_palette (h : Assigns ps a) {p : Pixel} (hp : p ∈ ps)
    (hsolid : Color.isOpaque p.alpha = true) : key p ∈ a.image.palette.toList := by
  rw [h.palette, List.mem_eraseDups, List.mem_flatMap]
  exact ⟨p, hp, by simp [paintedKey, hsolid]⟩

/-- A new colour takes the next register. -/
theorem Assigns.registers_push (h : Assigns ps a) {new : Nat}
    (hnew : new ∉ a.image.palette.toList) (hlt : new < cubeSize) (k : Nat) :
    (a.registers.setIfInBounds new (some a.image.palette.size)).getD k none =
      if k ∈ a.image.palette.toList ++ [new] then
        some ((a.image.palette.toList ++ [new]).idxOf k)
      else none := by
  have hold := h.registers k
  have hbound : new < a.registers.size := h.size ▸ hlt
  simp only [Array.getD_eq_getD_getElem?, Array.getElem?_setIfInBounds] at hold ⊢
  by_cases hk : new = k
  · subst hk
    simp [hbound, List.idxOf_append_of_notMem hnew]
  · rw [if_neg hk, hold]
    by_cases hmem : k ∈ a.image.palette.toList
    · rw [if_pos hmem, if_pos (List.mem_append_left _ hmem), List.idxOf_append_of_mem hmem]
    · have hnot : k ∉ a.image.palette.toList ++ [new] := by simp [hmem, Ne.symm hk]
      rw [if_neg hmem, if_neg hnot]

theorem Assigns.add (h : Assigns ps a) (p : Pixel) : Assigns (ps ++ [p]) (a.add p) := by
  have hregister := h.registers (key p)
  have hmem : key p ∈ ps.flatMap paintedKey ↔ key p ∈ a.image.palette.toList := by
    rw [h.palette, List.mem_eraseDups]
  unfold Assignment.add
  by_cases hsolid : Color.isOpaque p.alpha = true
  · have hpainted : paintedKey p = [key p] := if_pos hsolid
    rw [if_neg (by simp [hsolid])]
    dsimp only
    by_cases hknown : key p ∈ a.image.palette.toList
    · rw [if_pos hknown] at hregister
      rw [hregister]
      refine ⟨?_, ?_, h.size, h.registers⟩
      · rw [List.flatMap_append, List.flatMap_singleton, hpainted, eraseDups_concat,
          if_pos (hmem.mpr hknown)]
        exact h.palette
      · simp [h.pixels, registerIn, hsolid]
    · rw [if_neg hknown] at hregister
      rw [hregister]
      refine ⟨?_, ?_, ?_, ?_⟩
      · rw [List.flatMap_append, List.flatMap_singleton, hpainted, eraseDups_concat,
          if_neg (mt hmem.mp hknown), Array.toList_push, h.palette]
      · have hlast : registerIn (a.image.palette.toList ++ [key p]) p =
            some a.image.palette.size := by
          rw [registerIn, if_pos hsolid, List.idxOf_append_of_notMem hknown, List.idxOf_cons_self,
            Array.length_toList, Nat.add_zero]
        rw [Array.toList_push, Array.toList_push, List.map_append, List.map_singleton, hlast,
          h.pixels]
        refine congrArg (· ++ _) (List.map_congr_left fun q hq => ?_)
        -- The registers of the pixels before stay what they were.
        unfold registerIn
        split_ifs with hq'
        · rw [List.idxOf_append_of_mem (h.mem_palette hq hq')]
        · rfl
      · rw [Array.size_setIfInBounds, h.size]
      · intro k
        rw [Array.toList_push]
        exact h.registers_push hknown (key_lt p) k
  · have hpainted : paintedKey p = [] := if_neg hsolid
    rw [if_pos (by simp [hsolid])]
    refine ⟨?_, ?_, h.size, h.registers⟩
    · rw [List.flatMap_append, List.flatMap_singleton, hpainted, List.append_nil]
      exact h.palette
    · simp [h.pixels, registerIn, hsolid]

end Assignment

theorem assigns_index (bytes : ByteArray) (count : Nat) : ∃ a : Assignment,
    a.image = index bytes count ∧ a.Assigns ((List.range count).map (pixelAt bytes)) := by
  refine ⟨_, rfl, ?_⟩
  induction count with
  | zero => exact .start
  | succ count ih =>
    rw [Nat.fold_succ, List.range_succ, List.map_append, List.map_singleton]
    exact ih.add _

/-- The colours of an indexed image are those of its pixels in the order of their appearance. -/
theorem palette_index (bytes : ByteArray) (count : Nat) :
    (index bytes count).palette.toList =
      (((List.range count).map (pixelAt bytes)).flatMap paintedKey).eraseDups := by
  obtain ⟨a, ha, hassigns⟩ := assigns_index bytes count
  rw [← ha]
  exact hassigns.palette

theorem register?_index (bytes : ByteArray) {w h x y : Nat} (hx : x < w) (hy : y < h) :
    (index bytes (w * h)).register? w x y =
      registerIn (index bytes (w * h)).palette.toList (pixelAt bytes (y * w + x)) := by
  obtain ⟨a, ha, hassigns⟩ := assigns_index bytes (w * h)
  have hi : y * w + x < w * h := by nlinarith
  rw [Indexed.register?, ← ha, Array.getD_eq_getD_getElem?, ← Array.getElem?_toList,
    hassigns.pixels]
  simp [hi]

theorem mem_palette_index (bytes : ByteArray) {w h x y : Nat} (hx : x < w) (hy : y < h)
    (hsolid : Color.isOpaque (pixelAt bytes (y * w + x)).alpha = true) :
    key (pixelAt bytes (y * w + x)) ∈ (index bytes (w * h)).palette.toList := by
  obtain ⟨a, ha, hassigns⟩ := assigns_index bytes (w * h)
  have hi : y * w + x < w * h := by nlinarith
  rw [← ha]
  exact hassigns.mem_palette (List.mem_map_of_mem (List.mem_range.mpr hi)) hsolid

/-- Every register number is given to one place of the cube. -/
theorem size_palette_index_le (bytes : ByteArray) (count : Nat) :
    (index bytes count).palette.size ≤ cubeSize := by
  have hnodup := nodup_eraseDups (((List.range count).map (pixelAt bytes)).flatMap paintedKey)
  have hsubset : (((List.range count).map (pixelAt bytes)).flatMap paintedKey).eraseDups.toFinset ⊆
      Finset.range cubeSize := by
    intro k hk
    rw [List.mem_toFinset, List.mem_eraseDups] at hk
    exact Finset.mem_range.mpr (lt_of_mem_paintedKey hk)
  have hcard := Finset.card_le_card hsubset
  rwa [List.toFinset_card_of_nodup hnodup, Finset.card_range, ← palette_index,
    Array.length_toList] at hcard

theorem definitionsFrom_cons (first key : Nat) (palette : List Nat) :
    definitionsFrom first (key :: palette) =
      (first, .ofKey key) :: definitionsFrom (first + 1) palette := rfl

/-- A register has the colour of its place in the palette. -/
theorem lookup_definitionsFrom (first r : Nat) (palette : List Nat) :
    (definitionsFrom first palette).lookup r =
      if first ≤ r then palette[r - first]?.map Shade.ofKey else none := by
  induction palette generalizing first with
  | nil => simp [definitionsFrom]
  | cons key palette ih =>
    rw [definitionsFrom_cons, List.lookup_cons, ih]
    rcases Nat.lt_trichotomy r first with hlt | rfl | hlt
    · rw [beq_false_of_ne hlt.ne, if_neg (by omega), if_neg (by omega)]
    · simp
    · have hnext : r - first = r - (first + 1) + 1 := by omega
      rw [beq_false_of_ne hlt.ne', if_pos (by omega), if_pos (by omega), hnext,
        List.getElem?_cons_succ]

theorem lookup_register {palette : List Nat} {p : Pixel} (hmem : key p ∈ palette) :
    (definitionsFrom 0 palette).lookup (palette.idxOf (key p)) = some (.ofPixel p) := by
  rw [lookup_definitionsFrom, if_pos (Nat.zero_le _), Nat.sub_zero, List.getElem?_idxOf hmem,
    Option.map_some, Shade.ofKey_key]

theorem map_fst_definitionsFrom (first : Nat) (palette : List Nat) :
    (definitionsFrom first palette).map Prod.fst = List.range' first palette.length := by
  induction palette generalizing first with
  | nil => rfl
  | cons key palette ih =>
    rw [definitionsFrom_cons, List.map_cons, ih, List.length_cons, List.range'_succ]

theorem map_snd_definitionsFrom (first : Nat) (palette : List Nat) :
    (definitionsFrom first palette).map Prod.snd = palette.map Shade.ofKey := by
  induction palette generalizing first with
  | nil => rfl
  | cons key palette ih => rw [definitionsFrom_cons, List.map_cons, ih, List.map_cons]

end CellCanvas.Sixel
