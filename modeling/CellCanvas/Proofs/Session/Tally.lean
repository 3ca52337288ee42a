import CellCanvas.Proofs.Session.Glyphs
import CellCanvas.Proofs.Session.ScrollCost
import CellCanvas.Proofs.Session.Spans

/-!
# What an update counts

An update without a scroll writes the glyphs at the places that changed and no others. The counts of
a render are those of the places and of the rows that changed, and of the bytes that are appended.
-/

namespace CellCanvas

theorem ncard_eq_length {α : Type*} {members : List α} {s : Set α} (hnodup : members.Nodup)
    (hmem : ∀ a, a ∈ members ↔ a ∈ s) : s.ncard = members.length := by
  classical
  have hset : s = members.toFinset := by
    ext a
    simp [hmem a]
  rw [hset, Set.ncard_coe_finset, List.toFinset_card_of_nodup hnodup]

/-- Spans in order have no column twice. -/
theorem nodup_columnsOf {spans : List (Nat × Nat)} (h : spans.Pairwise fun a b => a.2 < b.1) :
    (columnsOf spans).Nodup := by
  induction spans with
  | nil => exact List.nodup_nil
  | cons span spans ih =>
    obtain ⟨hfirst, hrest⟩ := List.pairwise_cons.mp h
    rw [columnsOf_cons]
    refine (List.nodup_range').append (ih hrest) ?_
    intro x hx hx'
    obtain ⟨later, hlater, hle, -⟩ := mem_columnsOf.mp hx'
    have hlt := hfirst later hlater
    have hin := List.mem_range'_1.mp hx
    omega

namespace Comparison

variable {c : Comparison} {x y : Nat}

/-- The places that changed. -/
def changes (c : Comparison) : Set (Nat × Nat) := {place | c.IsChanged place.1 place.2}

/-- The rows in which a place changed. -/
def changedRows (c : Comparison) : Set Nat := {y | ∃ x, c.IsChanged x y}

theorem length_places (c : Comparison) (rows : List Nat) :
    (rows.flatMap fun y => (columnsOf (c.spans y)).map fun x => (x, y)).length =
      c.changedCells rows := by
  unfold changedCells
  induction rows with
  | nil => rfl
  | cons y rows ih =>
    rw [List.flatMap_cons, List.length_append, ih, List.length_map, List.map_cons, total_cons]
    rfl

theorem IsChanged.exists_differs (h : c.IsChanged x y) : ∃ z, c.Differs z y := by
  rcases h with hdiffers | ⟨w, -, -, hdiffers | hdiffers⟩
  · exact ⟨x, hdiffers⟩
  · exact ⟨w, hdiffers⟩
  · exact ⟨w + 1, hdiffers⟩

theorem Differs.sameRow_eq_false (h : c.Differs x y) : c.sameRow y y = false := by
  by_contra hrow
  rw [Bool.not_eq_false] at hrow
  simp only [sameRow, Bool.and_eq_true] at hrow
  obtain ⟨old, new, hold, hnew, hdiffers⟩ := h
  obtain ⟨old', new', hold', hnew', hsame⟩ :=
    sameCell_of_sameCells hrow.2 (Nat.zero_le x)
      ((Nat.zero_add _).symm ▸ (Frame.lt_of_cell? hnew).1)
  rw [hold] at hold'
  rw [hnew] at hnew'
  cases hold'
  cases hnew'
  rw [hdiffers] at hsame
  cases hsame

namespace IsAligned

variable {p f : Frame} (h : (of p f).IsAligned)

include h

/-- The rows that are written are those in which a place changed. -/
theorem mem_dirtyRows_iff : y ∈ Session.dirtyRows (.of p f) ↔ y ∈ (of p f).changedRows := by
  rw [Session.dirtyRows, List.mem_filter, List.mem_range, Bool.not_eq_true']
  constructor
  · rintro ⟨hy, hrow⟩
    obtain ⟨x, old, new, hold, hnew, hdiffers⟩ :=
      exists_of_sameRow_eq_false h.width h.height hy hrow
    exact ⟨x, .inl ⟨old, new, hold, hnew, hdiffers⟩⟩
  · rintro ⟨x, hchanged⟩
    obtain ⟨z, hdiffers⟩ := hchanged.exists_differs
    exact ⟨hdiffers.lt.2, hdiffers.sameRow_eq_false⟩

theorem ncard_changes :
    (of p f).changes.ncard = (of p f).changedCells (Session.dirtyRows (.of p f)) := by
  have hrows : (Session.dirtyRows (.of p f)).Nodup := List.nodup_range.filter _
  rw [← length_places]
  apply ncard_eq_length
  · refine List.nodup_flatMap.mpr ⟨?_, hrows.imp ?_⟩
    · intro y _
      exact (nodup_columnsOf (h.covers_spans y).ordered).map fun x x' heq => congrArg Prod.fst heq
    · intro y y' hne place hplace hplace'
      obtain ⟨x, -, rfl⟩ := List.mem_map.mp hplace
      obtain ⟨x', -, heq⟩ := List.mem_map.mp hplace'
      exact hne (congrArg Prod.snd heq).symm
  · rintro ⟨x, y⟩
    rw [List.mem_flatMap]
    constructor
    · rintro ⟨y', -, hplace⟩
      obtain ⟨x', hcolumn, heq⟩ := List.mem_map.mp hplace
      cases heq
      exact h.mem_columnsOf_spans_iff.mp hcolumn
    · intro hchanged
      exact ⟨y, h.mem_dirtyRows_iff.mpr ⟨x, hchanged⟩,
        List.mem_map.mpr ⟨x, h.mem_columnsOf_spans_iff.mpr hchanged, rfl⟩⟩

/-- Only rows without spans are not counted, and no row that is written is one of them. -/
theorem ncard_changedRows : (of p f).changedRows.ncard =
    ((Session.dirtyRows (.of p f)).filter fun y => !((of p f).spans y).isEmpty).length := by
  have hrows : (Session.dirtyRows (.of p f)).Nodup := List.nodup_range.filter _
  apply ncard_eq_length (hrows.filter _)
  intro y
  rw [List.mem_filter, h.mem_dirtyRows_iff, and_iff_left_of_imp]
  rintro ⟨x, hchanged⟩
  have hcolumn := h.mem_columnsOf_spans_iff.mpr hchanged
  cases hspans : (of p f).spans y with
  | nil =>
    rw [hspans] at hcolumn
    cases hcolumn
  | cons span spans => rfl

end IsAligned

end Comparison

namespace Draft

variable {caps : Capabilities} {f : Frame}

theorem scrollHit_shifted (d : Draft) (plan : ScrollPlan) :
    (d.shifted caps f plan).stats.scrollHit = true := by
  have hrows (rows : List Nat) (d : Draft) (h : d.stats.scrollHit = true) :
      (rows.foldl (Session.wholeRow caps f) d).stats.scrollHit = true := by
    induction rows generalizing d with
    | nil => exact h
    | cons y rows ih =>
      apply ih
      rw [Session.wholeRow, stats_writeRow]
      exact h
  exact hrows _ _ rfl

/-- An update that does not scroll writes the rows that differ, after an attempt or none. -/
theorem updated_of_scrollHit {scroll : Bool} {c : Comparison} {d : Draft}
    (h : (d.updated caps scroll c).stats.scrollHit = false) :
    d.updated caps scroll c = d.attempted.rewritten caps c (Session.dirtyRows c) ∨
      d.updated caps scroll c = d.rewritten caps c (Session.dirtyRows c) := by
  unfold updated at h ⊢
  split_ifs at h ⊢
  · cases hplan : Session.scrollPlan? c (Session.dirtyRows c).length with
    | none => exact .inl rfl
    | some plan =>
      rw [hplan] at h
      dsimp only at h
      rw [stats_rewritten] at h
      dsimp only at h
      rw [scrollHit_shifted] at h
      cases h
  · exact .inr rfl

theorem stats_updated {scroll : Bool} {c : Comparison} {d : Draft}
    (h : (d.updated caps scroll c).stats.scrollHit = false) :
    (d.updated caps scroll c).stats.dirtyCells =
        d.stats.dirtyCells + c.changedCells (Session.dirtyRows c) ∧
      (d.updated caps scroll c).stats.dirtyLines = d.stats.dirtyLines +
        ((Session.dirtyRows c).filter fun y => !(c.spans y).isEmpty).length := by
  rcases updated_of_scrollHit h with heq | heq
  · rw [heq, stats_rewritten]
    exact ⟨rfl, rfl⟩
  · rw [heq, stats_rewritten]
    exact ⟨rfl, rfl⟩

theorem texts_updated {scroll : Bool} {c : Comparison} {d : Draft}
    (h : (d.updated caps scroll c).stats.scrollHit = false) :
    (d.updated caps scroll c).texts = d.texts ++ c.glyphs (Session.dirtyRows c) := by
  rcases updated_of_scrollHit h with heq | heq
  · rw [heq, texts_rewritten]
    rfl
  · rw [heq, texts_rewritten]

end Draft

namespace Session

variable {s : Session} {p f : Frame} {caps : Capabilities} {cursor : Option CursorRequest}

theorem bytes_drafted (s : Session) (f : Frame) (caps : Capabilities)
    (cursor : Option CursorRequest) :
    (s.drafted f caps cursor).stats.bytes = (s.drafted f caps cursor).size := by
  by_cases hempty : f.width = 0 ∨ f.height = 0
  · rw [drafted, if_pos hempty]
    rfl
  · obtain ⟨hw, hh⟩ := not_or.mp hempty
    rw [stats_drafted hw hh]

theorem dirtyRows_of_empty (h : (Comparison.of p f).IsAligned)
    (hempty : f.width = 0 ∨ f.height = 0) : dirtyRows (.of p f) = [] := by
  rw [List.eq_nil_iff_forall_not_mem]
  intro y hy
  obtain ⟨x, hchanged⟩ := h.mem_dirtyRows_iff.mp hy
  have hin : x < f.width ∧ y < f.height := h.lt_of_isChanged hchanged
  omega

theorem body_of_aligned (caps : Capabilities) (h : (Comparison.of p f).IsAligned)
    (hprevious : s.previous = some p) :
    s.body f caps = if dirtyRows (.of p f) = [] then opened caps s.state
      else (opened caps s.state).updated caps s.options.scrollOptimization (.of p f) := by
  simp only [body, hprevious]
  rw [if_pos ⟨h.width, h.height⟩]

/-- The counts of an update that does not scroll. -/
theorem counts_drafted (h : (Comparison.of p f).IsAligned) (hprevious : s.previous = some p)
    (hplain : (s.drafted f caps cursor).stats.scrollHit = false) :
    (s.drafted f caps cursor).stats.dirtyCells = (Comparison.of p f).changes.ncard ∧
      (s.drafted f caps cursor).stats.dirtyLines = (Comparison.of p f).changedRows.ncard := by
  rw [h.ncard_changes, h.ncard_changedRows]
  by_cases hempty : f.width = 0 ∨ f.height = 0
  · rw [drafted, if_pos hempty, dirtyRows_of_empty h hempty]
    exact ⟨rfl, rfl⟩
  · obtain ⟨hw, hh⟩ := not_or.mp hempty
    rw [stats_drafted hw hh] at hplain ⊢
    rw [body_of_aligned caps h hprevious] at hplain ⊢
    by_cases hdirty : dirtyRows (.of p f) = []
    · rw [if_pos hdirty, stats_opened, hdirty]
      exact ⟨rfl, rfl⟩
    · rw [if_neg hdirty] at hplain ⊢
      have hstats := Draft.stats_updated hplain
      rwa [stats_opened, Nat.zero_add, Nat.zero_add] at hstats

/-- The texts of an update that does not scroll. A frame that is not empty is never dropped, since a
row that differs has a glyph. -/
theorem texts_drafted (h : (Comparison.of p f).IsAligned) (hprevious : s.previous = some p)
    (hs : s.IsSettled) (hplain : (s.drafted f caps cursor).stats.scrollHit = false) :
    (s.drafted f caps cursor).texts = (Comparison.of p f).glyphs (dirtyRows (.of p f)) := by
  by_cases hempty : f.width = 0 ∨ f.height = 0
  · rw [drafted, if_pos hempty, dirtyRows_of_empty h hempty]
    rfl
  · obtain ⟨hw, hh⟩ := not_or.mp hempty
    have hsuits : s.state.Suits (fun _ => True) caps := hs.suits caps
    have hbody := body_of_aligned caps h hprevious
    rw [stats_drafted hw hh] at hplain
    rw [drafted, if_neg hempty]
    change (closed caps (opened caps s.state) (settled caps f cursor (s.body f caps))).texts = _
    by_cases hdirty : dirtyRows (.of p f) = []
    · rw [if_pos hdirty] at hbody
      have hnone : (settled caps f cursor (s.body f caps)).texts = [] := by
        rw [texts_settled, hbody, texts_opened]
      rw [texts_closed (.inl hnone), hnone, hdirty]
      rfl
    · rw [if_neg hdirty] at hbody
      have hgrown : (opened caps s.state).size < (s.body f caps).size := by
        rw [hbody]
        exact Draft.size_lt_updated (fun _ => trivial) h.next h.width h.height hdirty
          (suits_opened hsuits)
      have hkept : (s.body f caps).size ≤ (settled caps f cursor (s.body f caps)).size :=
        ((Draft.Grows.refl (grows_body (fun _ => trivial) hsuits).suits).settled hw hh
          cursor).size_le
      rw [texts_closed (.inr (by omega)), texts_settled]
      rw [hbody] at hplain ⊢
      rw [Draft.texts_updated hplain, texts_opened, List.nil_append]

theorem pending_of_render {r : Session × RenderStats} (h : s.render f caps cursor = .ok r) :
    r.1.output.pending = s.output.pending ++ s.bytes f caps cursor := by
  obtain ⟨d, hd, hrest⟩ := exists_of_bind_eq_ok h
  obtain ⟨d', hd', hrest⟩ := exists_of_bind_eq_ok hrest
  obtain ⟨output, happend, hlast⟩ := exists_of_bind_eq_ok hrest
  obtain rfl := Draft.eq_of_within hd'
  obtain rfl := draft_ok hd
  cases hlast
  unfold Output.append at happend
  split_ifs at happend
  cases happend
  rfl

/-- Between two valid frames of one size the spans of each row cover just the places that changed,
come in order and cut no wide glyph, and the rows with such places are those that are written. A
render that does not scroll counts these places and these rows, and the bytes that it appends; the
texts among them are the glyphs of the spans, row by row. -/
theorem update_writes_changes (aligned : (Comparison.of p f).IsAligned) :
    let c := Comparison.of p f
    (∀ y, (∀ x, x ∈ columnsOf (c.spans y) ↔ c.IsChanged x y) ∧
        ((c.spans y).Pairwise fun a b => a.2 < b.1) ∧ ∀ span ∈ c.spans y, c.IsWhole y span) ∧
      (∀ y, y ∈ dirtyRows c ↔ y ∈ c.changedRows) ∧
      ∀ (s : Session) (caps : Capabilities) (cursor : Option CursorRequest)
        (r : Session × RenderStats), s.previous = some p → s.IsSettled →
        s.render f caps cursor = .ok r → r.2.scrollHit = false →
          r.2.dirtyCells = c.changes.ncard ∧ r.2.dirtyLines = c.changedRows.ncard ∧
            ∃ added, r.1.output.pending = s.output.pending ++ added ∧ added.size = r.2.bytes ∧
              ∃ commands, added = (Command.encodeAll commands).toUTF8 ∧
                commands.filterMap Command.text? = c.glyphs (dirtyRows c) := by
  intro c
  refine ⟨?_, fun y => aligned.mem_dirtyRows_iff, ?_⟩
  · intro y
    have hcovers := aligned.covers_spans y
    exact ⟨fun x => aligned.mem_columnsOf_spans_iff, hcovers.ordered, hcovers.whole⟩
  · intro s caps cursor r hprevious hsettled hrender hplain
    rw [stats_of_render hrender] at hplain ⊢
    obtain ⟨hcells, hlines⟩ := counts_drafted aligned hprevious hplain
    refine ⟨hcells, hlines, _, pending_of_render hrender, ?_, _, rfl, ?_⟩
    · rw [bytes_drafted]
      exact size_drafted (fun _ => trivial) (hsettled.suits caps)
    · exact texts_drafted aligned hprevious hsettled hplain

/-- A wide glyph between two spaces, with a style of its own for the right half. -/
def glyphFrame (rightHalf : Style) : Frame :=
  ((Frame.blank 4 1).set 1 0 (.ofCluster "日" 2 .plain)).set 2 0 (.continuation rightHalf)

/-- The glyph before and after its right half becomes bold. -/
def plainGlyph : Frame := glyphFrame .plain

def halfBoldGlyph : Frame := glyphFrame { Style.plain with attributes := ⟨1⟩ }

/-- A session without limits that shows the plain glyph. -/
def glyphSession : Session := { start {} .unbounded with previous := some plainGlyph }

/-- A right half that changes takes the left half with it. -/
theorem update_writes_changes_right_half :
    ∃ r, glyphSession.render halfBoldGlyph {} none = .ok r ∧
      (Comparison.of plainGlyph halfBoldGlyph).changes.ncard = 2 ∧
      (Comparison.of plainGlyph halfBoldGlyph).changedRows.ncard = 1 ∧
      r.1.output.pending.size = r.2.bytes := by
  have haligned : (Comparison.of plainGlyph halfBoldGlyph).IsAligned :=
    ⟨by decide +kernel, by decide +kernel, by decide +kernel, by decide +kernel⟩
  have hstats : (glyphSession.render halfBoldGlyph {} none).toOption.map
      (fun r => (r.2.dirtyCells, r.2.dirtyLines, r.2.scrollHit)) = some (2, 1, false) := by
    decide +kernel
  cases hrender : glyphSession.render halfBoldGlyph {} none with
  | error failure =>
    rw [hrender] at hstats
    cases hstats
  | ok r =>
    rw [hrender] at hstats
    obtain ⟨hcells, hstats⟩ := Prod.mk.inj (Option.some.inj hstats)
    obtain ⟨hlines, hplain⟩ := Prod.mk.inj hstats
    obtain ⟨-, -, hcounts⟩ := update_writes_changes haligned
    obtain ⟨hchanges, hrows, added, hpending, hadded, -⟩ :=
      hcounts glyphSession {} none r rfl ⟨rfl, nofun⟩ hrender hplain
    refine ⟨r, rfl, hchanges.symm.trans hcells, hrows.symm.trans hlines, ?_⟩
    rw [hpending, ← hadded, ByteArray.size_append]
    exact Nat.zero_add _

end Session

end CellCanvas
