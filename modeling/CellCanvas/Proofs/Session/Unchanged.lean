import CellCanvas.Proofs.Paint.Addresses
import CellCanvas.Proofs.Session.Unbounded

/-!
# Frames that look the same

A frame that looks like the retained one sends nothing: no row differs, also when the same addresses
have other numbers, and a cursor that was put where a request wants it is there when the request
comes again.
-/

namespace CellCanvas

theorem Cell.eq_of_unlinked_eq {c d : Cell} (h : c.unlinked = d.unlinked)
    (hlink : c.style.link = d.style.link) : c = d := by
  obtain ⟨glyph, width, ⟨foreground, background, attributes, underline, link⟩, _, _, _⟩ := c
  obtain ⟨glyph', width', ⟨foreground', background', attributes', underline', link'⟩, _, _, _⟩ := d
  simp only [unlinked, withStyle, Style.unlinked, mk.injEq, Style.mk.injEq] at h hlink ⊢
  tauto

namespace Frame

/-- Every link number in a cell has an address. -/
def ResolvesLinks (f : Frame) : Prop :=
  ∀ c ∈ f.cells, c.style.link ≠ 0 → (f.linkUri? c.style.link).isSome = true

instance (f : Frame) : Decidable f.ResolvesLinks :=
  inferInstanceAs (Decidable (∀ c ∈ f.cells, _))

/-- What can be seen of the cells: glyph, width and style, and the address behind the link. -/
def look (f : Frame) : Array (Cell × Option String) :=
  f.cells.map fun c => (c.unlinked, f.linkUri? c.style.link)

/-- Two frames of one size show the same. The numbers of their addresses may differ. -/
def LooksLike (f g : Frame) : Prop :=
  f.width = g.width ∧ f.height = g.height ∧ f.look = g.look

instance (f g : Frame) : Decidable (f.LooksLike g) := inferInstanceAs (Decidable (_ ∧ _))

theorem getElem?_of_cell? {f : Frame} {x y : Nat} {c : Cell} (h : f.cell? x y = some c) :
    f.cells[f.index x y]? = some c := by
  unfold cell? at h
  split_ifs at h
  exact h

/-- Cells at the same place of frames that look the same. -/
theorem LooksLike.cell {f g : Frame} (h : f.LooksLike g) {x y : Nat} {c d : Cell}
    (hc : f.cell? x y = some c) (hd : g.cell? x y = some d) :
    c.unlinked = d.unlinked ∧ f.linkUri? c.style.link = g.linkUri? d.style.link := by
  obtain ⟨hwidth, -, hlook⟩ := h
  have hindex : f.index x y = g.index x y := by rw [index, index, hwidth]
  have hseen := congrArg (fun seen => seen[f.index x y]?) hlook
  simp only [look, Array.getElem?_map] at hseen
  rw [getElem?_of_cell? hc, hindex, getElem?_of_cell? hd] at hseen
  exact Prod.mk.inj (Option.some.inj hseen)

/-- In a table without repetitions the address tells the number. -/
theorem link_eq_of_linkUri?_eq {f g : Frame} (hlinks : f.links = g.links)
    (hnodup : f.links.toList.Nodup) {m n : Nat} (hm : m ≠ 0 → (f.linkUri? m).isSome = true)
    (hn : n ≠ 0 → (g.linkUri? n).isSome = true) (h : f.linkUri? m = g.linkUri? n) : m = n := by
  cases m with
  | zero =>
    cases n with
    | zero => rfl
    | succ j =>
      rw [← h] at hn
      cases hn (Nat.succ_ne_zero j)
  | succ i =>
    have hi := hm (Nat.succ_ne_zero i)
    cases n with
    | zero =>
      rw [h] at hi
      cases hi
    | succ j =>
      change f.links[i]?.isSome = true at hi
      change f.links[i]? = g.links[j]? at h
      rw [← hlinks, ← Array.getElem?_toList, ← Array.getElem?_toList] at h
      have hlt : i < f.links.toList.length := by simpa using hi
      rw [(List.getElem?_inj hlt hnodup).mp h]

end Frame

namespace Comparison

variable {f g : Frame}

/-- The two ways to compare linked cells agree on frames that look the same. -/
theorem sameCell_of_looksLike (h : f.LooksLike g) (hnodup : f.links.toList.Nodup)
    (hf : f.ResolvesLinks) (hg : g.ResolvesLinks) {x y : Nat} {c d : Cell}
    (hc : f.cell? x y = some c) (hd : g.cell? x y = some d) : (of f g).sameCell c d = true := by
  obtain ⟨hcell, huri⟩ := h.cell hc hd
  unfold sameCell
  split_ifs with hnumbers
  · have hlink : c.style.link = d.style.link := by
      rcases Bool.or_eq_true_iff.mp hnumbers with hlinks | hnone
      · have hlinks : f.links = g.links := by simpa [of] using hlinks
        have hc' := hf c (Array.mem_of_getElem? (Frame.getElem?_of_cell? hc))
        have hd' := hg d (Array.mem_of_getElem? (Frame.getElem?_of_cell? hd))
        exact Frame.link_eq_of_linkUri?_eq hlinks hnodup hc' hd' huri
      · obtain ⟨hc₀, hd₀⟩ : c.style.link = 0 ∧ d.style.link = 0 := by simpa using hnone
        rw [hc₀, hd₀]
    exact decide_eq_true (Cell.eq_of_unlinked_eq hcell hlink)
  · exact Bool.and_eq_true_iff.mpr ⟨decide_eq_true hcell, decide_eq_true huri⟩

theorem dirtyRows_of_looksLike (h : f.LooksLike g) (hnodup : f.links.toList.Nodup)
    (hf : f.ResolvesLinks) (hg : g.ResolvesLinks) : Session.dirtyRows (of f g) = [] := by
  rw [Session.dirtyRows, List.filter_eq_nil_iff]
  intro y hy
  rw [Bool.not_eq_true', Bool.not_eq_false]
  by_contra hrow
  obtain ⟨x, c, d, hc, hd, hdiffers⟩ := exists_of_sameRow_eq_false h.1 h.2.1
    (List.mem_range.mp hy) (Bool.not_eq_true _ ▸ hrow)
  rw [sameCell_of_looksLike h hnodup hf hg hc hd] at hdiffers
  cases hdiffers

end Comparison

/-- A cursor request changes nothing that is known. -/
structure TermState.Honors (caps : Capabilities) (f : Frame) (r : CursorRequest) (st : TermState) :
    Prop where
  shape : caps.cursorShape = true → st.cursorShape = some r.shape
  visible : st.cursorVisible = some r.visible
  /-- The cursor is where it is wanted, or unknown and not wanted anywhere. -/
  position : (r.x = -1 ∧ r.y = -1 ∧ st.cursor = none) ∨
    ∃ x y, st.cursor = some (x, y) ∧ (r.x ≠ -1 → x = Draft.clampAxis r.x f.width) ∧
      (r.y ≠ -1 → y = Draft.clampAxis r.y f.height)

theorem TermState.Honors.of_same_size {caps : Capabilities} {f g : Frame} {r : CursorRequest}
    {st : TermState} (h : st.Honors caps f r) (hwidth : f.width = g.width)
    (hheight : f.height = g.height) : st.Honors caps g r := by
  refine ⟨h.shape, h.visible, ?_⟩
  rw [← hwidth, ← hheight]
  exact h.position

namespace Draft

variable {caps : Capabilities} {f : Frame} {r : CursorRequest} {d : Draft}

theorem shape_reshape (caps : Capabilities) (r : CursorRequest) (d : Draft)
    (h : caps.cursorShape = true) : (d.reshape caps r).state.cursorShape = some r.shape := by
  unfold reshape
  split_ifs with hshape
  · rfl
  · simpa [h] using hshape

theorem visible_reveal (r : CursorRequest) (d : Draft) :
    (d.reveal r).state.cursorVisible = some r.visible ∧
      (d.reveal r).state.cursorShape = d.state.cursorShape := by
  unfold reveal
  by_cases hvisible : d.state.cursorVisible = some r.visible
  · rw [if_neg (not_not.mpr hvisible)]
    exact ⟨hvisible, rfl⟩
  · rw [if_pos hvisible]
    exact ⟨rfl, rfl⟩

/-- Only the position may change when the cursor is placed, and then it is the one asked for. -/
theorem state_place (f : Frame) (r : CursorRequest) (d : Draft) :
    (d.place f r).state = d.state ∧ r.x = -1 ∧ r.y = -1 ∧ d.state.cursor = none ∨
      (d.place f r).state =
        { d.state with cursor := some (d.askedColumn f r, d.askedRow f r) } := by
  unfold place
  split_ifs with hstay
  · exact Or.inl ⟨rfl, hstay.1, hstay.2.1, Option.isNone_iff_eq_none.mp hstay.2.2⟩
  · exact Or.inr (state_moveTo d _ _)

theorem honors_applyCursor (caps : Capabilities) (f : Frame) (r : CursorRequest) (d : Draft) :
    (d.applyCursor caps f r).state.Honors caps f r := by
  rw [applyCursor_eq]
  obtain ⟨hvisible, hkept⟩ := visible_reveal r (d.reshape caps r)
  have hshape := fun h => hkept.trans (shape_reshape caps r d h)
  rcases state_place f r ((d.reshape caps r).reveal r) with ⟨hstate, hx, hy, hnone⟩ | hstate
  · rw [hstate]
    exact ⟨hshape, hvisible, Or.inl ⟨hx, hy, hnone⟩⟩
  · rw [hstate]
    refine ⟨hshape, hvisible, Or.inr ⟨_, _, rfl, ?_, ?_⟩⟩
    · exact fun hx => if_neg hx
    · exact fun hy => if_neg hy

/-- A request that is honored already sends nothing. -/
theorem applyCursor_of_honors (h : d.state.Honors caps f r) : d.applyCursor caps f r = d := by
  have hshape : d.reshape caps r = d := by
    apply if_neg
    rw [Bool.and_eq_true, not_and]
    intro hcaps
    simp [h.shape hcaps]
  have hvisible : d.reveal r = d := if_neg (not_not.mpr h.visible)
  rw [applyCursor_eq, hshape, hvisible, place]
  rcases h.position with ⟨hx, hy, hnone⟩ | ⟨x, y, hcursor, hx, hy⟩
  · exact if_pos ⟨hx, hy, Option.isNone_iff_eq_none.mpr hnone⟩
  · have hcolumn : d.askedColumn f r = x := by
      unfold askedColumn
      split_ifs with hkeep
      · rw [hcursor]
        rfl
      · exact (hx hkeep).symm
    have hrow : d.askedRow f r = y := by
      unfold askedRow
      split_ifs with hkeep
      · rw [hcursor]
        rfl
      · exact (hy hkeep).symm
    rw [if_neg (by simp [hcursor]), hcolumn, hrow]
    exact if_pos hcursor

/-- Closing a link is all that the end of a frame does to the state. -/
theorem state_closeLink (d : Draft) : d.closeLink.state = { d.state with link := none } := by
  unfold closeLink
  split_ifs with hlink
  · rfl
  · have hnone : d.state.link = none := by simpa using hlink
    rw [← hnone]

theorem closeLink_of_link (h : d.state.link = none) : d.closeLink = d := by
  simp [closeLink, h]

end Draft

namespace Session

variable {s s' : Session} {f g : Frame} {caps : Capabilities} {cursor : Option CursorRequest}
  {stats : RenderStats}

/-- After a frame no link is open and its request is honored. -/
theorem honors_of_render (h : s.render f caps cursor = .ok (s', stats))
    (hroom : ¬(f.width = 0 ∨ f.height = 0)) :
    s'.state.link = none ∧ ∀ r, cursor = some r → s'.state.Honors caps f r := by
  obtain ⟨d, hd, -, hstate, -⟩ := render_ok h
  rw [draft_eq hroom] at hd
  cases hbody : s.content f caps with
  | error e =>
    rw [hbody] at hd
    cases hd
  | ok body =>
    rw [hbody] at hd
    cases hd
    dsimp only at hstate
    rw [state_closed] at hstate
    refine ⟨hstate ▸ link_settled caps f cursor body, ?_⟩
    rintro r rfl
    have hsettled : s'.state = { (body.applyCursor caps f r).state with link := none } :=
      hstate.trans (Draft.state_closeLink _)
    obtain ⟨hshape, hvisible, hposition⟩ := Draft.honors_applyCursor caps f r body
    rw [hsettled]
    exact ⟨hshape, hvisible, hposition⟩

/-- A request that is honored does not change the end of a frame without content. -/
theorem settled_of_honors {d : Draft} (hlink : d.state.link = none)
    (h : ∀ r, cursor = some r → d.state.Honors caps f r) : settled caps f cursor d = d := by
  cases cursor with
  | none => exact Draft.closeLink_of_link hlink
  | some r =>
    change (d.applyCursor caps f r).closeLink = d
    rw [Draft.applyCursor_of_honors (h r rfl), Draft.closeLink_of_link hlink]

/-- A frame without a row that differs has an empty draft. -/
theorem draft_of_dirtyRows_eq_nil (hprevious : s.previous = some f) (hwidth : f.width = g.width)
    (hheight : f.height = g.height) (hrows : dirtyRows (.of f g) = [])
    (hlink : s.state.link = none) (h : ∀ r, cursor = some r → s.state.Honors caps g r) :
    s.draft g caps cursor = .ok (.start s.state) := by
  by_cases hempty : g.width = 0 ∨ g.height = 0
  · exact draft_of_empty hempty
  · have hcontent : s.content g caps = .ok (opened caps s.state) := by
      rw [content, hprevious]
      dsimp only
      rw [if_pos ⟨hwidth, hheight⟩]
      exact if_pos (List.isEmpty_iff.mpr hrows)
    have hsettled : settled caps g cursor (opened caps s.state) = opened caps s.state := by
      apply settled_of_honors
      · rwa [state_opened]
      · rwa [state_opened]
    rw [draft_eq hempty, hcontent, Except.map, hsettled, closed, if_pos rfl, stats_opened,
      state_opened]
    rfl

/-- An empty draft leaves the output as it is. -/
theorem render_of_draft_eq_start (h : s.draft f caps cursor = .ok (.start s.state)) :
    s.render f caps cursor = .ok ({ s with previous := some f }, {}) := by
  have happend : s.output.append (Command.encodeAll []).toUTF8 = .ok s.output := by
    have hpush : s.output.push ByteArray.empty = s.output := by
      rw [Output.push, ByteArray.append_empty]
    exact (if_pos (decide_eq_true (Nat.zero_le _))).trans (congrArg Except.ok hpush)
  have hwithin : (Draft.start s.state).within s.options.maxFrameBytes = .ok (.start s.state) :=
    if_neg (Nat.not_lt_zero _)
  rw [render_eq_bind, h]
  change ((Draft.start s.state).within s.options.maxFrameBytes >>= _) = _
  rw [hwithin]
  exact congrArg (fun appended : Except Failure Output => appended >>= fun output =>
    Except.ok ({ s with output, previous := some f }, ({} : RenderStats))) happend

/-- After a frame, another one that looks the same adds no byte to the output and does nothing that
is counted, and what is known of the terminal stays. Only the retained frame is exchanged. -/
theorem render_unchanged (hf : f.Built) (hsame : f.LooksLike g)
    (hlinks : f.ResolvesLinks) (hlinks' : g.ResolvesLinks)
    (h : s.render f caps cursor = .ok (s', stats)) :
    s'.render g caps cursor = .ok ({ s' with previous := some g }, {}) := by
  obtain ⟨-, -, hprevious, -⟩ := render_ok h
  have hwidth := hsame.1
  have hheight := hsame.2.1
  apply render_of_draft_eq_start
  by_cases hempty : g.width = 0 ∨ g.height = 0
  · exact draft_of_empty hempty
  · have hroom : ¬(f.width = 0 ∨ f.height = 0) := by rwa [hwidth, hheight]
    obtain ⟨hlink, hhonors⟩ := honors_of_render h hroom
    have hrows := Comparison.dirtyRows_of_looksLike hsame hf.nodup_links hlinks hlinks'
    apply draft_of_dirtyRows_eq_nil hprevious hwidth hheight hrows hlink
    intro r hr
    exact (hhonors r hr).of_same_size hwidth hheight

/-- Two spaces with links, in a frame that knows two addresses. -/
def linkedSpaces (first second : String) (m n : Nat) : Except Failure Frame := do
  let (f, _) ← (Frame.blank 2 1).internLink first
  let (f, _) ← f.internLink second
  return (f.set 0 0 (.blank { Style.plain with link := m })).set 1 0
    (.blank { Style.plain with link := n })

theorem built_linkedSpaces {first second : String} {m n : Nat}
    (h : linkedSpaces first second m n = .ok f) : f.Built := by
  obtain ⟨⟨f₁, i⟩, hfirst, h⟩ := exists_of_bind_eq_ok h
  obtain ⟨⟨f₂, j⟩, hsecond, h⟩ := exists_of_bind_eq_ok h
  cases h
  exact ((((Frame.Built.blank 2 1).internLink hfirst).internLink hsecond).set 0 0 _).set 1 0 _

/-- The addresses are entered in the other order for the second frame. -/
theorem render_unchanged_exchanged_numbers :
    ∃ f g s stats, linkedSpaces "a" "b" 1 2 = .ok f ∧ linkedSpaces "b" "a" 2 1 = .ok g ∧
      f.links ≠ g.links ∧
        (start {} .unbounded).render f {} (some { x := 0, y := 0 }) = .ok (s, stats) ∧
          s.render g {} (some { x := 0, y := 0 }) = .ok ({ s with previous := some g }, {}) := by
  have hall : (do
      let f ← linkedSpaces "a" "b" 1 2
      let g ← linkedSpaces "b" "a" 2 1
      let _ ← (start {} .unbounded).render f {} (some { x := 0, y := 0 })
      return decide (f.LooksLike g ∧ f.ResolvesLinks ∧ g.ResolvesLinks ∧ f.links ≠ g.links)
      : Except Failure Bool) = .ok true := by decide +kernel
  obtain ⟨f, hf, hall⟩ := exists_of_bind_eq_ok hall
  obtain ⟨g, hg, hall⟩ := exists_of_bind_eq_ok hall
  obtain ⟨⟨s, stats⟩, hs, hall⟩ := exists_of_bind_eq_ok hall
  obtain ⟨hsame, hlinks, hlinks', hne⟩ := of_decide_eq_true (Except.ok.inj hall)
  exact ⟨f, g, s, stats, hf, hg, hne, hs,
    render_unchanged (built_linkedSpaces hf) hsame hlinks hlinks' hs⟩

end Session

end CellCanvas
