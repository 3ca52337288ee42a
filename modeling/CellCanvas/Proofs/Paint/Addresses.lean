import CellCanvas.Proofs.Paint.Validity
import CellCanvas.Proofs.Session.Sizes

/-!
# The addresses of a frame

The link table of a frame only changes where an address is entered, which refuses a long one and
finds a known one, and where a table is forgotten or taken over as a whole. Drawing, resizing and
storing cells leave it as it is. So every frame has the short addresses that the size of its output
depends on, and never the same address twice.
-/

namespace CellCanvas

namespace Frame

variable {f : Frame} {x y : Nat} {c : Cell}

theorem links_detach (s : Style) : (f.detach x y s).links = f.links := by
  unfold detach
  dsimp only
  split_ifs <;> simp only [links_set]

theorem links_writeNarrow : (f.writeNarrow x y c).links = f.links := by
  unfold writeNarrow
  split_ifs
  · rw [links_set, links_detach]
  · rfl

theorem links_writeWide : (f.writeWide x y c).links = f.links := by
  unfold writeWide
  dsimp only
  split_ifs
  · rfl
  · rw [links_set, links_set, links_writeNarrow, links_writeNarrow]
  · exact links_writeNarrow

theorem links_resize (width height : UInt16) : (f.resize width height).links = f.links := by
  unfold resize
  split_ifs <;> rfl

theorem linkFault?_eq_none_iff {uri : String} :
    linkFault? uri = none ↔
      uri ≠ "" ∧ uri.utf8ByteSize ≤ maxLinkBytes ∧ isSafeText uri = true := by
  unfold linkFault?
  split_ifs with hempty hlong hunsafe
  · simp_all
  · simp only [false_iff]
    omega
  · simp_all
  · simp_all

/-- All the ways in which an address can be entered. -/
inductive Entering (f : Frame) (uri : String) : Except Failure (Frame × ℕ) → Prop
  | unfit {e : Failure} : linkFault? uri = some e → Entering f uri (.error e)
  | known {i : ℕ} :
      linkFault? uri = none → f.links[i]? = some uri → Entering f uri (.ok (f, i + 1))
  | new {g : Frame} : linkFault? uri = none → uri ∉ f.links → f.links.size < maxLinks →
      g.links = f.links.push uri → Entering f uri (.ok (g, f.links.size + 1))
  | full : linkFault? uri = none → uri ∉ f.links → maxLinks ≤ f.links.size →
      Entering f uri (.error (.limit .linkTable))

theorem entering (f : Frame) (uri : String) : Entering f uri (f.internLink uri) := by
  unfold internLink
  split
  · exact .unfit ‹_›
  · rename_i hfault
    cases hfound : f.links.findIdx? (· = uri) with
    | some i =>
      obtain ⟨hi, huri, _⟩ := Array.findIdx?_eq_some_iff_getElem.mp hfound
      exact .known hfault (Array.getElem?_eq_some_iff.mpr ⟨hi, by simpa using huri⟩)
    | none =>
      have hnew : uri ∉ f.links := by
        intro hmem
        simpa using Array.findIdx?_eq_none_iff.mp hfound uri hmem
      dsimp only
      split_ifs with hroom
      · exact .new hfault hnew hroom rfl
      · exact .full hfault hnew (Nat.le_of_not_lt hroom)

/-- An address that is entered is known already, or it is fit to be a link and becomes the last
one of the table. -/
theorem links_internLink {g : Frame} {uri : String} {id : Nat}
    (hok : f.internLink uri = .ok (g, id)) :
    g.links = f.links ∨
      linkFault? uri = none ∧ uri ∉ f.links ∧ g.links = f.links.push uri := by
  have hentering := f.entering uri
  rw [hok] at hentering
  cases hentering with
  | known _ _ => exact Or.inl rfl
  | new hfit hnew _ hpush => exact Or.inr ⟨hfit, hnew, hpush⟩

theorem utf8ByteSize_le_of_linkFault?_eq_none {uri : String} (h : linkFault? uri = none) :
    uri.utf8ByteSize ≤ maxLinkBytes :=
  (linkFault?_eq_none_iff.mp h).2.1

end Frame

namespace Painter

theorem links_place (p : Painter) (x y : Int) (c : Cell) :
    (p.place x y c).frame.links = p.frame.links := by
  unfold place
  cases p.touch? x y with
  | none => rfl
  | some position =>
    dsimp only
    split_ifs
    · exact Frame.links_writeWide
    · rfl
    · exact Frame.links_writeNarrow

/-- A painter pass leaves the link table as it is. -/
theorem links_of_steps {f : Frame} {capacity : Nat} {p q : Painter}
    (hstart : start f capacity = .ok p) (hsteps : Relation.ReflTransGen Step p q) :
    q.frame.links = f.links := by
  have hplacing : KeepsPlacing fun g => g.links = f.links := by
    intro p x y c _ hp
    rwa [links_place]
  apply hplacing.steps hsteps
  rw [frame_start hstart]

end Painter

namespace Frame

/-- The frames that can be made from blank ones, cells stored directly included. -/
inductive Built : Frame → Prop
  | blank (width height : UInt16) : Built (.blank width height)
  | clear {f : Frame} (s : Style) : Built f → Built (f.clear s)
  | resize {f : Frame} (width height : UInt16) : Built f → Built (f.resize width height)
  | copyFrom {f g : Frame} : Built f → Built g → Built (f.copyFrom g)
  | internLink {f g : Frame} {uri : String} {id : Nat} :
      Built f → f.internLink uri = .ok (g, id) → Built g
  | resetLinks {f : Frame} : Built f → Built f.resetLinks
  | set {f : Frame} (x y : Nat) (c : Cell) : Built f → Built (f.set x y c)
  | paint {f : Frame} {capacity : Nat} {p q : Painter} :
      Built f → Painter.start f capacity = .ok p → Relation.ReflTransGen Painter.Step p q →
      Built q.frame

/-- What holds of the empty table, and of a table that a new address is entered in, holds of the
table of every frame. -/
theorem Built.links_induction (P : Array String → Prop) (empty : P #[])
    (push : ∀ links uri, P links → linkFault? uri = none → uri ∉ links → P (links.push uri))
    {f : Frame} (h : Built f) : P f.links := by
  induction h with
  | blank width height => exact empty
  | clear s _ ih => exact ih
  | resize width height _ ih => rwa [links_resize]
  | copyFrom _ _ _ ih => exact ih
  | internLink _ hlink ih =>
    rcases links_internLink hlink with hsame | ⟨hfault, hnew, hpush⟩
    · rwa [hsame]
    · rw [hpush]
      exact push _ _ ih hfault hnew
  | resetLinks _ ih => exact empty
  | set x y c _ ih => rwa [links_set]
  | paint _ hstart hsteps ih => rwa [Painter.links_of_steps hstart hsteps]

/-- No frame has a long address, whatever is stored in its cells. -/
theorem Built.hasShortLinks {f : Frame} (h : Built f) : f.HasShortLinks := by
  apply h.links_induction fun links => ∀ uri ∈ links, uri.utf8ByteSize ≤ maxLinkBytes
  · nofun
  · intro links uri hshort hfault _ u hu
    rcases Array.mem_push.mp hu with hu | rfl
    · exact hshort u hu
    · exact utf8ByteSize_le_of_linkFault?_eq_none hfault

/-- No frame has the same address twice, so the addresses tell the numbers apart. -/
theorem Built.nodup_links {f : Frame} (h : Built f) : f.links.toList.Nodup := by
  apply h.links_induction fun links => links.toList.Nodup
  · exact List.nodup_nil
  · intro links uri hnodup _ hnew
    rw [Array.toList_push]
    exact hnodup.append (List.nodup_singleton uri) (by simpa using hnew)

end Frame

end CellCanvas
