import CellCanvas.Proofs.Paint.Validity
import CellCanvas.Proofs.Paint.WordRect

/-!
# The clip between pushes and pops

The clips of a painter are kept in a slice of the caller, which may hold anything when painting
starts, as rectangles in machine words below a cursor. A run of pushes and pops on such a slice
never overflows and is the run on the stack of the painter. In both, the clip admits the points that
the grid and all open rectangles have in common, and a pop returns to the clip before its push.
-/

namespace CellCanvas

/-- A request to narrow the clip or to return to the one before. -/
inductive ClipCall where
  | push (r : WordRect)
  | pop

namespace Painter

/-- How many clips are in force; the bounds of the grid count as one. -/
def depth (p : Painter) : Nat := p.clips.depth

/-- Serve a request. One that fails leaves the painter as it was. -/
def serve (p : Painter) : ClipCall → Except Failure Unit × Painter
  | .push r =>
    match p.pushClip r.exact with
    | .ok q => (.ok (), q)
    | .error e => (.error e, p)
  | .pop =>
    match p.popClip with
    | .ok q => (.ok (), q)
    | .error e => (.error e, p)

/-- Serve requests in turn. -/
def serveAll (p : Painter) : List ClipCall → List (Except Failure Unit) × Painter
  | [] => ([], p)
  | call :: calls =>
    let (answer, q) := p.serve call
    let (answers, r) := q.serveAll calls
    (answer :: answers, r)

/-- Serve requests of which none leaves fewer than `floor` clips. -/
def StaysAbove (floor : Nat) : Painter → List ClipCall → Prop
  | _, [] => True
  | p, call :: calls => floor ≤ (p.serve call).2.depth ∧ StaysAbove floor (p.serve call).2 calls

end Painter

/-- The rectangles that are still open, innermost first, after requests and their answers. -/
def openRects (rects : List WordRect) : List (ClipCall × Except Failure Unit) → List WordRect
  | [] => rects
  | (.push r, .ok _) :: served => openRects (r :: rects) served
  | (.pop, .ok _) :: served => openRects rects.tail served
  | (_, .error _) :: served => openRects rects served

/-- A slice of the caller with the clips in it: the entries below `depth` are in force, those above
are left over from earlier. -/
structure ClipSlice where
  bounds : WordRect
  entries : Array WordRect
  depth : Nat

namespace ClipSlice

/-- The first entry becomes the bounds. -/
def start (bounds : WordRect) (entries : Array WordRect) : Except Failure ClipSlice :=
  if entries.size = 0 then .error (.invalid .noClipCapacity)
  else .ok ⟨bounds, entries.setIfInBounds 0 bounds, 1⟩

/-- The effective clip. -/
def clip? (t : ClipSlice) : Option WordRect :=
  if t.depth = 0 then none else t.entries[t.depth - 1]?

/-- Serve a request, if no computation overflows. -/
def serve? (t : ClipSlice) : ClipCall → Option (Except Failure Unit × ClipSlice)
  | .push r =>
    if t.entries.size ≤ t.depth then some (.error (.limit .clipStackFull), t)
    else do
      let next ← (← t.bounds.inter? r).inter? (← t.clip?)
      return (.ok (), { t with
        entries := t.entries.setIfInBounds t.depth next
        depth := t.depth + 1 })
  | .pop =>
    if t.depth ≤ 1 then some (.error (.limit .clipStackBase), t)
    else some (.ok (), { t with depth := t.depth - 1 })

/-- Serve requests in turn, if no computation overflows. -/
def serveAll? (t : ClipSlice) : List ClipCall → Option (List (Except Failure Unit) × ClipSlice)
  | [] => some ([], t)
  | call :: calls => do
    let (answer, u) ← t.serve? call
    let (answers, v) ← u.serveAll? calls
    return (answer :: answers, v)

end ClipSlice

namespace Frame

/-- The whole grid in machine words. -/
def wordBounds (f : Frame) : WordRect := ⟨0, 0, Int32.ofNat f.width, Int32.ofNat f.height⟩

theorem exact_wordBounds (f : Frame) : f.wordBounds.exact = f.bounds := by
  have hwidth : f.width < 65536 := f.width_lt
  have hheight : f.height < 65536 := f.height_lt
  simp only [wordBounds, WordRect.exact, bounds, Int32.toInt_zero,
    Int32.toInt_ofNat_of_lt (show f.width < 2 ^ 31 by omega),
    Int32.toInt_ofNat_of_lt (show f.height < 2 ^ 31 by omega)]

end Frame

namespace ClipStack

/-- The clips that nested rectangles leave of the bounds, innermost first. -/
def nested (bounds : Rect) : List WordRect → List Rect
  | [] => []
  | r :: rects =>
    let outer := nested bounds rects
    (bounds.inter r.exact).inter (outer.headD bounds) :: outer

theorem length_nested (bounds : Rect) (rects : List WordRect) :
    (nested bounds rects).length = rects.length := by
  induction rects with
  | nil => rfl
  | cons r rects ih => rw [nested, List.length_cons, List.length_cons, ih]

theorem tail_nested (bounds : Rect) (rects : List WordRect) :
    nested bounds rects.tail = (nested bounds rects).tail := by
  cases rects <;> rfl

/-- The innermost clip admits what the bounds and all rectangles have in common. -/
theorem contains_nested (bounds : Rect) (rects : List WordRect) (px py : Int) :
    ((nested bounds rects).headD bounds).contains px py = true ↔
      bounds.contains px py = true ∧ ∀ r ∈ rects, r.exact.contains px py = true := by
  induction rects with
  | nil => simp [nested]
  | cons r rects ih =>
    rw [nested, List.headD_cons, Rect.contains_inter, Rect.contains_inter, Bool.and_eq_true,
      Bool.and_eq_true, ih, List.forall_mem_cons]
    tauto

variable {s : ClipStack}

theorem push_of_lt (h : s.depth < s.capacity) (r : Rect) :
    ∃ t, s.push r = .ok t ∧ t.bounds = s.bounds ∧ t.capacity = s.capacity ∧
      t.pushed = (s.bounds.inter r).inter s.top :: s.pushed :=
  ⟨_, dif_pos h, rfl, rfl, rfl⟩

theorem push_of_le (h : s.capacity ≤ s.depth) (r : Rect) :
    s.push r = .error (.limit .clipStackFull) :=
  dif_neg (Nat.not_lt.mpr h)

theorem pop_of_lt (h : 1 < s.depth) :
    ∃ t, s.pop = .ok t ∧ t.bounds = s.bounds ∧ t.capacity = s.capacity ∧
      t.pushed = s.pushed.tail := by
  unfold pop
  split
  · rename_i hnil
    simp [depth, hnil] at h
  · rename_i hcons
    exact ⟨_, rfl, rfl, rfl, (congrArg List.tail hcons).symm⟩

theorem pop_of_le (h : s.depth ≤ 1) : s.pop = .error (.limit .clipStackBase) := by
  unfold pop
  split
  · rfl
  · rename_i hcons
    simp [depth, hcons] at h

end ClipStack

/-- The open rectangles after one more answer. -/
theorem openRects_cons (rects : List WordRect) (s : ClipCall × Except Failure Unit)
    (served : List (ClipCall × Except Failure Unit)) :
    openRects rects (s :: served) = openRects (openRects rects [s]) served := by
  obtain ⟨_ | _, _ | _⟩ := s <;> rfl

/-- One answer takes away at most the innermost rectangle. -/
theorem suffix_openRects {outer rects : List WordRect} (h : outer <:+ rects)
    (s : ClipCall × Except Failure Unit) (hlength : outer.length ≤ (openRects rects [s]).length) :
    outer <:+ openRects rects [s] := by
  obtain ⟨r | _, _ | _⟩ := s
  · exact h
  · exact h.trans (List.suffix_cons r rects)
  · exact h
  · cases rects with
    | nil => exact h
    | cons r rects =>
      rcases List.suffix_cons_iff.mp h with rfl | h
      · simp [openRects] at hlength
      · exact h

namespace Painter

variable {f : Frame} {p : Painter} {rects : List WordRect} {capacity : Nat}

/-- All that a request can do. -/
inductive Serves (p : Painter) : ClipCall → Except Failure Unit × Painter → Prop
  | pushed {r : WordRect} {q : Painter} : p.depth < p.clips.capacity → q.frame = p.frame →
      q.clips.bounds = p.clips.bounds → q.clips.capacity = p.clips.capacity →
      q.clips.pushed = (p.clips.bounds.inter r.exact).inter p.clip :: p.clips.pushed →
      Serves p (.push r) (.ok (), q)
  | full {r : WordRect} : p.clips.capacity ≤ p.depth →
      Serves p (.push r) (.error (.limit .clipStackFull), p)
  | popped {q : Painter} : 1 < p.depth → q.frame = p.frame → q.clips.bounds = p.clips.bounds →
      q.clips.capacity = p.clips.capacity → q.clips.pushed = p.clips.pushed.tail →
      Serves p .pop (.ok (), q)
  | base : p.depth ≤ 1 → Serves p .pop (.error (.limit .clipStackBase), p)

theorem serves (p : Painter) (call : ClipCall) : p.Serves call (p.serve call) := by
  cases call with
  | push r =>
    rcases Nat.lt_or_ge p.depth p.clips.capacity with hroom | hfull
    · obtain ⟨clips, hpush, hbounds, hcapacity, hpushed⟩ := ClipStack.push_of_lt hroom r.exact
      rw [serve, pushClip, hpush]
      exact .pushed hroom rfl hbounds hcapacity hpushed
    · rw [serve, pushClip, ClipStack.push_of_le hfull]
      exact .full hfull
  | pop =>
    rcases Nat.lt_or_ge 1 p.depth with hnested | hbase
    · obtain ⟨clips, hpop, hbounds, hcapacity, hpushed⟩ := ClipStack.pop_of_lt hnested
      rw [serve, popClip, hpop]
      exact .popped hnested rfl hbounds hcapacity hpushed
    · rw [serve, popClip, ClipStack.pop_of_le hbase]
      exact .base hbase

theorem serve_of_error {call : ClipCall} {e : Failure} (h : (p.serve call).1 = .error e) :
    (p.serve call).2 = p := by
  have hserves := p.serves call
  generalize p.serve call = served at h hserves ⊢
  cases hserves with
  | pushed => cases h
  | full => rfl
  | popped => cases h
  | base => rfl

/-- A painter of a frame whose stack holds the clips of nested rectangles. -/
structure Nests (p : Painter) (f : Frame) (capacity : Nat) (rects : List WordRect) : Prop where
  frame : p.frame = f
  bounds : p.clips.bounds = f.bounds
  capacity : p.clips.capacity = capacity
  pushed : p.clips.pushed = ClipStack.nested f.bounds rects

namespace Nests

theorem depth_eq (h : p.Nests f capacity rects) : p.depth = rects.length + 1 := by
  rw [depth, ClipStack.depth, h.pushed, ClipStack.length_nested]

theorem depth_le (h : p.Nests f capacity rects) : p.depth ≤ capacity := by
  rw [← h.capacity]
  exact p.clips.fits

theorem clip_eq (h : p.Nests f capacity rects) :
    p.clip = (ClipStack.nested f.bounds rects).headD f.bounds := by
  rw [clip, ClipStack.top, h.pushed, h.bounds]

/-- The clip lies in the grid of the frame. -/
theorem inside (h : p.Nests f capacity rects) {px py : Int} (hin : p.clip.contains px py = true) :
    0 ≤ px ∧ 0 ≤ py ∧ px < f.width ∧ py < f.height := by
  rw [h.clip_eq, ClipStack.contains_nested, Rect.contains_iff] at hin
  simp only [Frame.bounds] at hin
  omega

theorem answer_push (h : p.Nests f capacity rects) (r : WordRect) :
    (p.serve (.push r)).1 =
      if p.depth = capacity then .error (.limit .clipStackFull) else .ok () := by
  have hle := h.depth_le
  rw [← h.capacity] at hle ⊢
  have hserves := p.serves (.push r)
  generalize p.serve (.push r) = served at hserves ⊢
  cases hserves with
  | pushed hroom => rw [if_neg hroom.ne]
  | full hfull => rw [if_pos (Nat.le_antisymm hle hfull)]

theorem answer_pop (h : p.Nests f capacity rects) :
    (p.serve .pop).1 = if p.depth = 1 then .error (.limit .clipStackBase) else .ok () := by
  have hdepth := h.depth_eq
  have hserves := p.serves .pop
  generalize p.serve .pop = served at hserves ⊢
  cases hserves with
  | popped hnested => rw [if_neg hnested.ne']
  | base hbase => rw [if_pos (by omega)]

/-- The open rectangles follow the answers. -/
theorem serve (h : p.Nests f capacity rects) (call : ClipCall) :
    (p.serve call).2.Nests f capacity (openRects rects [(call, (p.serve call).1)]) := by
  have hserves := p.serves call
  generalize p.serve call = served at hserves ⊢
  cases hserves with
  | pushed _ hframe hbounds hcapacity hpushed =>
    refine ⟨hframe.trans h.frame, hbounds.trans h.bounds, hcapacity.trans h.capacity, ?_⟩
    rw [hpushed, h.bounds, h.clip_eq, h.pushed]
    rfl
  | popped _ hframe hbounds hcapacity hpushed =>
    refine ⟨hframe.trans h.frame, hbounds.trans h.bounds, hcapacity.trans h.capacity, ?_⟩
    rw [hpushed, h.pushed, ← ClipStack.tail_nested]
    rfl
  | full => exact h
  | base => exact h

theorem serveAll (h : p.Nests f capacity rects) (calls : List ClipCall) :
    (p.serveAll calls).2.Nests f capacity (openRects rects (calls.zip (p.serveAll calls).1)) := by
  induction calls generalizing p rects with
  | nil => exact h
  | cons call calls ih =>
    rw [Painter.serveAll, List.zip_cons_cons, openRects_cons]
    exact ih (h.serve call)

/-- While no request leaves fewer clips than there are, the rectangles that are open stay open. -/
theorem suffix_serveAll {outer : List WordRect} (h : p.Nests f capacity rects)
    (hsuffix : outer <:+ rects) {calls : List ClipCall}
    (hstays : StaysAbove (outer.length + 1) p calls) :
    ∃ rects', (p.serveAll calls).2.Nests f capacity rects' ∧ outer <:+ rects' := by
  induction calls generalizing p rects with
  | nil => exact ⟨rects, h, hsuffix⟩
  | cons call calls ih =>
    obtain ⟨hfloor, hstays⟩ := hstays
    have hnext := h.serve call
    rw [hnext.depth_eq] at hfloor
    exact ih hnext (suffix_openRects hsuffix _ (Nat.le_of_succ_le_succ hfloor)) hstays

end Nests

end Painter

namespace ClipSlice

variable {t : ClipSlice} {p : Painter} {entries : Array WordRect} {bounds : Rect}
  {pushed : List Rect}

/-- The entries from the first one up are the bounds and the clips, the innermost last. -/
def Stores (entries : Array WordRect) (bounds : Rect) : List Rect → Prop
  | [] => entries[0]?.map WordRect.exact = some bounds
  | clip :: outer =>
    entries[outer.length + 1]?.map WordRect.exact = some clip ∧ Stores entries bounds outer

theorem Stores.top (h : Stores entries bounds pushed) :
    entries[pushed.length]?.map WordRect.exact = some (pushed.headD bounds) := by
  cases pushed with
  | nil => exact h
  | cons clip outer => exact h.1

theorem Stores.tail (h : Stores entries bounds pushed) : Stores entries bounds pushed.tail := by
  cases pushed with
  | nil => exact h
  | cons clip outer => exact h.2

/-- Entries above the cursor are free. -/
theorem Stores.set (h : Stores entries bounds pushed) {n : Nat} (hn : pushed.length < n)
    (next : WordRect) : Stores (entries.setIfInBounds n next) bounds pushed := by
  induction pushed with
  | nil =>
    rw [Stores, Array.getElem?_setIfInBounds_ne (by simp at hn; omega)]
    exact h
  | cons clip outer ih =>
    rw [List.length_cons] at hn
    refine ⟨?_, ih h.2 (by omega)⟩
    rw [Array.getElem?_setIfInBounds_ne (by omega)]
    exact h.1

/-- The slice below the cursor is the stack of the painter. -/
structure Backs (t : ClipSlice) (p : Painter) : Prop where
  bounds : t.bounds.exact = p.clips.bounds
  capacity : t.entries.size = p.clips.capacity
  depth : t.depth = p.depth
  stores : Stores t.entries p.clips.bounds p.clips.pushed

theorem Backs.clip (h : t.Backs p) : t.clip?.map WordRect.exact = some p.clip := by
  have hdepth : t.depth = p.clips.pushed.length + 1 := h.depth
  rw [clip?, hdepth, if_neg (Nat.succ_ne_zero _)]
  exact h.stores.top

/-- The clip that a painter pushes is the one that the slice computes in words. -/
theorem Backs.next (h : t.Backs p) (r : WordRect) :
    ∃ narrowed clip next, t.bounds.inter? r = some narrowed ∧ t.clip? = some clip ∧
      narrowed.inter? clip = some next ∧
      next.exact = (p.clips.bounds.inter r.exact).inter p.clip := by
  obtain ⟨clip, hclip, hclip'⟩ := Option.map_eq_some_iff.mp h.clip
  obtain ⟨narrowed, hnarrowed, hnarrowed'⟩ := t.bounds.inter?_eq r
  obtain ⟨next, hnext, hnext'⟩ := narrowed.inter?_eq clip
  rw [hnarrowed', h.bounds, hclip'] at hnext'
  exact ⟨narrowed, clip, next, hnarrowed, hclip, hnext, hnext'⟩

/-- A request to the slice overflows nothing and has the answer and the effect it has on the
painter. -/
theorem Backs.serve (h : t.Backs p) (call : ClipCall) :
    ∃ u, t.serve? call = some ((p.serve call).1, u) ∧ u.Backs (p.serve call).2 := by
  have hdepth : t.depth = p.clips.pushed.length + 1 := h.depth
  have hserves := p.serves call
  generalize p.serve call = served at hserves ⊢
  cases hserves with
  | @pushed r q hroom _ hbounds hcapacity hpushed =>
    have hsize : t.depth < t.entries.size := by
      rw [h.capacity, h.depth]
      exact hroom
    obtain ⟨narrowed, clip, next, hnarrowed, hclip, hnext, hexact⟩ := h.next r
    refine ⟨⟨t.bounds, t.entries.setIfInBounds t.depth next, t.depth + 1⟩, ?_, ?_⟩
    · rw [serve?, if_neg (Nat.not_le.mpr hsize), hnarrowed, hclip]
      simp only [Option.bind_eq_bind, Option.bind_some, hnext]
      rfl
    · refine ⟨h.bounds.trans hbounds.symm, ?_, ?_, ?_⟩
      · rw [Array.size_setIfInBounds, hcapacity]
        exact h.capacity
      · rw [Painter.depth, ClipStack.depth, hpushed, List.length_cons, hdepth]
      · rw [hpushed, hbounds]
        refine ⟨?_, h.stores.set (by omega) next⟩
        rw [← hdepth, Array.getElem?_setIfInBounds_self_of_lt hsize]
        exact congrArg some hexact
  | full hfull =>
    rw [serve?, if_pos (by rw [h.capacity, h.depth]; exact hfull)]
    exact ⟨t, rfl, h⟩
  | @popped q hnested _ hbounds hcapacity hpushed =>
    rw [serve?, if_neg (by rw [h.depth]; omega)]
    refine ⟨_, rfl, h.bounds.trans hbounds.symm, h.capacity.trans hcapacity.symm, ?_, ?_⟩
    · rw [h.depth] at hdepth
      change t.depth - 1 = q.clips.pushed.length + 1
      rw [hpushed, List.length_tail, h.depth]
      omega
    · rw [hpushed, hbounds]
      exact h.stores.tail
  | base hbase =>
    rw [serve?, if_pos (by rw [h.depth]; exact hbase)]
    exact ⟨t, rfl, h⟩

theorem Backs.serveAll (h : t.Backs p) (calls : List ClipCall) :
    ∃ u, t.serveAll? calls = some ((p.serveAll calls).1, u) ∧ u.Backs (p.serveAll calls).2 := by
  induction calls generalizing t p with
  | nil => exact ⟨t, rfl, h⟩
  | cons call calls ih =>
    obtain ⟨u, hu, hbacks⟩ := h.serve call
    obtain ⟨v, hv, hbacks⟩ := ih hbacks
    refine ⟨v, ?_, hbacks⟩
    rw [serveAll?, hu]
    simp only [Option.bind_eq_bind, Option.bind_some, hv]
    rfl

end ClipSlice

namespace Painter

variable {f : Frame} {p q : Painter} {entries : Array WordRect}

/-- A painter and its slice start in agreement. -/
theorem exists_start (f : Frame) (hroom : 0 < entries.size) :
    ∃ p s, start f entries.size = .ok p ∧ ClipSlice.start f.wordBounds entries = .ok s ∧
      p.Nests f entries.size [] ∧ s.Backs p := by
  have hclips : ClipStack.start f.bounds entries.size = .ok ⟨f.bounds, [], entries.size, hroom⟩ :=
    dif_pos hroom
  refine ⟨⟨f, ⟨f.bounds, [], entries.size, hroom⟩⟩, _, ?_, if_neg (by omega), ?_, ?_⟩
  · rw [start, hclips]
    rfl
  · exact ⟨rfl, rfl, rfl, rfl⟩
  · refine ⟨f.exact_wordBounds, Array.size_setIfInBounds, rfl, ?_⟩
    rw [ClipSlice.Stores, Array.getElem?_setIfInBounds_self_of_lt hroom]
    exact congrArg some f.exact_wordBounds

/-- A pop returns to the clip before its push, whatever was pushed and popped in between. -/
theorem clip_serve_pop {capacity : Nat} {rects : List WordRect} (h : p.Nests f capacity rects)
    {r : WordRect} (hpush : p.serve (.push r) = (.ok (), q)) {inner : List ClipCall}
    (hstays : StaysAbove q.depth q inner) (hdepth : (q.serveAll inner).2.depth = q.depth) :
    ((q.serveAll inner).2.serve .pop).1 = .ok () ∧
      ((q.serveAll inner).2.serve .pop).2.clip = p.clip := by
  have hq := h.serve (.push r)
  rw [hpush] at hq
  change q.Nests f capacity (r :: rects) at hq
  rw [hq.depth_eq] at hstays hdepth
  obtain ⟨rects', hinner, hsuffix⟩ := hq.suffix_serveAll (List.suffix_refl _) hstays
  rw [hinner.depth_eq] at hdepth
  obtain rfl := hsuffix.eq_of_length (by omega)
  have hpop := hinner.serve .pop
  have hanswer := hinner.answer_pop
  rw [hinner.depth_eq, List.length_cons, if_neg (by omega)] at hanswer
  rw [hanswer] at hpop
  exact ⟨hanswer, by rw [hpop.clip_eq, h.clip_eq]; rfl⟩

/-- After any pushes and pops, of any rectangles, the clip is the part that the grid and the open
rectangles have in common. The slice of the caller holds it, whatever was in there before, and no
edge of it overflows. A push fails only on a full stack and a pop only on the bounds. -/
theorem clip_of_calls (f : Frame) (entries : Array WordRect) (hroom : 0 < entries.size)
    (calls : List ClipCall) :
    ∃ p s answers q t,
      start f entries.size = .ok p ∧ ClipSlice.start f.wordBounds entries = .ok s ∧
      p.serveAll calls = (answers, q) ∧ s.serveAll? calls = some (answers, t) ∧
      t.depth = q.depth ∧ t.clip?.map WordRect.exact = some q.clip ∧
      1 ≤ q.depth ∧ q.depth ≤ entries.size ∧
      (∀ r, (q.serve (.push r)).1 =
        if q.depth = entries.size then .error (.limit .clipStackFull) else .ok ()) ∧
      (q.serve .pop).1 = (if q.depth = 1 then .error (.limit .clipStackBase) else .ok ()) ∧
      (∀ call e, (q.serve call).1 = .error e → (q.serve call).2.clip = q.clip) ∧
      (∀ px py : Int32, t.clip?.bind (·.contains? px py) =
        some (f.bounds.contains px.toInt py.toInt &&
          (openRects [] (calls.zip answers)).all (·.exact.contains px.toInt py.toInt))) ∧
      ∀ r u, q.serve (.push r) = (.ok (), u) →
        ∀ inner, StaysAbove u.depth u inner → (u.serveAll inner).2.depth = u.depth →
          ((u.serveAll inner).2.serve .pop).1 = .ok () ∧
            ((u.serveAll inner).2.serve .pop).2.clip = q.clip := by
  obtain ⟨p, s, hp, hs, hnests, hbacks⟩ := exists_start f hroom
  obtain ⟨t, ht, hbacks⟩ := hbacks.serveAll calls
  have hnests := hnests.serveAll calls
  refine ⟨p, s, _, _, t, hp, hs, rfl, ht, hbacks.depth, hbacks.clip, ?_, hnests.depth_le, ?_, ?_,
    ?_, ?_, ?_⟩
  · rw [hnests.depth_eq]
    omega
  · intro r
    exact hnests.answer_push r
  · exact hnests.answer_pop
  · intro call e he
    rw [serve_of_error he]
  · intro px py
    obtain ⟨clip, hclip, hclip'⟩ := Option.map_eq_some_iff.mp hbacks.clip
    rw [hclip, Option.bind_some, clip.contains?_eq, hclip', hnests.clip_eq]
    refine congrArg some ?_
    rw [Bool.eq_iff_iff, ClipStack.contains_nested, Bool.and_eq_true, List.all_eq_true]
  · intro r u hpush inner hstays hdepth
    exact clip_serve_pop hnests hpush hstays hdepth

/-- Three columns and room for two clips: a rectangle that reaches far beyond the grid, one for
which there is no room, and one pop too many. -/
theorem clip_of_calls_extremes :
    ∃ p q answers, start (.blank 3 1) 2 = .ok p ∧
      p.serveAll [.pop, .push ⟨1, -1, 2147483647, 2147483647⟩, .push ⟨2, 0, 1, 1⟩] =
        (answers, q) ∧
      answers = [.error (.limit .clipStackBase), .ok (), .error (.limit .clipStackFull)] ∧
      q.depth = 2 ∧ q.clip = ⟨1, 0, 2, 1⟩ := by
  obtain ⟨p, s, answers, q, t, hp, -, hq, -⟩ :=
    clip_of_calls (.blank 3 1) #[⟨7, 7, 7, 7⟩, ⟨-5, 9, 0, 1⟩] (by decide)
      [.pop, .push ⟨1, -1, 2147483647, 2147483647⟩, .push ⟨2, 0, 1, 1⟩]
  refine ⟨p, q, answers, hp, hq, ?_⟩
  cases hp
  cases hq
  exact ⟨rfl, rfl, rfl⟩

end Painter

end CellCanvas
