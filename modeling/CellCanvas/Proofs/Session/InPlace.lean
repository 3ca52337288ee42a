import CellCanvas.Proofs.Session.Unbounded

/-!
# Rendering in place

A render with its whole effect. The frame is written into a buffer that is kept from frame to frame,
with a copy of the terminal state; what is written stays in the buffer also when the work is broken
off. Only after the bytes are appended does the session take over the state and the frame.
-/

namespace CellCanvas

/-- Work on a draft in place. Where it fails, the draft stays as it is then. -/
abbrev Drafting := ExceptT Failure (StateM Draft)

namespace Drafting

/-- A step that cannot fail. -/
def step (g : Draft → Draft) : Drafting Unit := fun d => (.ok (), g d)

/-- Break off when the draft has outgrown its budget. -/
def check (budget : Nat) : Drafting Unit := fun d =>
  (if budget < d.size then .error (.limit .frameBytes) else .ok (), d)

/-- Write some rows, with a check after each. -/
def eachRow (budget : Nat) (write : Draft → Nat → Draft) (rows : List Nat) : Drafting Unit :=
  rows.forM fun y => do
    step (write · y)
    check budget

/-- Clear the screen and write every row. -/
def redraw (caps : Capabilities) (f : Frame) (budget : Nat) : Drafting Unit := do
  step Draft.wiped
  eachRow budget (Session.wholeRow caps f) (List.range f.height)

/-- Let the terminal shift rows, and write the rows that the shift leaves blank. -/
def shift (caps : Capabilities) (f : Frame) (budget : Nat) (plan : ScrollPlan) :
    Drafting Unit := do
  step fun d => { d with stats := { d.stats with scrollHit := true } }
  step (Draft.scrolled plan)
  step (plan.exposedRows.foldl (Session.wholeRow caps f))
  check budget

/-- Write the spans of some rows. -/
def updateRows (caps : Capabilities) (budget : Nat) (c : Comparison) (rows : List Nat) :
    Drafting Unit :=
  eachRow budget (fun d y => d.writeRow caps c.next y (c.spans y)) rows

/-- Write the rows that differ, after a scroll if that is allowed and there is a worthwhile plan. -/
def update (caps : Capabilities) (scroll : Bool) (budget : Nat) (c : Comparison) : Drafting Unit :=
  let dirty := Session.dirtyRows c
  if dirty.isEmpty then pure ()
  else if scroll && caps.scrollRegion then do
    step Draft.attempted
    match Session.scrollPlan? c dirty.length with
    | some plan => do
      shift caps c.next budget plan
      updateRows caps budget c (dirty.filter fun y => !plan.covers y)
    | none => updateRows caps budget c dirty
  else updateRows caps budget c dirty

/-- An update when the retained frame has the size of the next one, else a full redraw. -/
def content (s : Session) (f : Frame) (caps : Capabilities) : Drafting Unit :=
  match s.previous with
  | some p =>
    if p.width = f.width ∧ p.height = f.height then
      update caps s.options.scrollOptimization s.options.maxFrameBytes (.of p f)
    else redraw caps f s.options.maxFrameBytes
  | none => redraw caps f s.options.maxFrameBytes

/-- The whole frame. -/
def frame (s : Session) (f : Frame) (caps : Capabilities) (cursor : Option CursorRequest) :
    Drafting Unit :=
  if f.width = 0 ∨ f.height = 0 then pure ()
  else do
    step fun d => if caps.synchronizedUpdate then d.emit .beginUpdate else d
    let opened ← get
    content s f caps
    step (Session.settled caps f cursor)
    step (Session.closed caps opened)
    step fun d => { d with stats := { d.stats with bytes := d.size } }

/-- What work in place ends with, when the same work as a function ends with a draft or fails: this
draft, or the same failure and any draft. -/
inductive Ends : Except Failure Draft → Except Failure Unit × Draft → Prop
  | done (d : Draft) : Ends (.ok d) (.ok (), d)
  | broken (e : Failure) (left : Draft) : Ends (.error e) (.error e, left)

/-- Work in place does the same as a function on drafts. -/
def Performs (work : Drafting Unit) (g : Draft → Except Failure Draft) : Prop :=
  ∀ d, Ends (g d) (work d)

theorem run_bind {α β : Type} (x : Drafting α) (next : α → Drafting β) (d : Draft) :
    (x >>= next) d = match x d with
      | (.ok a, after) => next a after
      | (.error e, after) => (.error e, after) := by
  simp only [bind, ExceptT.bind, ExceptT.mk, StateT.bind]
  rcases x d with ⟨_ | _, after⟩ <;> rfl

variable {work work' : Drafting Unit} {g g' : Draft → Except Failure Draft}

namespace Performs

theorem pure : Performs (pure ()) .ok := .done

theorem step (g : Draft → Draft) : Performs (step g) fun d => .ok (g d) := fun d => .done (g d)

theorem check (budget : Nat) : Performs (check budget) fun d => d.within budget := by
  intro d
  unfold Drafting.check Draft.within
  dsimp only
  split_ifs
  · exact .broken _ d
  · exact .done d

theorem bind (h : Performs work g) (h' : Performs work' g') :
    Performs (do work; work') fun d => g d >>= g' := by
  intro d
  have hwork := h d
  dsimp only
  rw [run_bind]
  generalize g d = result, work d = ended at hwork ⊢
  cases hwork with
  | done d' => exact h' d'
  | broken e left => exact .broken e left

theorem eachRow (budget : Nat) (write : Draft → Nat → Draft) (rows : List Nat) :
    Performs (eachRow budget write rows) fun d =>
      rows.foldlM (fun d y => (write d y).within budget) d := by
  induction rows with
  | nil => exact .pure
  | cons y rows ih => exact ((Performs.step (write · y)).bind (.check budget)).bind ih

theorem redraw (caps : Capabilities) (f : Frame) (budget : Nat) :
    Performs (redraw caps f budget) (Session.redraw caps f budget) :=
  (Performs.step Draft.wiped).bind (.eachRow budget _ _)

theorem shift (caps : Capabilities) (f : Frame) (budget : Nat) (plan : ScrollPlan) :
    Performs (shift caps f budget plan) (Session.shift caps f budget plan) :=
  (Performs.step _).bind ((Performs.step _).bind ((Performs.step _).bind (.check budget)))

theorem update (caps : Capabilities) (scroll : Bool) (budget : Nat) (c : Comparison) :
    Performs (update caps scroll budget c) (Session.update caps scroll budget c) := by
  have hrows (rows : List Nat) : Performs (updateRows caps budget c rows)
      (Session.updateRows caps budget c rows) := .eachRow budget _ rows
  intro d
  unfold Drafting.update Session.update
  rw [← Session.dirtyRows]
  dsimp only
  split_ifs
  · exact .done d
  · cases Session.scrollPlan? c (Session.dirtyRows c).length with
    | none => exact (Performs.step Draft.attempted).bind (hrows _) d
    | some plan =>
      exact (Performs.step Draft.attempted).bind
        ((Performs.shift caps c.next budget plan).bind (hrows _)) d
  · exact hrows _ d

end Performs

theorem ends_content (s : Session) (f : Frame) (caps : Capabilities) :
    Ends (s.content f caps) (content s f caps (Session.opened caps s.state)) := by
  unfold content Session.content
  cases s.previous with
  | none => exact Performs.redraw caps f _ _
  | some p =>
    dsimp only
    split_ifs
    · exact Performs.update caps _ _ _ _
    · exact Performs.redraw caps f _ _

/-- Written in place, a frame ends as its draft, or fails for the same reason. -/
theorem ends_frame (s : Session) (f : Frame) (caps : Capabilities)
    (cursor : Option CursorRequest) :
    Ends (s.draft f caps cursor) (frame s f caps cursor (.start s.state)) := by
  by_cases hempty : f.width = 0 ∨ f.height = 0
  · rw [Session.draft_of_empty hempty, frame, if_pos hempty]
    exact .done _
  · have hcontent := ends_content s f caps
    rw [Session.draft_eq hempty, frame, if_neg hempty, run_bind]
    change Ends _ ((content s f caps >>= _) (Session.opened caps s.state))
    rw [run_bind]
    generalize s.content f caps = result, content s f caps (Session.opened caps s.state) = ended
      at hcontent ⊢
    cases hcontent with
    | done d => exact .done _
    | broken e left => exact .broken e left

end Drafting

/-- A session with the buffer that it writes frames into. -/
structure Desk where
  session : Session
  buffer : ByteArray

namespace Session

/-- Append bytes that fit the budget of the session and the output. -/
def commit (s : Session) (bytes : ByteArray) : Except Failure Unit × Session :=
  if s.options.maxFrameBytes < bytes.size then (.error (.limit .frameBytes), s)
  else match s.output.append bytes with
    | .error e => (.error e, s)
    | .ok output => (.ok (), { s with output })

end Session

namespace Desk

/-- One render: the answer, and session and buffer after it. Whatever the answer, the buffer has
what was written. The state and the frame are taken over after the bytes are appended. -/
def attempt (r : Desk) (f : Frame) (caps : Capabilities) (cursor : Option CursorRequest) :
    Except Failure RenderStats × Desk :=
  let (built, d) := Drafting.frame r.session f caps cursor (.start r.session.state)
  let written := (Command.encodeAll d.commands.toList).toUTF8
  let (committed, s) : Except Failure Unit × Session := match built with
    | .error e => (.error e, r.session)
    | .ok () => r.session.commit written
  let r : Desk := { session := s, buffer := written }
  match committed with
  | .error e => (.error e, r)
  | .ok () =>
    let r := { r with session := { r.session with state := d.state } }
    let r := { r with session := { r.session with previous := some f } }
    (.ok d.stats, r)

/-- A render in place is the render of the session, if the size of its draft is that of the bytes: a
render that fails leaves the session as it was. -/
theorem attempt_eq_render {r : Desk} {f : Frame} {caps : Capabilities}
    {cursor : Option CursorRequest}
    (h : ∀ d, r.session.draft f caps cursor = .ok d →
      (Command.encodeAll d.commands.toList).toUTF8.size = d.size) :
    ∃ written, r.attempt f caps cursor = match r.session.render f caps cursor with
      | .ok (s, stats) => (.ok stats, ⟨s, written⟩)
      | .error e => (.error e, ⟨r.session, written⟩) := by
  have hends := Drafting.ends_frame r.session f caps cursor
  unfold attempt
  rw [Session.render_eq_bind]
  generalize r.session.draft f caps cursor = result,
    Drafting.frame r.session f caps cursor (.start r.session.state) = ended at h hends ⊢
  cases hends with
  | broken e left => exact ⟨_, rfl⟩
  | done d =>
    have hsize := h d rfl
    have hwithin : (Except.ok d >>= fun d : Draft => d.within r.session.options.maxFrameBytes) =
        d.within r.session.options.maxFrameBytes := rfl
    dsimp only
    rw [hwithin, Session.commit, Draft.within, hsize]
    by_cases hbudget : r.session.options.maxFrameBytes < d.size
    · rw [if_pos hbudget, if_pos hbudget]
      exact ⟨_, rfl⟩
    · rw [if_neg hbudget, if_neg hbudget, bind_of_eq_ok rfl]
      cases r.session.output.append (Command.encodeAll d.commands.toList).toUTF8 with
      | error e => exact ⟨_, rfl⟩
      | ok output => exact ⟨_, rfl⟩

end Desk

end CellCanvas
