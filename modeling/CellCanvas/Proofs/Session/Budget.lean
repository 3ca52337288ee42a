import CellCanvas.Proofs.Session.InPlace
import CellCanvas.Proofs.Session.Sizes

/-!
# Budgets

A render that fits its budget and its output is the one that a session without limits does, and a
render that does not fit changes nothing. The checks on the way refuse nothing that would fit in the
end. Without limits every render succeeds, since no frame has more bytes than can be counted.
-/

namespace CellCanvas

open Wire

theorem Command.size_encodeAll (cs : List Command) :
    (encodeAll cs).toUTF8.size = total (cs.map Command.size) := by
  rw [String.toUTF8_eq_toByteArray, String.size_toByteArray, encodeAll, utf8ByteSize_join,
    List.map_map]
  congr 1
  exact List.map_congr_left fun c _ => utf8ByteSize_join c.pieces

namespace Draft

/-- The size of a draft is that of its commands. -/
def IsMeasured (d : Draft) : Prop := d.size = total (d.commands.toList.map Command.size)

variable {kind : SgrStyle → Prop} {caps : Capabilities} {f : Frame} {n : Nat} {d start : Draft}

theorem Grows.isMeasured (h : d.Grows kind caps f n start) (hstart : start.IsMeasured) :
    d.IsMeasured := by
  obtain ⟨cs, hcs, hsize, -⟩ := h.added
  unfold IsMeasured at hstart ⊢
  rw [hcs, List.map_append, total_append, hsize, hstart]

theorem IsMeasured.emit (h : d.IsMeasured) (c : Command) : (d.emit c).IsMeasured := by
  unfold IsMeasured at h ⊢
  simp [Draft.emit, h]

/-- Each command has at most the size of the longest one. -/
theorem Grows.size_le_add (h : d.Grows kind caps f n start) (hlinks : f.HasShortLinks) :
    d.size ≤ start.size + Command.maxSize * n := by
  obtain ⟨cs, -, hsize, hlength, harises, -⟩ := h.added
  have hbound : ∀ n ∈ cs.map Command.size, n ≤ Command.maxSize := by
    intro n hn
    obtain ⟨c, hc, rfl⟩ := List.mem_map.mp hn
    exact (harises c hc).size_le hlinks
  have htotal := total_le _ hbound
  have hcount := Nat.mul_le_mul_left Command.maxSize hlength
  rw [List.length_map] at htotal
  omega

end Draft

namespace Session

variable {kind : SgrStyle → Prop} {caps : Capabilities} {f : Frame} {s : Session}
variable {cursor : Option CursorRequest}

theorem isMeasured_opened (caps : Capabilities) (st : TermState) : (opened caps st).IsMeasured := by
  have hstart : (Draft.start st).IsMeasured := rfl
  unfold opened
  split_ifs
  · exact hstart.emit .beginUpdate
  · exact hstart

theorem grows_settled (hkind : ∀ s, kind (caps.resolve s)) (hs : s.state.Suits kind caps)
    (hw : f.width ≠ 0) (hh : f.height ≠ 0) (cursor : Option CursorRequest) :
    (settled caps f cursor (s.body f caps)).Grows kind caps f (bodyCommands + 4)
      (opened caps s.state) :=
  (grows_body hkind hs).settled hw hh cursor

theorem suits_drafted (f : Frame) (cursor : Option CursorRequest)
    (hkind : ∀ s, kind (caps.resolve s)) (hs : s.state.Suits kind caps) :
    (s.drafted f caps cursor).state.Suits kind caps := by
  unfold drafted
  by_cases hempty : f.width = 0 ∨ f.height = 0
  · rw [if_pos hempty]
    exact hs
  · rw [if_neg hempty]
    obtain ⟨hw, hh⟩ := not_or.mp hempty
    dsimp only
    rw [state_closed]
    exact (grows_settled hkind hs hw hh cursor).suits

theorem link_drafted (f : Frame) (caps : Capabilities) (cursor : Option CursorRequest)
    (hlink : s.state.link = none) :
    (s.drafted f caps cursor).state.link = none := by
  unfold drafted
  split_ifs
  · exact hlink
  · dsimp only
    rw [state_closed]
    exact link_settled caps f cursor _

/-- The size of a draft is the number of its bytes. -/
theorem size_drafted (hkind : ∀ s, kind (caps.resolve s)) (hs : s.state.Suits kind caps) :
    (Command.encodeAll (s.drafted f caps cursor).commands.toList).toUTF8.size =
      (s.drafted f caps cursor).size := by
  rw [Command.size_encodeAll]
  unfold drafted
  by_cases hempty : f.width = 0 ∨ f.height = 0
  · rw [if_pos hempty]
    rfl
  · rw [if_neg hempty]
    obtain ⟨hw, hh⟩ := not_or.mp hempty
    have hsettled := (grows_settled hkind hs hw hh cursor).isMeasured
      (isMeasured_opened caps s.state)
    have hclosed : (closed caps (opened caps s.state)
        (settled caps f cursor (s.body f caps))).IsMeasured := by
      unfold closed
      split_ifs
      · rfl
      · exact hsettled.emit .endUpdate
      · exact hsettled
    exact hclosed.symm

/-- The bytes of a frame can be counted. -/
theorem size_drafted_le (hkind : ∀ s, kind (caps.resolve s)) (hs : s.state.Suits kind caps)
    (hlinks : f.HasShortLinks) : (s.drafted f caps cursor).size ≤ Size.largest := by
  unfold drafted
  by_cases hempty : f.width = 0 ∨ f.height = 0
  · rw [if_pos hempty]
    exact Nat.zero_le _
  · rw [if_neg hempty]
    obtain ⟨hw, hh⟩ := not_or.mp hempty
    have hsettled := (grows_settled hkind hs hw hh cursor).size_le_add hlinks
    have hopened : (opened caps s.state).size ≤ 8 := by
      unfold opened
      split_ifs
      · exact Nat.le_of_eq rfl
      · exact Nat.zero_le 8
    have hclosed : (closed caps (opened caps s.state)
        (settled caps f cursor (s.body f caps))).size ≤
          (settled caps f cursor (s.body f caps)).size + 8 := by
      unfold closed
      split_ifs
      · exact Nat.zero_le _
      · exact Nat.le_of_eq rfl
      · exact Nat.le_add_right _ _
    have hbound : Command.maxSize * (bodyCommands + 4) + 16 ≤ Size.largest := by decide
    dsimp only
    omega

/-- What has content is not dropped at the end of a frame. -/
theorem size_le_closed (caps : Capabilities) {start d : Draft} (h : start.size < d.size) :
    d.size ≤ (closed caps start d).size := by
  rw [closed, if_neg h.ne']
  split_ifs
  · exact Nat.le_add_right _ _
  · exact Nat.le_refl _

/-- The checks on the way refuse nothing that the last one would accept. -/
theorem draft_within (hkind : ∀ s, kind (caps.resolve s)) (hs : s.state.Suits kind caps)
    (hf : f.isValid = true) :
    (s.draft f caps cursor >>= fun d => d.within s.options.maxFrameBytes) =
      (s.drafted f caps cursor).within s.options.maxFrameBytes := by
  by_cases hempty : f.width = 0 ∨ f.height = 0
  · rw [draft_of_empty hempty, drafted, if_pos hempty]
    rfl
  · obtain ⟨hw, hh⟩ := not_or.mp hempty
    rw [draft_eq hempty, drafted, if_neg hempty]
    rcases content_cases hkind hs hh with ⟨hcontent, -⟩ | ⟨hcontent, hlt⟩
    · rw [hcontent]
      rfl
    · rw [hcontent]
      by_cases hlarge : s.options.maxFrameBytes < (s.body f caps).size
      · have hbody : (s.body f caps).size ≤ (settled caps f cursor (s.body f caps)).size :=
          ((Draft.Grows.refl (grows_body hkind hs).suits).settled hw hh cursor).size_le
        have hclosed := hbody.trans (size_le_closed caps ((hlt hf).trans_le hbody))
        rw [Draft.within, if_pos hlarge, Draft.within, if_pos (hlarge.trans_le hclosed)]
        rfl
      · rw [Draft.within, if_neg hlarge]
        rfl

/-- A render either does not fit or appends the draft without a budget. -/
theorem render_eq (hkind : ∀ s, kind (caps.resolve s)) (hs : s.state.Suits kind caps)
    (hf : f.isValid = true) :
    s.render f caps cursor =
      if s.options.maxFrameBytes < (s.drafted f caps cursor).size then
        .error (.limit .frameBytes)
      else if s.output.remaining < (s.drafted f caps cursor).size then .error (.limit .output)
      else .ok
        ({ s with
            output := s.output.push
              (Command.encodeAll (s.drafted f caps cursor).commands.toList).toUTF8
            previous := some f
            state := (s.drafted f caps cursor).state },
          (s.drafted f caps cursor).stats) := by
  rw [render_eq_bind, draft_within hkind hs hf, Draft.within]
  by_cases hbudget : s.options.maxFrameBytes < (s.drafted f caps cursor).size
  · rw [if_pos hbudget, if_pos hbudget]
    rfl
  · rw [if_neg hbudget, if_neg hbudget]
    by_cases hroom : s.output.remaining < (s.drafted f caps cursor).size
    · have hrefused : s.output.admits (s.drafted f caps cursor).size = false := by
        simpa [Output.admits] using hroom
      rw [if_pos hroom]
      change (s.output.append _ >>= _) = _
      rw [Output.append, size_drafted hkind hs, hrefused, if_neg Bool.false_ne_true]
      rfl
    · have hadmitted : s.output.admits (s.drafted f caps cursor).size = true := by
        simpa [Output.admits] using hroom
      rw [if_neg hroom]
      change (s.output.append _ >>= _) = _
      rw [Output.append, size_drafted hkind hs, if_pos hadmitted]
      rfl

/-- A session with another budget and another output. -/
def limited (s : Session) (budget : Nat) (output : Output) : Session :=
  { s with options := { s.options with maxFrameBytes := budget }, output }

/-- A session that counts bytes without end. -/
def unlimited (s : Session) : Session := s.limited Size.largest { s.output with limit := none }

end Session

/-- Something a caller does with a session: render a frame, force a redraw, or deliver or drop what
is pending. -/
inductive SessionCall where
  | render (frame : Frame) (caps : Capabilities) (cursor : Option CursorRequest)
  | forceRedraw
  | deliver (output : Output)

namespace Session

/-- What a session answers to a call. -/
def answer (s : Session) : SessionCall → Except Failure RenderStats
  | .render f caps cursor => (s.render f caps cursor).map Prod.snd
  | _ => .ok {}

/-- The session after a call. -/
def after (s : Session) : SessionCall → Session
  | .render f caps cursor => match s.render f caps cursor with
    | .ok (s', _) => s'
    | .error _ => s
  | .forceRedraw => s.forceRedraw
  | .deliver output => { s with output }

/-- The session after calls in order. -/
def run (s : Session) (calls : List SessionCall) : Session := calls.foldl after s

/-- What a caller sees of calls in order: the answers, and the sessions after them. -/
def trace (s : Session) : List SessionCall → List (Except Failure RenderStats × Session)
  | [] => []
  | call :: calls => (s.answer call, s.after call) :: (s.after call).trace calls

variable {s : Session}

/-- What is tracked between calls: no link is open, and the cursor is on the largest screen. -/
structure IsSettled (s : Session) : Prop where
  link : s.state.link = none
  cursor : ∀ x y, s.state.cursor = some (x, y) → x < sideBound ∧ y < sideBound

namespace IsSettled

/-- Which styles are tracked does not matter. -/
theorem suits (h : s.IsSettled) (caps : Capabilities) : s.state.Suits (fun _ => True) caps :=
  ⟨fun _ _ => trivial, fun _ => h.link, h.cursor⟩

theorem unlimited (h : s.IsSettled) : s.unlimited.IsSettled := ⟨h.link, h.cursor⟩

theorem after (h : s.IsSettled) (call : SessionCall) : (s.after call).IsSettled := by
  cases call with
  | forceRedraw => exact ⟨rfl, nofun⟩
  | deliver output => exact ⟨h.link, h.cursor⟩
  | render f caps cursor =>
    unfold Session.after
    dsimp only
    cases hok : s.render f caps cursor with
    | error failure => exact h
    | ok result =>
      obtain ⟨s', stats⟩ := result
      obtain ⟨d, hd, -, hstate, -⟩ := render_ok hok
      obtain rfl := draft_ok hd
      have hsuits := suits_drafted f cursor (fun _ => trivial) (h.suits caps)
      exact ⟨hstate ▸ link_drafted f caps cursor h.link, hstate ▸ hsuits.cursor⟩

theorem run (h : s.IsSettled) (calls : List SessionCall) : (s.run calls).IsSettled := by
  induction calls generalizing s with
  | nil => exact h
  | cons call calls ih => exact ih (h.after call)

end IsSettled

theorem isSettled_start (options : RenderOptions) (output : Output) :
    (start options output).IsSettled :=
  ⟨rfl, nofun⟩

/-- The bytes of a frame when nothing is refused. -/
def bytes (s : Session) (f : Frame) (caps : Capabilities) (cursor : Option CursorRequest) :
    ByteArray :=
  (Command.encodeAll (s.drafted f caps cursor).commands.toList).toUTF8

/-- The limits decide whether a render succeeds, and nothing else. -/
theorem render_limited (hs : s.IsSettled) {f : Frame} (hf : f.isValid = true) (caps : Capabilities)
    (cursor : Option CursorRequest) (budget : Nat) (out : Output) :
    (s.limited budget out).render f caps cursor =
      if budget < (s.bytes f caps cursor).size then .error (.limit .frameBytes)
      else if out.remaining < (s.bytes f caps cursor).size then .error (.limit .output)
      else .ok
        ({ s.limited budget out with
            output := out.push (s.bytes f caps cursor)
            previous := some f
            state := (s.drafted f caps cursor).state },
          (s.drafted f caps cursor).stats) := by
  have hkind (s : Style) : (fun _ : SgrStyle => True) (caps.resolve s) := trivial
  have hsize : (s.bytes f caps cursor).size = (s.drafted f caps cursor).size :=
    size_drafted hkind (hs.suits caps)
  rw [hsize]
  exact render_eq (s := s.limited budget out) hkind (hs.suits caps) hf

theorem size_bytes_le (hs : s.IsSettled) {f : Frame} (hlinks : f.HasShortLinks)
    (caps : Capabilities) (cursor : Option CursorRequest) :
    (s.bytes f caps cursor).size ≤ Size.largest := by
  have hkind (s : Style) : (fun _ : SgrStyle => True) (caps.resolve s) := trivial
  rw [bytes, size_drafted hkind (hs.suits caps)]
  exact size_drafted_le hkind (hs.suits caps) hlinks

/-- Without limits every frame is rendered. -/
theorem render_unlimited (hs : s.IsSettled) {f : Frame} (hf : f.isValid = true)
    (hlinks : f.HasShortLinks) (caps : Capabilities) (cursor : Option CursorRequest) :
    s.unlimited.render f caps cursor = .ok
      ({ s.unlimited with
          output := s.unlimited.output.push (s.bytes f caps cursor)
          previous := some f
          state := (s.drafted f caps cursor).state },
        (s.drafted f caps cursor).stats) := by
  have hlargest := Nat.not_lt.mpr (size_bytes_le hs hlinks caps cursor)
  have hroom : s.unlimited.output.remaining = Size.largest := rfl
  have hrender := render_limited hs hf caps cursor Size.largest s.unlimited.output
  rwa [if_neg hlargest, hroom, if_neg hlargest] at hrender

theorem previous_after_unlimited (hs : s.IsSettled) {f : Frame} (hf : f.isValid = true)
    (hlinks : f.HasShortLinks) {caps : Capabilities} {cursor : Option CursorRequest} :
    (s.unlimited.after (.render f caps cursor)).unlimited.previous = some f := by
  simp only [after, render_unlimited hs hf hlinks caps cursor]
  rfl

/-- A render in place is the render of the session. -/
theorem attempt_limited (hs : s.IsSettled) (f : Frame) (caps : Capabilities)
    (cursor : Option CursorRequest) (budget : Nat) (out : Output) (buffer : ByteArray) :
    ∃ written, Desk.attempt ⟨s.limited budget out, buffer⟩ f caps cursor =
      match (s.limited budget out).render f caps cursor with
      | .ok (s', stats) => (.ok stats, ⟨s', written⟩)
      | .error e => (.error e, ⟨s.limited budget out, written⟩) := by
  apply Desk.attempt_eq_render
  intro d hd
  obtain rfl := draft_ok hd
  exact size_drafted (s := s.limited budget out) (fun _ => trivial) (hs.suits caps)

/-- After any calls, a valid frame with short addresses, as every frame that is built has them
(`Frame.Built`), is rendered by a session without limits, and by one with a budget and an output
just when the bytes fit both. Then both sessions append the same bytes, and know and retain the
same. Otherwise the render is refused for its size, and all that follows is as if it had not been
asked for. A render that works in place has the same answer and leaves the same session, also when
it is broken off. -/
theorem render_law (options : RenderOptions) (output : Output) (calls : List SessionCall)
    (f : Frame) (caps : Capabilities) (cursor : Option CursorRequest) (valid : f.isValid = true)
    (links : f.HasShortLinks) :
    let s := (start options output).run calls
    (∀ budget out buffer, ∃ written,
      Desk.attempt ⟨s.limited budget out, buffer⟩ f caps cursor =
        match (s.limited budget out).render f caps cursor with
        | .ok (s', stats) => (.ok stats, ⟨s', written⟩)
        | .error e => (.error e, ⟨s.limited budget out, written⟩)) ∧
    ∃ u stats, s.unlimited.render f caps cursor = .ok (u, stats) ∧ ∀ budget out,
      if (s.unlimited.appended u).size ≤ budget ∧ (s.unlimited.appended u).size ≤ out.remaining then
        (s.limited budget out).render f caps cursor =
          .ok ({ s.limited budget out with
              output := out.push (s.unlimited.appended u)
              previous := u.previous
              state := u.state }, stats)
      else
        (∃ resource, (s.limited budget out).render f caps cursor = .error (.limit resource)) ∧
          ∀ later, ((s.limited budget out).after (.render f caps cursor)).trace later =
            (s.limited budget out).trace later := by
  intro s
  have hs : s.IsSettled := (isSettled_start options output).run calls
  refine ⟨attempt_limited hs f caps cursor, _, _, render_unlimited hs valid links caps cursor, ?_⟩
  intro budget out
  have happended (u : Session)
      (hu : u.output.pending = s.unlimited.output.pending ++ s.bytes f caps cursor) :
      s.unlimited.appended u = s.bytes f caps cursor := by
    rw [appended, hu]
    exact ByteArray.extract_append_eq_right rfl ByteArray.size_append
  have hrender := render_limited hs valid caps cursor budget out
  rw [happended _ rfl]
  by_cases hfits : (s.bytes f caps cursor).size ≤ budget ∧
      (s.bytes f caps cursor).size ≤ out.remaining
  · rw [if_pos hfits]
    rw [if_neg (Nat.not_lt.mpr hfits.1), if_neg (Nat.not_lt.mpr hfits.2)] at hrender
    exact hrender
  · rw [if_neg hfits]
    have hrefused : ∃ resource,
        (s.limited budget out).render f caps cursor = .error (.limit resource) := by
      by_cases hbudget : budget < (s.bytes f caps cursor).size
      · rw [if_pos hbudget] at hrender
        exact ⟨_, hrender⟩
      · rw [if_neg hbudget, if_pos (by omega)] at hrender
        exact ⟨_, hrender⟩
    refine ⟨hrefused, ?_⟩
    intro later
    obtain ⟨resource, herror⟩ := hrefused
    simp only [after, herror]

/-- The smallest budget for a frame of two spaces. -/
theorem render_law_two_spaces :
    (∃ resource, ((start {} .unbounded).limited 57 .unbounded).render (.blank 2 1) {} none =
      .error (.limit resource)) ∧
      ∃ u, ((start {} .unbounded).limited 58 .unbounded).render (.blank 2 1) {} none = .ok u := by
  have hsize : (((start {} .unbounded).run []).unlimited.render (.blank 2 1) {} none).toOption.map
      (fun r => (((start {} .unbounded).run []).unlimited.appended r.1).size) = some 58 := by
    decide +kernel
  obtain ⟨-, u, stats, hu, hlaw⟩ := render_law {} .unbounded [] (.blank 2 1) {} none
    (by decide +kernel) nofun
  rw [hu] at hsize
  have hbytes : (((start {} .unbounded).run []).unlimited.appended u).size = 58 :=
    Option.some.inj hsize
  have hsmall := hlaw 57 .unbounded
  have hlarge := hlaw 58 .unbounded
  rw [hbytes, if_neg (by decide)] at hsmall
  rw [hbytes, if_pos (by decide)] at hlarge
  exact ⟨hsmall.1, _, hlarge⟩

end Session

end CellCanvas
