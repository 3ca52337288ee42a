import CellCanvas.Proofs.Session.Budget
import CellCanvas.Proofs.Session.Grammar

/-!
# The text of a frame

A render that succeeds sends nothing or one frame. A frame starts and ends with the marks of a
synchronized update if the terminal knows them, and what stands between is in the grammar of the
terminal: it can be read in one way only, and no glyph and no address is read as anything else.
-/

namespace CellCanvas

open Wire

/-- A mark of a synchronized update, for terminals that know them. -/
def updateMark (caps : Capabilities) (final : Char) : List Token :=
  if caps.synchronizedUpdate then [.control ['?', '2', '0', '2', '6'] final] else []

theorem isComplete_updateMark (caps : Capabilities) {final : Char} (hfinal : isFinal final = true) :
    ∀ t ∈ updateMark caps final, t.IsComplete := by
  intro t ht
  unfold updateMark at ht
  split_ifs at ht
  · obtain rfl := List.mem_singleton.mp ht
    exact ⟨List.all_eq_true.mp (by decide), hfinal⟩
  · cases ht

/-- A text is one frame with these tokens between its start and its end. -/
structure IsFrameText (caps : Capabilities) (f : Frame) (text : List Char) (ts : List Token) :
    Prop where
  tokenized : IsTokenized text (updateMark caps 'h' ++ ts ++ updateMark caps 'l')
  nonempty : ts ≠ []
  supported : ∀ t ∈ ts, t.Supported caps f
  /-- Links are closed, and a scroll region is reset before the cursor moves. -/
  ordered : Phase.rest.readAll ts = some .rest

/-- Commands are written as their tokens are. -/
theorem Command.written_encodeAll (cs : List Command) :
    (cs.flatMap tokens).flatMap Token.written = (encodeAll cs).toList := by
  rw [encodeAll, String.toList_join, List.flatMap_map, List.flatMap_assoc]
  exact List.flatMap_congr fun c _ => written_tokens c

namespace Session

variable {kind : SgrStyle → Prop} {caps : Capabilities} {f : Frame} {s : Session}
variable {cursor : Option CursorRequest}

/-- The commands at the start of a frame. -/
theorem tokens_opened (caps : Capabilities) (st : TermState) :
    (opened caps st).commands.toList.flatMap Command.tokens = updateMark caps 'h' := by
  unfold opened updateMark
  split_ifs <;> rfl

/-- Either nothing is sent, or the commands of a frame between its start and its end. -/
theorem tokens_drafted (f : Frame) (cursor : Option CursorRequest)
    (hkind : ∀ s, kind (caps.resolve s)) (hs : s.state.Suits kind caps)
    (hlink : s.state.link = none) :
    (s.drafted f caps cursor).commands = #[] ∨ ∃ cs : List Command,
      (s.drafted f caps cursor).commands.toList.flatMap Command.tokens =
        updateMark caps 'h' ++ cs.flatMap Command.tokens ++ updateMark caps 'l' ∧
      total (cs.map Command.size) ≠ 0 ∧ (∀ c ∈ cs, c.Arises kind caps f) ∧
        Phase.rest.readAll (cs.flatMap Command.tokens) = some .rest := by
  unfold drafted
  by_cases hempty : f.width = 0 ∨ f.height = 0
  · rw [if_pos hempty]
    exact .inl rfl
  · rw [if_neg hempty]
    obtain ⟨hw, hh⟩ := not_or.mp hempty
    obtain ⟨cs, hcs, hsize, -, harises, hread⟩ := (grows_settled hkind hs hw hh cursor).added
    have hstart : (opened caps s.state).phase = .rest := by
      rw [Draft.phase, state_opened, hlink]
      rfl
    have hend : (settled caps f cursor (s.body f caps)).phase = .rest := by
      rw [Draft.phase, link_settled]
      rfl
    rw [hstart, hend] at hread
    dsimp only
    unfold closed
    by_cases hsame : (settled caps f cursor (s.body f caps)).size = (opened caps s.state).size
    · rw [if_pos hsame]
      exact .inl rfl
    · rw [if_neg hsame]
      refine .inr ⟨cs, ?_, by omega, harises, hread⟩
      have htokens : (settled caps f cursor (s.body f caps)).commands.toList.flatMap
          Command.tokens = updateMark caps 'h' ++ cs.flatMap Command.tokens := by
        rw [hcs, List.flatMap_append, tokens_opened]
      by_cases hsync : caps.synchronizedUpdate = true
      · have hmark : updateMark caps 'l' = [.control ['?', '2', '0', '2', '6'] 'l'] :=
          if_pos hsync
        rw [if_pos hsync, hmark]
        simp [Draft.emit, htokens, Command.tokens]
      · have hmark : updateMark caps 'l' = [] := if_neg hsync
        rw [if_neg hsync, hmark, htokens, List.append_nil]

theorem fits_resolve (caps : Capabilities) (s : Style) : (caps.resolve s).Fits caps :=
  fun hnone => if_neg (Bool.eq_false_iff.mp hnone)

/-- What is sent is nothing or one frame. -/
theorem isFrameText_drafted (f : Frame) (cursor : Option CursorRequest)
    (hs : s.state.Suits (SgrStyle.Fits caps) caps)
    (hlink : s.state.link = none) :
    (s.drafted f caps cursor).commands = #[] ∨ ∃ ts, IsFrameText caps f
      (Command.encodeAll (s.drafted f caps cursor).commands.toList).toList ts := by
  rcases tokens_drafted f cursor (fits_resolve caps) hs hlink with
    hnone | ⟨cs, htokens, hsize, harises, hread⟩
  · exact .inl hnone
  · have hsupported : ∀ t ∈ cs.flatMap Command.tokens, t.Supported caps f := by
      intro t ht
      obtain ⟨c, hc, ht⟩ := List.mem_flatMap.mp ht
      exact (harises c hc).supported t ht
    refine .inr ⟨cs.flatMap Command.tokens, ?_, ?_, hsupported, hread⟩
    · apply isTokenized
      · intro t ht
        rcases List.mem_append.mp ht with ht | hend
        · rcases List.mem_append.mp ht with hstart | ht
          · exact isComplete_updateMark caps (by decide) t hstart
          · exact (hsupported t ht).isComplete
        · exact isComplete_updateMark caps (by decide) t hend
      · rw [← htokens, Command.written_encodeAll]
    · intro hnone
      have hwritten := Command.written_encodeAll cs
      rw [hnone] at hwritten
      have hempty : Command.encodeAll cs = "" := String.toList_eq_nil_iff.mp hwritten.symm
      have htotal := Command.size_encodeAll cs
      rw [hempty] at htotal
      exact hsize htotal.symm

end Session

/-- A render for a certain terminal, or a call without one. -/
def SessionCall.Uses (caps : Capabilities) : SessionCall → Prop
  | .render _ caps' _ => caps' = caps
  | _ => True

namespace Session

variable {kind : SgrStyle → Prop} {caps : Capabilities} {f : Frame} {s : Session}
variable {cursor : Option CursorRequest}

theorem suits_after (hkind : ∀ s, kind (caps.resolve s)) (hs : s.state.Suits kind caps)
    {call : SessionCall} (hcall : call.Uses caps) : (s.after call).state.Suits kind caps := by
  cases call with
  | forceRedraw => exact ⟨nofun, fun _ => rfl, nofun⟩
  | deliver output => exact hs
  | render f caps' cursor =>
    obtain rfl : caps' = caps := hcall
    unfold after
    dsimp only
    cases hok : s.render f caps' cursor with
    | error failure => exact hs
    | ok result =>
      obtain ⟨d, hd, -, hstate, -⟩ := render_ok hok
      obtain rfl := draft_ok hd
      have hsuits := suits_drafted f cursor hkind hs
      exact hstate ▸ hsuits

theorem suits_run (hkind : ∀ s, kind (caps.resolve s)) (hs : s.state.Suits kind caps)
    {calls : List SessionCall} (hcalls : ∀ call ∈ calls, call.Uses caps) :
    (s.run calls).state.Suits kind caps := by
  induction calls generalizing s with
  | nil => exact hs
  | cons call calls ih =>
    have hafter := suits_after hkind hs (hcalls call List.mem_cons_self)
    exact ih hafter fun c hc => hcalls c (List.mem_cons_of_mem call hc)

/-- After any calls for one terminal, a render of any frame sends nothing, or one frame that can be
read in one way only and consists of what the terminal supports. -/
theorem render_sends_frame (options : RenderOptions) (output : Output) {calls : List SessionCall}
    {s' : Session} {stats : RenderStats} (fixed : ∀ call ∈ calls, call.Uses caps)
    (renders : ((start options output).run calls).render f caps cursor = .ok (s', stats)) :
    ((start options output).run calls).appended s' = .empty ∨
      ∃ (text : String) (ts : List Token),
        ((start options output).run calls).appended s' = text.toUTF8 ∧
          IsFrameText caps f text.toList ts := by
  have hstart : (start options output).state.Suits (SgrStyle.Fits caps) caps :=
    ⟨nofun, fun _ => rfl, nofun⟩
  have hsuits := suits_run (fits_resolve caps) hstart fixed
  have hlink := ((isSettled_start options output).run calls).link
  obtain ⟨d, hd, -, -, -, happended⟩ := render_ok renders
  obtain rfl := draft_ok hd
  rw [happended]
  rcases isFrameText_drafted f cursor hsuits hlink with hnone | ⟨ts, hts⟩
  · left
    rw [hnone]
    rfl
  · exact .inr ⟨_, ts, rfl, hts⟩

/-- Two spaces are shown, and must be shown again. -/
def redrawCalls : List SessionCall := [.render (.blank 2 1) {} none, .forceRedraw]

/-- The second render redraws the spaces and hides the cursor. -/
theorem render_sends_frame_redraw :
    ∃ r, ((start {} .unbounded).run redrawCalls).render (.blank 2 1) {} (some .hidden) = .ok r ∧
      ∃ (text : String) (ts : List Token),
        ((start {} .unbounded).run redrawCalls).appended r.1 = text.toUTF8 ∧
          IsFrameText {} (.blank 2 1) text.toList ts := by
  have hsize : (((start {} .unbounded).run redrawCalls).render (.blank 2 1) {}
      (some .hidden)).toOption.any (fun r =>
        0 < (((start {} .unbounded).run redrawCalls).appended r.1).size) = true := by
    decide +kernel
  have hfixed : ∀ call ∈ redrawCalls, call.Uses {} := by
    intro call hcall
    simp only [redrawCalls, List.mem_cons, List.not_mem_nil, or_false] at hcall
    rcases hcall with rfl | rfl
    · rfl
    · trivial
  cases hrender : ((start {} .unbounded).run redrawCalls).render (.blank 2 1) {}
      (some .hidden) with
  | error failure =>
    rw [hrender] at hsize
    cases hsize
  | ok r =>
    rw [hrender] at hsize
    simp only [Except.toOption, Option.any_some, decide_eq_true_eq] at hsize
    refine ⟨r, rfl, ?_⟩
    rcases render_sends_frame {} .unbounded hfixed hrender with hnone | hframe
    · rw [hnone] at hsize
      cases hsize
    · exact hframe

end Session

end CellCanvas
