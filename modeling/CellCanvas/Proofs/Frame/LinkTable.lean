import CellCanvas.Proofs.Paint.Addresses

/-!
# The numbers of links

The number of a link is the place of its address in the table. A table only grows, at its end, by
addresses that it does not have, until it is forgotten as a whole. So a number that was given out
stands for its address from then on, whatever happens to the cells, and no two addresses share one.
-/

namespace CellCanvas.Frame

variable {f g : Frame} {uri : String} {log : List (String × ℕ)}

theorem linkUri?_succ (f : Frame) (n : ℕ) : f.linkUri? (n + 1) = f.links[n]? := rfl

theorem exists_of_linkUri? {id : ℕ} (h : f.linkUri? id = some uri) :
    ∃ n, id = n + 1 ∧ f.links[n]? = some uri := by
  cases id with
  | zero => cases h
  | succ n => exact ⟨n, rfl, h⟩

/-- Enter an address in place: what the caller is told, and the frame that is left. -/
def enter (f : Frame) (uri : String) : Except Failure ℕ × Frame :=
  match f.internLink uri with
  | .ok (g, id) => (.ok id, g)
  | .error e => (.error e, f)

/-- An address is noted with the number that was given out for it, if one was. -/
def noted (uri : String) (log : List (String × ℕ)) : Except Failure ℕ → List (String × ℕ)
  | .ok id => (uri, id) :: log
  | .error _ => log

/-- What a frame can go through while it keeps its link table, with the addresses that were entered
meanwhile and their numbers. -/
inductive Entered : List (String × ℕ) → Frame → Prop
  | created (width height : UInt16) : Entered [] (.blank width height)
  | forgotten (f : Frame) : Entered [] f.resetLinks
  | enter {log : List (String × ℕ)} {f : Frame} (uri : String) :
      Entered log f → Entered (noted uri log (f.enter uri).1) (f.enter uri).2
  | resize {log : List (String × ℕ)} {f : Frame} (width height : UInt16) :
      Entered log f → Entered log (f.resize width height)
  | clear {log : List (String × ℕ)} {f : Frame} (s : Style) :
      Entered log f → Entered log (f.clear s)
  | paint {log : List (String × ℕ)} {f : Frame} {capacity : ℕ} {p q : Painter} :
      Entered log f → Painter.start f capacity = .ok p → Relation.ReflTransGen Painter.Step p q →
      Entered log q.frame

/-- A table of different addresses in which every number that was given out has its address. -/
structure Numbers (log : List (String × ℕ)) (f : Frame) : Prop where
  size_le : f.links.size ≤ maxLinks
  fit : ∀ uri ∈ f.links, linkFault? uri = none
  nodup : f.links.toList.Nodup
  resolves : ∀ p ∈ log, f.linkUri? p.2 = some p.1

namespace Numbers

theorem of_links_eq_empty (h : f.links = #[]) : Numbers [] f where
  size_le := by
    rw [h]
    exact Nat.zero_le _
  fit := by
    rw [h]
    nofun
  nodup := by
    rw [h]
    exact List.nodup_nil
  resolves := nofun

/-- Only the table matters. -/
theorem of_links_eq (h : Numbers log f) (hlinks : g.links = f.links) : Numbers log g where
  size_le := hlinks ▸ h.size_le
  fit := hlinks ▸ h.fit
  nodup := hlinks ▸ h.nodup
  resolves := by
    intro p hp
    rw [← h.resolves p hp]
    unfold linkUri?
    rw [hlinks]

theorem note (h : Numbers log f) {id : ℕ} (hid : f.linkUri? id = some uri) :
    Numbers ((uri, id) :: log) f where
  size_le := h.size_le
  fit := h.fit
  nodup := h.nodup
  resolves := by
    intro p hp
    rcases List.mem_cons.mp hp with rfl | hp
    · exact hid
    · exact h.resolves p hp

theorem push (h : Numbers log f) (hfit : linkFault? uri = none) (hnew : uri ∉ f.links)
    (hroom : f.links.size < maxLinks) (hpush : g.links = f.links.push uri) : Numbers log g where
  size_le := by
    rw [hpush, Array.size_push]
    exact hroom
  fit := by
    intro u hu
    rw [hpush] at hu
    rcases Array.mem_push.mp hu with hu | rfl
    · exact h.fit u hu
    · exact hfit
  nodup := by
    rw [hpush, Array.toList_push]
    exact h.nodup.append (List.nodup_singleton uri) (by simpa using hnew)
  resolves := by
    intro p hp
    obtain ⟨n, hid, hn⟩ := exists_of_linkUri? (h.resolves p hp)
    have hlt : n < f.links.size := (Array.getElem?_eq_some_iff.mp hn).1
    rw [hid, linkUri?_succ, hpush, Array.getElem?_push, if_neg (Nat.ne_of_lt hlt), hn]

theorem enter (h : Numbers log f) (uri : String) :
    Numbers (noted uri log (f.enter uri).1) (f.enter uri).2 := by
  have hentering := f.entering uri
  unfold Frame.enter
  generalize f.internLink uri = result at hentering ⊢
  cases hentering with
  | unfit _ => exact h
  | known _ hi => exact h.note hi
  | new hfit hnew hroom hpush =>
    refine (h.push hfit hnew hroom hpush).note ?_
    rw [linkUri?_succ, hpush, Array.getElem?_push_size]
  | full _ _ _ => exact h

/-- A number has one address. -/
theorem uri_eq (h : Numbers log f) {p q : String × ℕ} (hp : p ∈ log) (hq : q ∈ log)
    (hid : p.2 = q.2) : p.1 = q.1 := by
  have hq := h.resolves q hq
  rw [← hid, h.resolves p hp] at hq
  exact Option.some.inj hq

/-- An address has one number. -/
theorem id_eq (h : Numbers log f) {p q : String × ℕ} (hp : p ∈ log) (hq : q ∈ log)
    (huri : p.1 = q.1) : p.2 = q.2 := by
  obtain ⟨m, hm, hpm⟩ := exists_of_linkUri? (h.resolves p hp)
  obtain ⟨n, hn, hqn⟩ := exists_of_linkUri? (h.resolves q hq)
  have hlt : m < f.links.toList.length := (Array.getElem?_eq_some_iff.mp hpm).1
  rw [← Array.getElem?_toList] at hpm hqn
  have hplace : m = n := (List.getElem?_inj hlt h.nodup).mp (by rw [hpm, hqn, huri])
  rw [hm, hn, hplace]

/-- An address is refused when it is not fit to be a link, or new to a table that is full. -/
theorem refuses_iff (h : Numbers log f) (uri : String) :
    (∃ e, (f.enter uri).1 = .error e) ↔
      linkFault? uri ≠ none ∨ uri ∉ f.links ∧ f.links.size = maxLinks := by
  have hentering := f.entering uri
  unfold Frame.enter
  generalize f.internLink uri = result at hentering ⊢
  cases hentering with
  | unfit hfault =>
    rw [hfault]
    exact iff_of_true ⟨_, rfl⟩ (.inl nofun)
  | known hfit hi =>
    have hmem : uri ∈ f.links := Array.mem_of_getElem? hi
    simp [hfit, hmem]
  | new hfit _ hroom _ =>
    have hne : f.links.size ≠ maxLinks := Nat.ne_of_lt hroom
    simp [hfit, hne]
  | full _ hnew hfull => exact iff_of_true ⟨_, rfl⟩ (.inr ⟨hnew, h.size_le.antisymm hfull⟩)

end Numbers

theorem Entered.numbers (h : Entered log f) : Numbers log f := by
  induction h with
  | created width height => exact .of_links_eq_empty rfl
  | forgotten f => exact .of_links_eq_empty rfl
  | enter uri _ ih => exact ih.enter uri
  | resize width height _ ih => exact ih.of_links_eq (links_resize width height)
  | clear s _ ih => exact ih.of_links_eq rfl
  | paint _ hstart hsteps ih => exact ih.of_links_eq (Painter.links_of_steps hstart hsteps)

theorem isSafeText_iff {text : String} :
    isSafeText text = true ↔ ∀ c ∈ text.toList, isControl c = false := by
  simp [isSafeText]

/-- As long as a table is not forgotten, it holds at most 4096 different addresses that are fit to
be links; it refuses an address only if that is unfit, or new when the table is full, and is then
left as it was; and it gives out numbers that stand for one address each from then on. -/
theorem entered_numbers (h : Entered log f) :
    f.links.size ≤ 4096 ∧ f.links.toList.Nodup ∧
      (∀ uri ∈ f.links, uri ≠ "" ∧ uri.utf8ByteSize ≤ 2083 ∧
        ∀ c ∈ uri.toList, isControl c = false) ∧
      (∀ uri, (∃ e, (f.enter uri).1 = .error e) ↔
        uri = "" ∨ 2083 < uri.utf8ByteSize ∨ (∃ c ∈ uri.toList, isControl c = true) ∨
          uri ∉ f.links ∧ f.links.size = 4096) ∧
      (∀ uri e, (f.enter uri).1 = .error e → (f.enter uri).2 = f) ∧
      (∀ p ∈ log, ∀ q ∈ log, p.2 = q.2 ↔ p.1 = q.1) ∧
      (∀ p ∈ log, f.linkUri? p.2 = some p.1) ∧
      f.linkUri? 0 = none ∧ ∀ id, f.links.size < id → f.linkUri? id = none := by
  have hnumbers := h.numbers
  refine ⟨hnumbers.size_le, hnumbers.nodup, ?_, ?_, ?_, ?_, hnumbers.resolves, rfl, ?_⟩
  · intro uri huri
    obtain ⟨hempty, hlong, hsafe⟩ := linkFault?_eq_none_iff.mp (hnumbers.fit uri huri)
    exact ⟨hempty, hlong, isSafeText_iff.mp hsafe⟩
  · intro uri
    have hfit : linkFault? uri ≠ none ↔
        uri = "" ∨ 2083 < uri.utf8ByteSize ∨ ∃ c ∈ uri.toList, isControl c = true := by
      rw [ne_eq, linkFault?_eq_none_iff, isSafeText_iff, maxLinkBytes]
      simp only [not_and_or, not_not, not_le, not_forall, Bool.not_eq_false, exists_prop]
    rw [hnumbers.refuses_iff, hfit, or_assoc, or_assoc]
    rfl
  · intro uri e he
    unfold enter at he ⊢
    cases hlink : f.internLink uri with
    | ok r =>
      rw [hlink] at he
      cases he
    | error e => rfl
  · intro p hp q hq
    exact ⟨hnumbers.uri_eq hp hq, hnumbers.id_eq hp hq⟩
  · intro id hid
    obtain ⟨n, rfl⟩ := Nat.exists_eq_succ_of_ne_zero (Nat.ne_zero_of_lt hid)
    rw [linkUri?_succ]
    exact Array.getElem?_eq_none (by omega)

/-- A number is given out again for its address after the frame was resized and filled. -/
theorem entered_numbers_again :
    ∃ f, Entered [("a", 1), ("b", 2), ("a", 1)] f ∧ f.linkUri? 2 = some "b" ∧
      (f.enter "").2 = f ∧ f.linkUri? 3 = none := by
  let named := ((blank 2 1).enter "a").2
  let both := (named.enter "b").2
  obtain ⟨p, hp⟩ : ∃ p, Painter.start (both.resize 3 2) 1 = .ok p := ⟨_, rfl⟩
  let filled := (p.fill ⟨0, 0, 2, 2⟩ .plain).frame
  have hentered := (((((Entered.created 2 1).enter "a").enter "b").resize 3 2).paint hp
    (.single (.fill p ⟨0, 0, 2, 2⟩ .plain))).enter "a"
  have hlog : noted "a" (noted "b" (noted "a" [] ((blank 2 1).enter "a").1) (named.enter "b").1)
      (filled.enter "a").1 = [("a", 1), ("b", 2), ("a", 1)] := by
    cases hp
    decide +kernel
  rw [hlog] at hentered
  obtain ⟨-, -, -, -, hrefused, -, hresolves, -, hnone⟩ := entered_numbers hentered
  refine ⟨_, hentered, hresolves ("b", 2) (by decide), hrefused "" _ rfl, hnone 3 ?_⟩
  cases hp
  decide +kernel

end CellCanvas.Frame
