import CellCanvas.Proofs.Image.Handling

/-!
# A ledger of transmissions

Every image that is transmitted takes the next number, and the number after the last is 1 again. So
an image has the number that follows from how many were transmitted before it, counted round. The
cache does not keep these counts; a ledger does, beside it, over any calls.
-/

namespace CellCanvas

open Kitty ImageCache

/-- A number that an image can have. -/
def ImageCache.IsNumber (n : Nat) : Prop := 0 < n ∧ n ≤ lastNumber

/-- How many images have been transmitted since the terminal was reset, and for each slot how many
had been when its image was. -/
structure Ledger where
  count : Nat
  before : Nat → Nat

namespace Ledger

/-- No image has been transmitted. -/
def blank : Ledger := ⟨0, fun _ => 0⟩

/-- One more image has been transmitted, into a slot. -/
def add (l : Ledger) (i : Nat) : Ledger := ⟨l.count + 1, Function.update l.before i l.count⟩

/-- Enter one step: an image that it transmits has taken the slot that was to be used. -/
def enter (l : Ledger) (p p' : Presentation) : Ledger :=
  if p'.stats.transmitted = p.stats.transmitted then l else l.add p.cache.chooseSlot.2

/-- Enter commands up to the first that fails. -/
def enterAll (png : PngEncoder) (support : ImageSupport) (scratch : Scratch) (l : Ledger)
    (p : Presentation) : List (ImageCommand × ByteArray) → Ledger
  | [] => l
  | c :: commands => match p.display png support scratch c with
    | .ok p' => enterAll png support scratch (l.enter p p') p' commands
    | .error _ => l

/-- The ledger after the first `k` commands of a frame. -/
def amid (png : PngEncoder) (l : Ledger) (p : Presenter) (f : ImageFrame) (support : ImageSupport)
    (room k : Nat) : Ledger :=
  enterAll png support p.scratch l ⟨p.cache.beginFrame, .withLimit room, {}⟩
    (f.commands.toList.take k)

/-- The ledger after a call. A frame that fails leaves nothing, and a reset starts anew. -/
def after (png : PngEncoder) (l : Ledger) (s : Stage) : PresenterCall → Ledger
  | .present f support out => match s.presenter.present png f support out with
    | .ok _ => l.amid png s.presenter f support out.remaining f.commands.size
    | .error _ => l
  | .forget => blank

/-- The ledger after calls in order. -/
def run (png : PngEncoder) (l : Ledger) (s : Stage) : List PresenterCall → Ledger
  | [] => l
  | call :: calls => (l.after png s call).run png (s.after png call) calls

@[simp] theorem count_add (l : Ledger) (i : Nat) : (l.add i).count = l.count + 1 := rfl

@[simp] theorem before_add_self (l : Ledger) (i : Nat) : (l.add i).before i = l.count :=
  Function.update_self ..

theorem before_add_of_ne (l : Ledger) {i j : Nat} (h : j ≠ i) : (l.add i).before j = l.before j :=
  Function.update_of_ne h ..

/-- The number of an image before which `n` have been transmitted. -/
def numberAfter (n : Nat) : Nat := n % lastNumber + 1

theorem isNumber_numberAfter (n : Nat) : IsNumber (numberAfter n) :=
  ⟨Nat.succ_pos _, Nat.mod_lt n (by decide)⟩

/-- Numbers are counted round. -/
theorem numberAfter_succ (n : Nat) :
    (if numberAfter n = lastNumber then 1 else numberAfter n + 1) = numberAfter (n + 1) := by
  unfold numberAfter lastNumber
  split_ifs <;> omega

/-- A number comes again after whole rounds. -/
theorem numberAfter_eq_iff {m n : Nat} (h : m ≤ n) :
    numberAfter m = numberAfter n ↔ lastNumber ∣ n - m := by
  rw [numberAfter, numberAfter, Nat.add_right_cancel_iff]
  exact Nat.modEq_iff_dvd' h

end Ledger

namespace ImageCache

open Ledger

/-- A new image that is placed at once is in the slot that it has taken, and the others are as
before. -/
theorem slot_markPlaced_adopt {c : ImageCache} (h : c.slots.size ≤ maxSlots) (s : ImageSlot) :
    (((c.adopt s).markPlaced c.chooseSlot.2).slot c.chooseSlot.2).SameImage s ∧
      ∀ i, i ≠ c.chooseSlot.2 → ((c.adopt s).markPlaced c.chooseSlot.2).slot i = c.slot i := by
  have hlt := (size_adopt h s).2
  have hslot := slot_adopt h s
  constructor
  · have hsame := sameImage_markPlaced hlt c.chooseSlot.2
    rwa [(hslot c.chooseSlot.2).trans (if_pos rfl)] at hsame
  · intro i hi
    rw [slot_markPlaced hlt, if_neg hi.symm]
    exact (hslot i).trans (if_neg hi.symm)

/-- The ledger tells the number of every image, and the next. -/
structure IsDated (c : ImageCache) (l : Ledger) : Prop where
  size_le : c.slots.size ≤ maxSlots
  next : c.nextNumber = numberAfter l.count
  number : ∀ i, (c.slot i).transmitted = true → (c.slot i).number = numberAfter (l.before i)
  earlier : ∀ i, (c.slot i).transmitted = true → l.before i < l.count
  apart : ∀ i j, (c.slot i).transmitted = true → (c.slot j).transmitted = true →
    l.before i = l.before j → i = j

namespace IsDated

variable {c c' : ImageCache} {l : Ledger} {s : ImageSlot}

theorem isNumber_next (h : c.IsDated l) : IsNumber c.nextNumber :=
  h.next ▸ isNumber_numberAfter _

theorem isNumber (h : c.IsDated l) {i : Nat} (hi : (c.slot i).transmitted = true) :
    IsNumber (c.slot i).number :=
  h.number i hi ▸ isNumber_numberAfter _

theorem empty : IsDated {} .blank := ⟨Nat.zero_le _, rfl, nofun, nofun, nofun⟩

/-- What matters is which images there are, and under which numbers. -/
theorem of_kept (h : c.IsDated l) (hsize : c'.slots.size = c.slots.size)
    (hnext : c'.nextNumber = c.nextNumber)
    (hslot : ∀ i, (c'.slot i).transmitted = true →
      (c.slot i).transmitted = true ∧ (c'.slot i).number = (c.slot i).number) :
    c'.IsDated l := by
  refine ⟨hsize.trans_le h.size_le, hnext.trans h.next, ?_, ?_, ?_⟩
  · intro i hi
    obtain ⟨hi', hnumber⟩ := hslot i hi
    exact hnumber.trans (h.number i hi')
  · intro i hi
    exact h.earlier i (hslot i hi).1
  · intro i j hi hj
    exact h.apart i j (hslot i hi).1 (hslot j hj).1

theorem of_sameImage (h : c.IsDated l) (hsize : c'.slots.size = c.slots.size)
    (hnext : c'.nextNumber = c.nextNumber) (hslot : ∀ i, (c'.slot i).SameImage (c.slot i)) :
    c'.IsDated l :=
  h.of_kept hsize hnext fun i hi => ⟨(hslot i).transmitted.symm.trans hi, (hslot i).number⟩

theorem beginFrame (h : c.IsDated l) : c.beginFrame.IsDated l :=
  h.of_sameImage size_beginFrame rfl (sameImage_beginFrame c)

theorem markPlaced (h : c.IsDated l) {i : Nat} (hi : i < c.slots.size) :
    (c.markPlaced i).IsDated l :=
  h.of_sameImage (size_markPlaced i) rfl (sameImage_markPlaced hi)

/-- A new image is entered with the slot that it takes. -/
theorem adopt (h : c.IsDated l) (hnumber : s.number = c.nextNumber) :
    (c.adopt s).IsDated (l.add c.chooseSlot.2) := by
  obtain ⟨-, hnext, -, -⟩ := chooseSlot_spec h.size_le
  refine ⟨(size_adopt h.size_le s).1, ?_, ?_, ?_, ?_⟩
  · change (if c.chooseSlot.1.nextNumber = lastNumber then 1 else c.chooseSlot.1.nextNumber + 1) = _
    rw [hnext, h.next]
    exact numberAfter_succ l.count
  · intro i hi
    rcases slot_adopt_cases h.size_le s i with ⟨rfl, hsame⟩ | ⟨hne, hsame⟩
    · rw [hsame, hnumber, h.next, before_add_self]
    · rw [hsame] at hi ⊢
      rw [before_add_of_ne l hne]
      exact h.number i hi
  · intro i hi
    rcases slot_adopt_cases h.size_le s i with ⟨rfl, -⟩ | ⟨hne, hsame⟩
    · rw [before_add_self, count_add]
      exact Nat.lt_succ_self _
    · rw [hsame] at hi
      rw [before_add_of_ne l hne]
      exact (h.earlier i hi).trans (Nat.lt_succ_self _)
  · intro i j hi hj heq
    rcases slot_adopt_cases h.size_le s i with ⟨rfl, -⟩ | ⟨hi', hsame⟩ <;>
      rcases slot_adopt_cases h.size_le s j with ⟨rfl, -⟩ | ⟨hj', hsame'⟩
    · rfl
    · rw [hsame'] at hj
      rw [before_add_self, before_add_of_ne l hj'] at heq
      exact absurd heq (h.earlier j hj).ne'
    · rw [hsame] at hi
      rw [before_add_self, before_add_of_ne l hi'] at heq
      exact absurd heq (h.earlier i hi).ne
    · rw [hsame] at hi
      rw [hsame'] at hj
      rw [before_add_of_ne l hi', before_add_of_ne l hj'] at heq
      exact h.apart i j hi hj heq

/-- Emptying a slot leaves the other images. -/
theorem drop (h : c.IsDated l) {i : Nat} (hi : i < c.slots.size) : (c.setSlot i {}).IsDated l := by
  refine h.of_kept (size_setSlot i {}) rfl ?_
  intro j hj
  rcases slot_setSlot_cases {} hi j with ⟨-, hsame⟩ | ⟨-, hsame⟩
  · rw [hsame] at hj
    cases hj
  · rw [hsame] at hj ⊢
    exact ⟨hj, rfl⟩

/-- Images have different numbers when less than a round lies between any two of them. -/
theorem numbers (h : c.IsDated l) {oldest : Nat}
    (holdest : ∀ i, (c.slot i).transmitted = true → oldest ≤ l.before i)
    (hround : l.count ≤ oldest + lastNumber) : c.Distinguishes ImageSlot.number := by
  have hapart (i j : Nat) (hi : (c.slot i).transmitted = true) (hj : (c.slot j).transmitted = true)
      (hle : l.before i ≤ l.before j) (hsame : (c.slot i).number = (c.slot j).number) : i = j := by
    rw [h.number i hi, h.number j hj, numberAfter_eq_iff hle] at hsame
    have hi' := holdest i hi
    have hj' := h.earlier j hj
    have hzero := Nat.eq_zero_of_dvd_of_lt hsame (by omega)
    exact h.apart i j hi hj (by omega)
  intro i j hi hj hsame
  rcases Nat.le_total (l.before i) (l.before j) with hle | hle
  · exact hapart i j hi hj hle hsame
  · exact (hapart j i hj hi hle hsame.symm).symm

end IsDated

/-- `count` images have been transmitted, and those that are there after at least `oldest`
others. -/
def IsDatedFrom (oldest count : Nat) (c : ImageCache) : Prop :=
  ∃ l, c.IsDated l ∧ l.count = count ∧ oldest ≤ count ∧
    ∀ i, (c.slot i).transmitted = true → oldest ≤ l.before i

theorem IsDated.from_zero {c : ImageCache} {l : Ledger} (h : c.IsDated l) :
    c.IsDatedFrom 0 l.count :=
  ⟨l, h, rfl, Nat.zero_le _, fun _ _ => Nat.zero_le _⟩

namespace IsDatedFrom

variable {c c' : ImageCache} {oldest count : Nat} {s : ImageSlot}

theorem of_sameImage (h : c.IsDatedFrom oldest count) (hsize : c'.slots.size = c.slots.size)
    (hnext : c'.nextNumber = c.nextNumber) (hslot : ∀ i, (c'.slot i).SameImage (c.slot i)) :
    c'.IsDatedFrom oldest count := by
  obtain ⟨l, hdated, hcount, hle, holdest⟩ := h
  exact ⟨l, hdated.of_sameImage hsize hnext hslot, hcount, hle,
    fun i hi => holdest i ((hslot i).transmitted.symm.trans hi)⟩

theorem drop (h : c.IsDatedFrom oldest count) {i : Nat} (hi : i < c.slots.size) :
    (c.setSlot i {}).IsDatedFrom oldest count := by
  obtain ⟨l, hdated, hcount, hle, holdest⟩ := h
  refine ⟨l, hdated.drop hi, hcount, hle, ?_⟩
  intro j hj
  rcases slot_setSlot_cases {} hi j with ⟨-, hsame⟩ | ⟨-, hsame⟩
  · rw [hsame] at hj
    cases hj
  · rw [hsame] at hj
    exact holdest j hj

theorem adopt (h : c.IsDatedFrom oldest count) (hnumber : s.number = c.nextNumber) :
    (c.adopt s).IsDatedFrom oldest (count + 1) := by
  obtain ⟨l, hdated, rfl, hle, holdest⟩ := h
  refine ⟨_, hdated.adopt hnumber, rfl, hle.trans (Nat.le_succ _), ?_⟩
  intro i hi
  rcases slot_adopt_cases hdated.size_le s i with ⟨rfl, -⟩ | ⟨hne, hsame⟩
  · rwa [before_add_self]
  · rw [hsame] at hi
    rw [before_add_of_ne l hne]
    exact holdest i hi

theorem numbers (h : c.IsDatedFrom oldest count) (hround : count ≤ oldest + lastNumber) :
    c.Distinguishes ImageSlot.number := by
  obtain ⟨l, hdated, rfl, -, holdest⟩ := h
  exact hdated.numbers holdest hround

end IsDatedFrom

end ImageCache

namespace Presentation

variable {png : PngEncoder} {support : ImageSupport} {scratch : Scratch}
variable {p p' p'' : Presentation} {l l' l'' : Ledger}
variable {command : ImageCommand × ByteArray} {rs : List Request}

/-- The second ledger tells the numbers after a step, and counts the transmissions of the step. -/
def Enters (l l' : Ledger) (p p' : Presentation) : Prop :=
  p'.cache.IsDated l' ∧ ∃ rs, p.Sent p' rs ∧ l'.count = l.count + transmissionsIn rs

theorem Enters.trans (h : Enters l l' p p') (h' : Enters l' l'' p' p'') : Enters l l'' p p'' := by
  obtain ⟨-, rs, hsent, hcount⟩ := h
  obtain ⟨hdated, ss, hsent', hcount'⟩ := h'
  refine ⟨hdated, rs ++ ss, hsent.trans hsent', ?_⟩
  rw [hcount', hcount, transmissionsIn_append, Nat.add_assoc]

theorem Enters.refl (h : p.cache.IsDated l) : Enters l l p p := ⟨h, [], .refl p, rfl⟩

theorem enters_handles (h : p.cache.IsDated l) (hsent : p.Sent p' rs)
    (hok : Handles support command p p' rs) : Enters l (l.enter p p') p p' := by
  cases hok with
  | passed hother hcache hcount =>
    rw [Ledger.enter, if_pos hcount]
    refine ⟨?_, [], hsent, rfl⟩
    rw [hcache]
    exact h
  | served hkitty hserves =>
    cases hserves with
    | reused htransmitted hpixels hcache hcount =>
      rw [Ledger.enter, if_pos hcount]
      refine ⟨?_, _, hsent, rfl⟩
      rw [hcache]
      exact h.markPlaced (lt_of_transmitted htransmitted)
    | adopted hnew hcache hcount =>
      rw [Ledger.enter, if_neg (by omega)]
      refine ⟨?_, _, hsent, (congrArg (l.count + ·) (transmissionsIn_adoption [] ..)).symm⟩
      rw [hcache]
      exact (h.adopt rfl).markPlaced (size_adopt h.size_le _).2

theorem enters_display (h : p.cache.IsDated l)
    (hok : p.display png support scratch command = .ok p') : Enters l (l.enter p p') p p' := by
  obtain ⟨-, rs, hsent, hhandles⟩ := handles_of_display h.size_le hok
  exact enters_handles h hsent hhandles

/-- The commands of a frame in order. -/
theorem enters_displayAll {commands : List (ImageCommand × ByteArray)} (h : p.cache.IsDated l)
    (hok : commands.foldlM (fun s c => s.display png support scratch c) p = .ok p') :
    Enters l (l.enterAll png support scratch p commands) p p' := by
  induction commands generalizing p l with
  | nil =>
    cases hok
    exact .refl h
  | cons c commands ih =>
    obtain ⟨next, hnext, hrest⟩ := exists_of_bind_eq_ok hok
    have hfirst := enters_display h hnext
    simp only [Ledger.enterAll, hnext]
    exact hfirst.trans (ih hfirst.1 hrest)

theorem enters_dropUnplaced {i : Nat} (h : p.cache.IsDated l) (hok : p.dropUnplaced i = .ok p') :
    Enters l l p p' := by
  rcases dropUnplaced_cases hok with ⟨rfl, -⟩ | ⟨htransmitted, -, hcache, hsent, -⟩
  · exact .refl h
  · refine ⟨?_, _, hsent, (congrArg (l.count + ·) (transmissionsIn_evictions [] _)).symm⟩
    rw [hcache]
    exact h.drop (lt_of_transmitted htransmitted)

theorem enters_dropAll {is : List Nat} (h : p.cache.IsDated l)
    (hok : is.foldlM dropUnplaced p = .ok p') : Enters l l p p' := by
  induction is generalizing p with
  | nil =>
    cases hok
    exact .refl h
  | cons i is ih =>
    obtain ⟨next, hnext, hrest⟩ := exists_of_bind_eq_ok hok
    have hfirst := enters_dropUnplaced h hnext
    exact hfirst.trans (ih hfirst.1 hrest)

end Presentation

namespace Presenter

open Presentation

variable {png : PngEncoder} {p : Presenter} {f : ImageFrame} {support : ImageSupport}
variable {room k : Nat} {l : Ledger}

/-- A frame after its first `k` commands. -/
def showFirst (png : PngEncoder) (p : Presenter) (f : ImageFrame) (support : ImageSupport)
    (room k : Nat) : Except Failure Presentation :=
  (f.commands.toList.take k).foldlM (fun s c => s.display png support p.scratch c)
    ⟨p.cache.beginFrame, .withLimit room, {}⟩

theorem enters_showFirst {mid : Presentation} (h : p.cache.IsDated l)
    (hok : p.showFirst png f support room k = .ok mid) :
    Enters l (l.amid png p f support room k) ⟨p.cache.beginFrame, .withLimit room, {}⟩ mid :=
  enters_displayAll (p := ⟨p.cache.beginFrame, .withLimit room, {}⟩) h.beginFrame hok

/-- A frame is all its commands, and the deletions at its end. -/
theorem compose_eq (png : PngEncoder) (p : Presenter) (f : ImageFrame) (support : ImageSupport)
    (room : Nat) :
    p.compose png f support room = p.showFirst png f support room f.commands.size >>= fun shown =>
      (List.range shown.cache.slots.size).foldlM dropUnplaced shown := by
  rw [showFirst, List.take_of_length_le (by simp)]
  rfl

theorem enters_compose {done : Presentation} (h : p.cache.IsDated l)
    (hok : p.compose png f support room = .ok done) :
    Enters l (l.amid png p f support room f.commands.size) ⟨p.cache.beginFrame, .withLimit room, {}⟩
      done := by
  rw [compose_eq] at hok
  obtain ⟨shown, hshown, hdrop⟩ := exists_of_bind_eq_ok hok
  have hfirst := enters_showFirst h hshown
  exact hfirst.trans (enters_dropAll hfirst.1 hdrop)

end Presenter

namespace Stage

open Presentation

variable {png : PngEncoder} {s : Stage} {l : Ledger}

/-- The ledger tells the numbers in the cache, and counts what the terminal has received. -/
structure IsEntered (s : Stage) (l : Ledger) : Prop where
  dated : s.presenter.cache.IsDated l
  count : l.count = s.terminal.transmissions

namespace IsEntered

theorem start (budget : Nat) : (start budget).IsEntered .blank := ⟨.empty, rfl⟩

theorem after (h : s.IsEntered l) (call : PresenterCall) :
    (s.after png call).IsEntered (l.after png s call) := by
  cases call with
  | forget => exact ⟨.empty, rfl⟩
  | present f support out =>
    unfold Stage.after Ledger.after
    dsimp only
    cases hok : s.presenter.present png f support out with
    | error failure => exact h
    | ok result =>
      obtain ⟨p, out', stats⟩ := result
      obtain ⟨done, hdone, hcache, hpending⟩ := Presenter.present_ok hok
      obtain ⟨hdated, requests, hsent, hcount⟩ := Presenter.enters_compose h.dated hdone
      refine ⟨?_, ?_⟩
      · dsimp only
        rw [hcache]
        exact hdated
      · dsimp only
        rw [Terminal.receive, Presenter.requests?_of_present hpending hsent]
        dsimp only
        rw [Terminal.transmissions_actAll, hcount, h.count]

theorem run (h : s.IsEntered l) (calls : List PresenterCall) :
    (s.run png calls).IsEntered (l.run png s calls) := by
  induction calls generalizing s l with
  | nil => exact h
  | cons call calls ih => exact ih (h.after call)

end IsEntered

end Stage

end CellCanvas
