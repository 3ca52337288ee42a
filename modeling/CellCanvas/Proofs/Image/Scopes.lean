import CellCanvas.Proofs.Image.Charges
import CellCanvas.Proofs.Image.WordScale

/-!
# Scopes of a budget

An account in machine words, where only the checks of a charge keep it within its budget. Programs
ask for buffers, reset the account and open scopes in scopes, and go on as they like after each
answer, unless a buffer is so large that the program stops. No difference or sum of such a run ever
leaves its word, since the charge never exceeds the budget, and the run is the one on `Scratch`. The
buffers themselves belong to the caller, and memory for them is taken to be there.
-/

namespace CellCanvas

namespace Scratch

/-- A request for a buffer. -/
inductive Request where
  | bytes (n : UInt64)
  | numbers (count bytesEach : UInt64)
  | room (n : UInt64)

/-- How many bytes are asked for. -/
def Request.cost : Request → ℕ
  | bytes n | room n => n.toNat
  | numbers count bytesEach => count.toNat * bytesEach.toNat

/-- Make the buffer. -/
def Request.work : Request → Reserving Unit
  | bytes n => do
    let _ ← Scratch.bytes n.toNat
    return
  | numbers count bytesEach => do
    let _ ← Scratch.numbers count.toNat bytesEach.toNat
    return
  | room n => do
    let _ ← Scratch.room n.toNat
    return

/-- A program that uses a budget. -/
inductive Program : Type → Type 1 where
  | done {α : Type} (a : α) : Program α
  /-- Read the budget, what is charged and what is left. -/
  | look {α : Type} (next : UInt64 → UInt64 → UInt64 → Program α) : Program α
  | request {α : Type} (r : Request) (next : Except Failure Unit → Program α) : Program α
  | reset {α : Type} (next : Program α) : Program α
  | scope {α β : Type} (body : Program β) (next : β → Program α) : Program α

/-- Run a program. A request that is refused is an answer like any other. Where a request stops the
program, no scope gives back anything. -/
def Program.work {α : Type} : Program α → OptionT (StateM Scratch) α
  | done a => pure a
  | look next => fun s => (next (.ofNat s.budget) (.ofNat s.used) (.ofNat s.remaining)).work s
  | request r next => fun s =>
    match r.work s with
    | (some answer, after) => (next answer).work after
    | (none, after) => (none, after)
  | reset next => fun s => next.work (withBudget s.budget)
  | scope body next => fun s =>
    match body.work s with
    | (some b, _) => (next b).work s
    | (none, after) => (none, after)

end Scratch

open Scratch WordScale

/-- A budget and what is charged to it, in words. -/
structure WordScratch where
  budget : UInt64
  used : UInt64

namespace WordScratch

/-- What can still be charged, unless that is negative. -/
def remaining? (s : WordScratch) : Option UInt64 :=
  if s.used ≤ s.budget then some (s.budget - s.used) else none

/-- Charge some bytes, or refuse, unless a word overflows. -/
def charge? (s : WordScratch) (n : UInt64) : Option (Except Failure Unit × WordScratch) := do
  if (← s.remaining?) < n then return (.error (.limit .scratch), s)
  return (.ok (), { s with used := ← sum? s.used n })

/-- Charge for a buffer and make it. There is no answer when no buffer can be that large. -/
def reserve? (s : WordScratch) (n : UInt64) :
    Option (Option (Except Failure Unit) × WordScratch) := do
  match ← s.charge? n with
  | (.error e, t) => return (some (.error e), t)
  | (.ok (), t) => return (if n.toNat ≤ Size.largestBuffer then some (.ok ()) else none, t)

/-- Make numbers; that their size overflows is an answer. -/
def numbers? (s : WordScratch) (count bytesEach : UInt64) :
    Option (Option (Except Failure Unit) × WordScratch) :=
  match product? count bytesEach with
  | none => some (some (.error .overflow), s)
  | some n => s.reserve? n

/-- Serve a request. -/
def serve? (s : WordScratch) : Request → Option (Option (Except Failure Unit) × WordScratch)
  | .bytes n => s.numbers? n 1
  | .numbers count bytesEach => s.numbers? count bytesEach
  | .room n => s.reserve? n

end WordScratch

/-- What a program does with an account, with the account before and after it. -/
inductive ScratchEvent where
  | look (account : WordScratch)
  | request (r : Request) (before : WordScratch) (answer : Option (Except Failure Unit))
    (after : WordScratch)
  | reset (before after : WordScratch)
  | scope (before after : WordScratch)

/-- Run a program on words, with what it does in the order in which it ends. A program that is
stopped has no result; its account is the one at the stop. -/
def Scratch.Program.run? {α : Type} :
    Program α → WordScratch → Option (Option α × WordScratch × List ScratchEvent)
  | done a, s => some (some a, s, [])
  | look next, s => do
    let (a, after, log) ← (next s.budget s.used (← s.remaining?)).run? s
    return (a, after, .look s :: log)
  | request r next, s => do
    match ← s.serve? r with
    | (none, t) => return (none, t, [.request r s none t])
    | (some answer, t) =>
      let (a, after, log) ← (next answer).run? t
      return (a, after, .request r s (some answer) t :: log)
  | reset next, s => do
    let t : WordScratch := { s with used := 0 }
    let (a, after, log) ← next.run? t
    return (a, after, .reset s t :: log)
  | scope body next, s => do
    let mark := s.used
    match ← body.run? s with
    | (none, inner, innerLog) => return (none, inner, innerLog)
    | (some b, inner, innerLog) =>
      let t := { inner with used := mark }
      let (a, after, log) ← (next b).run? t
      return (a, after, innerLog ++ .scope s t :: log)

namespace Scratch

variable {α : Type} {s t : Scratch}

/-- A request is charged. -/
structure Request.Charges (r : Request) (before after : Scratch) : Prop where
  cost_lt : r.cost < 2 ^ 64
  cost_le : r.cost ≤ before.remaining
  budget_eq : after.budget = before.budget
  used_eq : after.used = before.used + r.cost

/-- All the ways in which a request is answered. -/
inductive Request.Ends (r : Request) (t : Scratch) : Option (Except Failure Unit) × Scratch → Prop
  | granted {after : Scratch} : r.cost ≤ Size.largestBuffer → r.Charges t after →
      Ends r t (some (.ok ()), after)
  | stopped {after : Scratch} : Size.largestBuffer < r.cost → r.Charges t after →
      Ends r t (none, after)
  | exhausted : r.cost < 2 ^ 64 → t.remaining < r.cost →
      Ends r t (some (.error (.limit .scratch)), t)
  | overflown : 2 ^ 64 ≤ r.cost → Ends r t (some (.error .overflow), t)

/-- The size of the buffer, if it can be told. -/
def Request.size : Request → Except Failure ℕ
  | bytes n | room n => .ok n.toNat
  | numbers count bytesEach => Size.mul count.toNat bytesEach.toNat

theorem reserve_drop (n : ℕ) (make : Unit → α) :
    (do let _ ← reserve n make; return) = reserve n fun _ => () := by
  funext t
  rw [run_reserving_bind]
  unfold reserve
  cases charge n t with
  | mk result after =>
    cases result with
    | error e => rfl
    | ok u =>
      by_cases hn : n ≤ Size.largestBuffer
      · simp only [if_pos hn]
        rfl
      · simp only [if_neg hn]

theorem Request.work_eq (r : Request) : r.work = (do reserve (← r.size) fun _ => ()) := by
  cases r with
  | bytes n => exact reserve_drop _ _
  | numbers count bytesEach =>
    unfold work size Scratch.numbers
    simp only [bind_assoc, reserve_drop]
  | room n => exact reserve_drop _ _

theorem Request.size_eq (r : Request) :
    r.size = if r.cost < 2 ^ 64 then .ok r.cost else .error .overflow := by
  cases r with
  | bytes n | room n => exact (if_pos n.toNat_lt).symm
  | numbers count bytesEach => rfl

theorem Request.work_of_lt (r : Request) (h : r.cost < 2 ^ 64) :
    r.work = reserve r.cost fun _ => () := by
  rw [work_eq, size_eq, if_pos h]
  rfl

theorem Request.work_of_le (r : Request) (h : 2 ^ 64 ≤ r.cost) (t : Scratch) :
    r.work t = (some (.error .overflow), t) := by
  rw [work_eq, size_eq, if_neg (Nat.not_lt.mpr h)]
  rfl

theorem Request.ends (r : Request) (t : Scratch) : r.Ends t (r.work t) := by
  rcases Nat.lt_or_ge r.cost (2 ^ 64) with hcost | hcost
  · rw [r.work_of_lt hcost, reserve]
    rcases le_or_gt r.cost t.remaining with hle | hlt
    · obtain ⟨after, hcharge, hbudget, hused⟩ := charge_of_le hle
      have hcharges : r.Charges t after := ⟨hcost, hle, hbudget, hused⟩
      rw [hcharge]
      by_cases hlargest : r.cost ≤ Size.largestBuffer
      · simp only [if_pos hlargest]
        exact .granted hlargest hcharges
      · simp only [if_neg hlargest]
        exact .stopped (Nat.lt_of_not_le hlargest) hcharges
    · rw [charge_of_lt hlt]
      exact .exhausted hcost hlt
  · rw [r.work_of_le hcost]
    exact .overflown hcost

theorem Request.budget_work (r : Request) (t : Scratch) : (r.work t).2.budget = t.budget := by
  have hends := r.ends t
  generalize r.work t = ended at hends ⊢
  cases hends with
  | granted _ hcharges | stopped _ hcharges => exact hcharges.budget_eq
  | exhausted _ _ | overflown _ => rfl

variable {β : Type}

theorem Program.work_look (next : UInt64 → UInt64 → UInt64 → Program α) (t : Scratch) :
    (look next).work t =
      (next (.ofNat t.budget) (.ofNat t.used) (.ofNat t.remaining)).work t := by
  rw [work]

theorem Program.work_request (r : Request) (next : Except Failure Unit → Program α)
    (t : Scratch) :
    (request r next).work t = match r.work t with
      | (some answer, after) => (next answer).work after
      | (none, after) => (none, after) := by
  rw [work]

theorem Program.work_scope (body : Program β) (next : β → Program α) (t : Scratch) :
    (scope body next).work t = match body.work t with
      | (some b, _) => (next b).work t
      | (none, after) => (none, after) := by
  rw [work]

theorem Program.budget_work (p : Program α) (t : Scratch) : (p.work t).2.budget = t.budget := by
  induction p generalizing t with
  | done a => rfl
  | look next ih => exact ih _ _ _ t
  | request r next ih =>
    have hrequest := r.budget_work t
    rw [work_request]
    generalize r.work t = ended at hrequest ⊢
    obtain ⟨_ | answer, after⟩ := ended
    · exact hrequest
    · exact (ih answer after).trans hrequest
  | reset next ih => exact ih (withBudget t.budget)
  | scope body next ihbody ih =>
    have hbody := ihbody t
    rw [work_scope]
    generalize body.work t = ended at hbody ⊢
    obtain ⟨_ | b, after⟩ := ended
    · exact hbody
    · exact ih b t

end Scratch

namespace WordScratch

variable {s s' : WordScratch} {t : Scratch}

/-- The words hold the numbers of an account. -/
structure Matches (s : WordScratch) (t : Scratch) : Prop where
  budget_eq : t.budget = s.budget.toNat
  used_eq : t.used = s.used.toNat

theorem Matches.unique (h : s.Matches t) (h' : s'.Matches t) : s = s' := by
  obtain ⟨budget, used⟩ := s
  obtain ⟨budget', used'⟩ := s'
  have hbudget := UInt64.toNat_inj.mp (h.budget_eq.symm.trans h'.budget_eq)
  have hused := UInt64.toNat_inj.mp (h.used_eq.symm.trans h'.used_eq)
  dsimp only at hbudget hused
  rw [hbudget, hused]

theorem Matches.used_le (h : s.Matches t) : s.used ≤ s.budget := by
  rw [UInt64.le_iff_toNat_le, ← h.budget_eq, ← h.used_eq]
  exact t.used_le

theorem Matches.remaining?_eq (h : s.Matches t) : s.remaining? = some (s.budget - s.used) :=
  if_pos h.used_le

theorem Matches.toNat_remaining (h : s.Matches t) :
    (s.budget - s.used).toNat = t.remaining := by
  rw [UInt64.toNat_sub_of_le _ _ h.used_le, ← h.budget_eq, ← h.used_eq, remaining]

theorem Matches.charge?_eq (h : s.Matches t) (n : UInt64) :
    ∃ s', s.charge? n = some ((Scratch.charge n.toNat t).1, s') ∧
      s'.Matches (Scratch.charge n.toNat t).2 := by
  have hlt_iff : s.budget - s.used < n ↔ t.remaining < n.toNat := by
    rw [UInt64.lt_iff_toNat_lt, h.toNat_remaining]
  simp only [charge?, h.remaining?_eq, Option.bind_eq_bind, Option.bind_some, hlt_iff]
  rcases Nat.lt_or_ge t.remaining n.toNat with hlt | hle
  · rw [if_pos hlt, charge_of_lt hlt]
    exact ⟨s, rfl, h⟩
  · obtain ⟨after, hcharge, hbudget, hused⟩ := charge_of_le hle
    have hfits : s.used.toNat + n.toNat < 2 ^ 64 := by
      have hwithin := after.used_le
      have hword := s.budget.toNat_lt
      rw [hbudget, hused, h.budget_eq, h.used_eq] at hwithin
      omega
    obtain ⟨total, htotal, htotal'⟩ := sum?_eq hfits
    rw [if_neg (Nat.not_lt.mpr hle), hcharge, htotal]
    exact ⟨_, rfl, hbudget.trans h.budget_eq, by rw [hused, h.used_eq, htotal']⟩

theorem Matches.reserve?_eq (h : s.Matches t) (n : UInt64) :
    ∃ s', s.reserve? n = some ((reserve n.toNat (fun _ => ()) t).1, s') ∧
      s'.Matches (reserve n.toNat (fun _ => ()) t).2 := by
  obtain ⟨s', hcharge, h'⟩ := h.charge?_eq n
  refine ⟨s', ?_⟩
  rw [reserve?, hcharge, reserve]
  generalize Scratch.charge n.toNat t = charged at h' ⊢
  obtain ⟨_ | _, after⟩ := charged
  · exact ⟨rfl, h'⟩
  · exact ⟨rfl, h'⟩

theorem Matches.numbers?_eq (h : s.Matches t) (count bytesEach : UInt64) :
    ∃ s', s.numbers? count bytesEach = some (((Request.numbers count bytesEach).work t).1, s') ∧
      s'.Matches ((Request.numbers count bytesEach).work t).2 := by
  rw [numbers?]
  rcases Nat.lt_or_ge (count.toNat * bytesEach.toNat) (2 ^ 64) with hcost | hcost
  · obtain ⟨n, hn, hn'⟩ := product?_eq hcost
    rw [hn, (Request.numbers count bytesEach).work_of_lt hcost, Request.cost, ← hn']
    exact h.reserve?_eq n
  · have hnone : product? count bytesEach = none := by
      refine if_neg fun hexact => Nat.not_lt.mpr hcost ?_
      rw [← hexact]
      exact UInt64.toNat_lt _
    rw [hnone, (Request.numbers count bytesEach).work_of_le hcost]
    exact ⟨s, rfl, h⟩

theorem Matches.serve?_eq (h : s.Matches t) (r : Request) :
    ∃ s', s.serve? r = some ((r.work t).1, s') ∧ s'.Matches (r.work t).2 := by
  cases r with
  | bytes n =>
    have hcost : (Request.numbers n 1).cost = (Request.bytes n).cost := Nat.mul_one _
    have hsame : (Request.bytes n).work = (Request.numbers n 1).work := by
      rw [Request.work_eq, Request.work_eq, Request.size_eq, Request.size_eq, hcost]
    rw [hsame]
    exact h.numbers?_eq n 1
  | numbers count bytesEach => exact h.numbers?_eq count bytesEach
  | room n =>
    rw [(Request.room n).work_of_lt n.toNat_lt]
    exact h.reserve?_eq n

/-- The account belongs to a budget and charges no more than that. -/
structure IsWithin (budget : UInt64) (s : WordScratch) : Prop where
  budget_eq : s.budget = budget
  used_le : s.used ≤ budget
  remaining?_eq : s.remaining? = some (budget - s.used)

theorem Matches.reset (h : s.Matches t) :
    Matches { s with used := 0 } (withBudget t.budget) := ⟨h.budget_eq, rfl⟩

theorem Matches.isWithin (h : s.Matches t) : s.IsWithin s.budget :=
  ⟨rfl, h.used_le, h.remaining?_eq⟩

/-- A request fits if its size is a byte count and is left of the budget. One that fits charges its
size, and is granted unless no buffer can be that large. One that does not fit is refused and
charges nothing. -/
structure IsAnswered (r : Request) (before : WordScratch) (answer : Option (Except Failure Unit))
    (after : WordScratch) : Prop where
  granted_iff : answer = some (.ok ()) ↔
    r.cost ≤ Size.largestBuffer ∧ r.cost < 2 ^ 64 ∧
      r.cost ≤ before.budget.toNat - before.used.toNat
  stopped_iff : answer = none ↔
    Size.largestBuffer < r.cost ∧ r.cost < 2 ^ 64 ∧
      r.cost ≤ before.budget.toNat - before.used.toNat
  overflow_iff : answer = some (.error .overflow) ↔ 2 ^ 64 ≤ r.cost
  charged : (∀ e, answer ≠ some (.error e)) → after.used.toNat = before.used.toNat + r.cost
  kept : ∀ e, answer = some (.error e) → after = before

namespace IsAnswered

variable {r : Request} {before after : WordScratch}

theorem of_charges (hlt : r.cost < 2 ^ 64)
    (hle : r.cost ≤ before.budget.toNat - before.used.toNat)
    (hused : after.used.toNat = before.used.toNat + r.cost) :
    IsAnswered r before (if r.cost ≤ Size.largestBuffer then some (.ok ()) else none) after where
  granted_iff := by
    rw [and_iff_left ⟨hlt, hle⟩]
    simp
  stopped_iff := by
    rw [and_iff_left ⟨hlt, hle⟩]
    simp
  overflow_iff := by
    refine iff_of_false ?_ (Nat.not_le.mpr hlt)
    split_ifs <;> nofun
  charged _ := hused
  kept e := by split_ifs <;> nofun

theorem of_refuses {e : Failure}
    (hnot : ¬ (r.cost < 2 ^ 64 ∧ r.cost ≤ before.budget.toNat - before.used.toNat))
    (he : e = .overflow ↔ 2 ^ 64 ≤ r.cost) :
    IsAnswered r before (some (.error e)) before where
  granted_iff := iff_of_false nofun fun hgrants => hnot hgrants.2
  stopped_iff := iff_of_false nofun fun hstops => hnot hstops.2
  overflow_iff := by simpa using he
  charged hanswer := absurd rfl (hanswer e)
  kept _ _ := rfl

end IsAnswered

theorem Matches.isAnswered (r : Request) (h : s.Matches t) (h' : s'.Matches (r.work t).2) :
    IsAnswered r s (r.work t).1 s' := by
  have hends := r.ends t
  have hremaining : s.budget.toNat - s.used.toNat = t.remaining := by
    rw [remaining, h.budget_eq, h.used_eq]
  have hanswered {after : Scratch} (hcharges : r.Charges t after) (h' : s'.Matches after) :
      IsAnswered r s (if r.cost ≤ Size.largestBuffer then some (.ok ()) else none) s' :=
    .of_charges hcharges.cost_lt (hremaining ▸ hcharges.cost_le)
      (by rw [← h'.used_eq, ← h.used_eq, hcharges.used_eq])
  generalize r.work t = ended at hends h' ⊢
  cases hends with
  | granted hle hcharges => simpa only [if_pos hle] using hanswered hcharges h'
  | stopped hlt hcharges =>
    simpa only [if_neg (Nat.not_le.mpr hlt)] using hanswered hcharges h'
  | exhausted hcost hlt =>
    rw [h'.unique h]
    apply IsAnswered.of_refuses
    · rw [hremaining]
      exact fun hfits => Nat.not_lt.mpr hfits.2 hlt
    · exact iff_of_false nofun (Nat.not_le.mpr hcost)
  | overflown hcost =>
    rw [h'.unique h]
    apply IsAnswered.of_refuses
    · exact fun hfits => Nat.not_lt.mpr hcost hfits.1
    · exact iff_of_true rfl hcost

end WordScratch

namespace ScratchEvent

open WordScratch

/-- The accounts before and after. -/
def accounts : ScratchEvent → List WordScratch
  | look s => [s]
  | request _ before _ after | reset before after | scope before after => [before, after]

/-- What every event of a run does. -/
def IsLawful : ScratchEvent → Prop
  | look _ => True
  | request r before answer after => IsAnswered r before answer after
  | reset _ after => after.used = 0
  | scope before after => after.used = before.used

/-- The program stops here. -/
def IsStop : ScratchEvent → Prop
  | request _ _ answer _ => answer = none
  | _ => False

end ScratchEvent

open WordScratch

/-- What a run does on words that match an account: it is the run on that account, its events are
lawful, and a stop is among them just if it has no result. -/
structure Scratch.Program.IsRun {α : Type} (p : Program α) (s : WordScratch) (t : Scratch)
    (a : Option α) (after : WordScratch) (log : List ScratchEvent) : Prop where
  run?_eq : p.run? s = some (a, after, log)
  work_eq : (p.work t).1 = a
  isMatch : after.Matches (p.work t).2
  isWithin : ∀ e ∈ log, ∀ u ∈ e.accounts, u.IsWithin s.budget
  isLawful : ∀ e ∈ log, e.IsLawful
  stops_iff : a = none ↔ ∃ e ∈ log, e.IsStop

/-- What serving a request does on words that match an account. -/
structure Scratch.Request.IsServed (r : Request) (s : WordScratch) (t : Scratch)
    (answer : Option (Except Failure Unit)) (s' : WordScratch) (t' : Scratch) : Prop where
  serve?_eq : s.serve? r = some (answer, s')
  work_eq : r.work t = (answer, t')
  isMatch : s'.Matches t'
  budget_eq : s'.budget = s.budget
  isWithin : ∀ u ∈ [s, s'], u.IsWithin s.budget
  isAnswered : IsAnswered r s answer s'

theorem WordScratch.Matches.exists_isServed {s : WordScratch} {t : Scratch} (h : s.Matches t)
    (r : Request) : ∃ answer s' t', r.IsServed s t answer s' t' := by
  obtain ⟨s', hserve, h'⟩ := h.serve?_eq r
  have hbudget : s'.budget = s.budget := by
    rw [← UInt64.toNat_inj, ← h'.budget_eq, ← h.budget_eq]
    exact r.budget_work t
  refine ⟨_, s', _, hserve, rfl, h', hbudget, ?_, h.isAnswered r h'⟩
  simpa using ⟨h.isWithin, hbudget ▸ h'.isWithin⟩

namespace Scratch.Program

variable {α β : Type} {s s' : WordScratch} {t t' : Scratch} {r : Request}

/-- A request that stops the program is its last event. -/
theorem isRun_stopped (h : r.IsServed s t none s' t')
    (next : Except Failure Unit → Program α) :
    (request r next).IsRun s t none s' [.request r s none s'] := by
  have hwork : (request r next).work t = (none, t') := by rw [work_request, h.work_eq]
  refine ⟨?_, by rw [hwork], by rw [hwork]; exact h.isMatch, ?_, ?_, ?_⟩
  · simp [run?, h.serve?_eq]
  · exact List.forall_mem_cons.mpr ⟨h.isWithin, List.forall_mem_nil _⟩
  · exact List.forall_mem_cons.mpr ⟨h.isAnswered, List.forall_mem_nil _⟩
  · simp [ScratchEvent.IsStop]

/-- A scope does not catch a stop. -/
theorem isRun_scope_stopped {inner : WordScratch} {log : List ScratchEvent} {body : Program β}
    (h : body.IsRun s t none inner log) (next : β → Program α) :
    (scope body next).IsRun s t none inner log := by
  have hwork : (scope body next).work t = (none, (body.work t).2) := by
    rw [work_scope, show body.work t = (none, (body.work t).2) from Prod.ext h.work_eq rfl]
  refine ⟨?_, by rw [hwork], by rw [hwork]; exact h.isMatch, h.isWithin, h.isLawful, ?_⟩
  · simp [run?, h.run?_eq]
  · exact iff_of_true rfl (h.stops_iff.mp rfl)

variable {a : Option α} {after : WordScratch} {log : List ScratchEvent}

theorem isRun_look (h : s.Matches t) {next : UInt64 → UInt64 → UInt64 → Program α}
    (hrun : (next s.budget s.used (s.budget - s.used)).IsRun s t a after log) :
    (look next).IsRun s t a after (.look s :: log) := by
  have hwork : (look next).work t = (next s.budget s.used (s.budget - s.used)).work t := by
    rw [work_look, h.budget_eq, h.used_eq, ← h.toNat_remaining, UInt64.ofNat_toNat,
      UInt64.ofNat_toNat, UInt64.ofNat_toNat]
  refine ⟨?_, hwork ▸ hrun.work_eq, hwork ▸ hrun.isMatch, ?_, ?_, ?_⟩
  · simp [run?, h.remaining?_eq, hrun.run?_eq]
  · refine List.forall_mem_cons.mpr ⟨?_, hrun.isWithin⟩
    simpa [ScratchEvent.accounts] using h.isWithin
  · exact List.forall_mem_cons.mpr ⟨trivial, hrun.isLawful⟩
  · simpa [ScratchEvent.IsStop] using hrun.stops_iff

theorem isRun_answered {answer : Except Failure Unit} (h : r.IsServed s t (some answer) s' t')
    {next : Except Failure Unit → Program α} (hrun : (next answer).IsRun s' t' a after log) :
    (request r next).IsRun s t a after (.request r s (some answer) s' :: log) := by
  have hwork : (request r next).work t = (next answer).work t' := by rw [work_request, h.work_eq]
  refine ⟨?_, hwork ▸ hrun.work_eq, hwork ▸ hrun.isMatch, ?_, ?_, ?_⟩
  · simp [run?, h.serve?_eq, hrun.run?_eq]
  · exact List.forall_mem_cons.mpr ⟨h.isWithin, h.budget_eq ▸ hrun.isWithin⟩
  · exact List.forall_mem_cons.mpr ⟨h.isAnswered, hrun.isLawful⟩
  · simpa [ScratchEvent.IsStop] using hrun.stops_iff

theorem isRun_reset (h : s.Matches t) {next : Program α}
    (hrun : next.IsRun { s with used := 0 } (withBudget t.budget) a after log) :
    (reset next).IsRun s t a after (.reset s { s with used := 0 } :: log) := by
  refine ⟨?_, hrun.work_eq, hrun.isMatch, ?_, ?_, ?_⟩
  · simp [run?, hrun.run?_eq]
  · refine List.forall_mem_cons.mpr ⟨?_, hrun.isWithin⟩
    simpa [ScratchEvent.accounts] using ⟨h.isWithin, h.reset.isWithin⟩
  · exact List.forall_mem_cons.mpr ⟨rfl, hrun.isLawful⟩
  · simpa [ScratchEvent.IsStop] using hrun.stops_iff

/-- The charge is put back and no work changes the budget, so the account is the one before. -/
theorem isRun_scope (h : s.Matches t) {b : β} {inner : WordScratch}
    {innerLog : List ScratchEvent} {body : Program β} {next : β → Program α}
    (hbody : body.IsRun s t (some b) inner innerLog)
    (hrun : (next b).IsRun s t a after log) :
    (scope body next).IsRun s t a after (innerLog ++ .scope s s :: log) := by
  have hwork : (scope body next).work t = (next b).work t := by
    rw [work_scope, show body.work t = (some b, (body.work t).2) from Prod.ext hbody.work_eq rfl]
  have hbudget : inner.budget = s.budget := by
    rw [← UInt64.toNat_inj, ← hbody.isMatch.budget_eq, ← h.budget_eq]
    exact body.budget_work t
  refine ⟨?_, hwork ▸ hrun.work_eq, hwork ▸ hrun.isMatch, ?_, ?_, ?_⟩
  · simp [run?, hbody.run?_eq, hbudget, hrun.run?_eq]
  · refine List.forall_mem_append.mpr ⟨hbody.isWithin,
      List.forall_mem_cons.mpr ⟨?_, hrun.isWithin⟩⟩
    simpa [ScratchEvent.accounts] using h.isWithin
  · exact List.forall_mem_append.mpr ⟨hbody.isLawful,
      List.forall_mem_cons.mpr ⟨rfl, hrun.isLawful⟩⟩
  · have hgoes : ¬ ∃ e ∈ innerLog, e.IsStop := fun hstop => nomatch hbody.stops_iff.mpr hstop
    have hscope : ¬ (ScratchEvent.scope s s).IsStop := id
    rw [hrun.stops_iff]
    simp only [List.mem_append, List.mem_cons, or_and_right, exists_or, exists_eq_left, hgoes,
      hscope, false_or]

theorem exists_isRun (p : Program α) {s : WordScratch} {t : Scratch} (h : s.Matches t) :
    ∃ a after log, p.IsRun s t a after log := by
  -- By induction on the program, for all accounts: what carries it is that the words match the
  -- numbers of an account on which the charge is within the budget.
  induction p generalizing s t with
  | done a =>
    exact ⟨some a, s, [], rfl, rfl, h, List.forall_mem_nil _, List.forall_mem_nil _, by simp⟩
  | look next ih =>
    obtain ⟨a, after, log, hrun⟩ := ih s.budget s.used (s.budget - s.used) h
    exact ⟨a, after, _, isRun_look h hrun⟩
  | request r next ih =>
    obtain ⟨_ | answer, s', t', hserved⟩ := h.exists_isServed r
    · exact ⟨none, s', _, isRun_stopped hserved next⟩
    · obtain ⟨a, after, log, hrun⟩ := ih answer hserved.isMatch
      exact ⟨a, after, _, isRun_answered hserved hrun⟩
  | reset next ih =>
    obtain ⟨a, after, log, hrun⟩ := ih h.reset
    exact ⟨a, after, _, isRun_reset h hrun⟩
  | scope body next ihbody ih =>
    obtain ⟨_ | b, inner, innerLog, hbody⟩ := ihbody h
    · exact ⟨none, inner, innerLog, isRun_scope_stopped hbody next⟩
    · obtain ⟨a, after, log, hrun⟩ := ih b h
      exact ⟨a, after, _, isRun_scope h hbody hrun⟩

end Scratch.Program

namespace Scratch.Program

/-- No run of a program leaves its words, and it is the run on numbers. At every point the charge is
within the budget and what is left can be told. A request is charged just if its size is a byte
count and is left; it charges its size then, and else nothing. One that is charged is granted, up to
the size of the largest buffer; only a larger one stops the program. A scope gives back what was
charged in it, whatever its work did. -/
theorem run_stays_within {α : Type} (budget : UInt64) (p : Program α) :
    ∃ a after log, p.run? ⟨budget, 0⟩ = some (a, after, log) ∧
      (∃ t, p.work (.withBudget budget.toNat) = (a, t) ∧ after.Matches t) ∧
      (∀ e ∈ log, ∀ u ∈ e.accounts, u.IsWithin budget) ∧
      (∀ r before answer next, .request r before answer next ∈ log →
        IsAnswered r before answer next) ∧
      (∀ before next, .reset before next ∈ log → next.used = 0) ∧
      (∀ before next, .scope before next ∈ log → next.used = before.used) ∧
      (a = none ↔ ∃ r before next, .request r before none next ∈ log) := by
  have hstart : WordScratch.Matches ⟨budget, 0⟩ (.withBudget budget.toNat) := ⟨rfl, rfl⟩
  obtain ⟨a, after, log, hrun⟩ := p.exists_isRun hstart
  refine ⟨a, after, log, hrun.run?_eq, ⟨_, Prod.ext hrun.work_eq rfl, hrun.isMatch⟩, hrun.isWithin,
    fun _ _ _ _ => hrun.isLawful _, fun _ _ => hrun.isLawful _, fun _ _ => hrun.isLawful _, ?_⟩
  rw [hrun.stops_iff]
  constructor
  · rintro ⟨e, he, hstop⟩
    cases e with
    | request r before answer next => exact ⟨r, before, next, hstop ▸ he⟩
    | look _ | reset _ _ | scope _ _ => cases hstop
  · rintro ⟨r, before, next, he⟩
    exact ⟨_, he, rfl⟩

/-- A scope in a scope. The inner one resets the account and charges all of the budget, the outer
one goes on with a request that is too large to be counted. -/
def nestedScopes : Program UInt64 :=
  .request (.bytes 8) fun _ =>
    .scope
      (.request (.numbers 10 4) fun _ =>
        .scope (.reset (.request (.room 64) fun answer => .done answer)) fun answer =>
          .request (.numbers 2305843009213693952 8) fun _ => .done answer)
      fun _ => .look fun _ used _ => .done used

theorem run_stays_within_nested_scopes :
    ∃ log, nestedScopes.run? ⟨64, 0⟩ = some (some 8, ⟨64, 8⟩, log) ∧
      (∀ e ∈ log, ∀ u ∈ e.accounts, u.IsWithin 64) ∧
      .reset ⟨64, 48⟩ ⟨64, 0⟩ ∈ log ∧
      .scope ⟨64, 48⟩ ⟨64, 48⟩ ∈ log ∧
      .scope ⟨64, 8⟩ ⟨64, 8⟩ ∈ log ∧
      IsAnswered (.room 64) ⟨64, 0⟩ (some (.ok ())) ⟨64, 64⟩ ∧
      IsAnswered (.numbers 2305843009213693952 8) ⟨64, 48⟩ (some (.error .overflow)) ⟨64, 48⟩ := by
  obtain ⟨a, after, log, hrun, -, hwithin, hanswered, -, -, -⟩ := run_stays_within 64 nestedScopes
  have hsame : nestedScopes.run? ⟨64, 0⟩ = some (some 8, ⟨64, 8⟩,
      [.request (.bytes 8) ⟨64, 0⟩ (some (.ok ())) ⟨64, 8⟩,
        .request (.numbers 10 4) ⟨64, 8⟩ (some (.ok ())) ⟨64, 48⟩,
        .reset ⟨64, 48⟩ ⟨64, 0⟩,
        .request (.room 64) ⟨64, 0⟩ (some (.ok ())) ⟨64, 64⟩,
        .scope ⟨64, 48⟩ ⟨64, 48⟩,
        .request (.numbers 2305843009213693952 8) ⟨64, 48⟩ (some (.error .overflow)) ⟨64, 48⟩,
        .scope ⟨64, 8⟩ ⟨64, 8⟩,
        .look ⟨64, 8⟩]) := by
    cbv
  rw [hsame] at hrun
  cases hrun
  exact ⟨_, hsame, hwithin, by simp, by simp, by simp, hanswered _ _ _ _ (by simp),
    hanswered _ _ _ _ (by simp)⟩

/-- A request for half of all the bytes that a word can count. -/
def halfOfAll : Request := .room 9223372036854775808

/-- Not every request that is left of its budget is granted. -/
theorem request_not_granted :
    ¬ ∀ (budget : UInt64) (α : Type) (p : Program α) (a : Option α) (after : WordScratch)
      (log : List ScratchEvent), p.run? ⟨budget, 0⟩ = some (a, after, log) →
      ∀ r before answer next, .request r before answer next ∈ log →
        (answer = some (.ok ()) ↔
          r.cost < 2 ^ 64 ∧ r.cost ≤ before.budget.toNat - before.used.toNat) := by
  intro hclaim
  have hrun : (Program.request halfOfAll .done).run? ⟨18446744073709551615, 0⟩ =
      some (none, ⟨18446744073709551615, 9223372036854775808⟩,
        [.request halfOfAll ⟨18446744073709551615, 0⟩ none
          ⟨18446744073709551615, 9223372036854775808⟩]) := by
    cbv
  have hgranted := (hclaim _ _ _ _ _ _ hrun _ _ _ _ (List.mem_singleton_self _)).mpr (by decide)
  cases hgranted

end Scratch.Program

end CellCanvas
