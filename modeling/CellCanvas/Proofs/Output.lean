import CellCanvas.Output
import Mathlib.Tactic

/-!
# Buffers lose nothing

What an output buffer accepts leaves it in the same order and once: it is taken, delivered, or
dropped on request, and until then it is pending. A delivery goes to a sink, which may take the
bytes in as many parts as it likes. One that takes none leaves them pending for the next attempt.
-/

namespace CellCanvas

/-- A place that bytes are written to. After the bytes that it has taken so far it takes a number of
those that it is offered, or none for a reason; and it may fail when all is to be passed on. -/
structure Sink where
  write : ByteArray → ByteArray → Except IoFailure ℕ
  flush : ByteArray → Option IoFailure

namespace Sink

variable {k : Sink}

/-- Offer what is left until nothing is, or until a write fails or takes nothing: what the sink has
taken then, and the failure. -/
def writeAll (k : Sink) (taken offered : ByteArray) : ByteArray × Option IoFailure :=
  if offered.size = 0 then (taken, none)
  else match k.write taken offered with
    | .error e => (taken, some e)
    | .ok 0 => (taken, some (.other "failed to write whole buffer"))
    | .ok (n + 1) =>
      k.writeAll (taken ++ offered.extract 0 (n + 1)) (offered.extract (n + 1) offered.size)
termination_by offered.size
decreasing_by
  rw [ByteArray.size_extract]
  omega

/-- Write all of the bytes and pass them on: what the sink has taken, and the failure. -/
def receive (k : Sink) (bytes : ByteArray) : ByteArray × Option IoFailure :=
  match k.writeAll .empty bytes with
  | (taken, none) => (taken, k.flush taken)
  | (taken, some e) => (taken, some e)

/-- A sink that works takes some of what it is offered at each write. -/
structure Works (k : Sink) : Prop where
  takes : ∀ taken offered, 0 < offered.size →
    ∃ n, 0 < n ∧ n ≤ offered.size ∧ k.write taken offered = .ok n
  flushes : ∀ taken, k.flush taken = none

/-- A sink that fails takes nothing at any write. -/
def Fails (k : Sink) : Prop := ∀ taken offered, ∃ e, k.write taken offered = .error e

theorem Works.writeAll (h : k.Works) (taken offered : ByteArray) :
    k.writeAll taken offered = (taken ++ offered, none) := by
  fun_induction k.writeAll taken offered with
  | case1 taken offered hempty =>
    rw [ByteArray.size_eq_zero_iff.mp hempty, ByteArray.append_empty]
  | case2 taken offered hpos e he =>
    obtain ⟨n, -, -, hn⟩ := h.takes taken offered (Nat.pos_of_ne_zero hpos)
    rw [hn] at he
    cases he
  | case3 taken offered hpos hzero =>
    obtain ⟨n, hn₀, -, hn⟩ := h.takes taken offered (Nat.pos_of_ne_zero hpos)
    rw [hn] at hzero
    cases hzero
    omega
  | case4 taken offered hpos n hn ih =>
    obtain ⟨m, -, hle, hm⟩ := h.takes taken offered (Nat.pos_of_ne_zero hpos)
    rw [hm] at hn
    cases hn
    rw [ih, ByteArray.append_assoc, ByteArray.extract_append_extract, Nat.zero_min,
      Nat.max_eq_right hle, ByteArray.extract_zero_size]

theorem Works.receive (h : k.Works) (bytes : ByteArray) : k.receive bytes = (bytes, none) := by
  rw [Sink.receive, h.writeAll, ByteArray.empty_append]
  dsimp only
  rw [h.flushes]

theorem Fails.receive (h : k.Fails) {bytes : ByteArray} (hbytes : bytes.size ≠ 0) :
    ∃ e, k.receive bytes = (.empty, some e) := by
  obtain ⟨e, he⟩ := h .empty bytes
  refine ⟨e, ?_⟩
  rw [Sink.receive, writeAll, if_neg hbytes, he]

/-- A sink that refuses every byte. -/
def broken : Sink := ⟨fun _ _ => .error (.brokenPipe "broken"), fun _ => none⟩

theorem fails_broken : broken.Fails := fun _ _ => ⟨_, rfl⟩

/-- A sink that takes one byte at a time. -/
def bytewise : Sink := ⟨fun _ _ => .ok 1, fun _ => none⟩

theorem works_bytewise : bytewise.Works :=
  ⟨fun _ _ hpos => ⟨1, Nat.one_pos, hpos, rfl⟩, fun _ => rfl⟩

end Sink

namespace Output

variable {o : Output} {bytes : ByteArray} {k : Sink}

theorem append_of_le (h : bytes.size ≤ o.remaining) : o.append bytes = .ok (o.push bytes) :=
  if_pos (decide_eq_true h)

theorem append_of_lt (h : o.remaining < bytes.size) :
    o.append bytes = .error (.limit .output) :=
  if_neg (by simpa [admits] using h)

theorem accept_of_le (h : bytes.size ≤ o.remaining) :
    o.accept bytes = (o.push bytes, .ok bytes.size) := by
  rw [accept, append_of_le h]

theorem accept_of_lt (h : o.remaining < bytes.size) :
    o.accept bytes = (o, .error .writeZero) := by
  rw [accept, append_of_lt h]

theorem size_push_le {n : ℕ} (hlimit : o.limit = some n) (hpending : o.pending.size ≤ n)
    (h : bytes.size ≤ o.remaining) : (o.push bytes).pending.size ≤ n := by
  rw [remaining, hlimit] at h
  change (o.pending ++ bytes).size ≤ n
  rw [ByteArray.size_append]
  dsimp only at h
  omega

/-- Pieces are accepted one by one up to the first that is refused. -/
theorem write_cons (o : Output) (piece : String) (pieces : List String) :
    o.write (piece :: pieces) = match o.accept piece.toUTF8 with
      | (after, .ok _) => after.write pieces
      | (after, .error e) => (after, some e) := by
  have hsize : piece.toUTF8.size = piece.utf8ByteSize := rfl
  rw [write, admits, ← hsize]
  by_cases h : piece.toUTF8.size ≤ o.remaining
  · rw [if_pos (decide_eq_true h), accept_of_le h]
  · rw [if_neg (by simpa using h), accept_of_lt (Nat.lt_of_not_le h)]

/-- Deliver the pending bytes to a sink, which is not asked when there are none. -/
def deliver (o : Output) (k : Sink) : Output × Option IoFailure :=
  o.flush fun bytes => (k.receive bytes).2

/-- What a sink takes of a delivery. -/
def received (o : Output) (k : Sink) : ByteArray :=
  if o.pending.isEmpty then .empty else (k.receive o.pending).1

theorem isEmpty_pending : o.pending.isEmpty = true ↔ o.pending.size = 0 := by
  simp [ByteArray.isEmpty]

theorem clear_of_isEmpty (h : o.pending.isEmpty = true) : o.clear = o := by
  rw [clear, ← ByteArray.size_eq_zero_iff.mp (isEmpty_pending.mp h)]

theorem deliver_of_works (h : k.Works) :
    o.deliver k = (o.clear, none) ∧ o.received k = o.pending := by
  unfold deliver received flush
  split_ifs with hempty
  · rw [clear_of_isEmpty hempty]
    exact ⟨rfl, (ByteArray.size_eq_zero_iff.mp (isEmpty_pending.mp hempty)).symm⟩
  · dsimp only
    rw [h.receive]
    exact ⟨rfl, rfl⟩

theorem deliver_of_fails (h : k.Fails) :
    (o.deliver k).1 = o ∧ o.received k = .empty := by
  unfold deliver received flush
  split_ifs with hempty
  · exact ⟨rfl, rfl⟩
  · obtain ⟨e, he⟩ := h.receive fun hsize => hempty (isEmpty_pending.mpr hsize)
    dsimp only
    rw [he]
    exact ⟨rfl, rfl⟩

/-- One use of a buffer. Deliveries go to sinks that work, or that fail. -/
inductive Call where
  | append (bytes : ByteArray)
  | write (bytes : ByteArray)
  | clear
  | take
  | deliver (k : Sink) (h : k.Works ∨ k.Fails)

/-- A call after which nothing is pending. -/
def Call.Empties : Call → Prop
  | append _ | write _ => False
  | clear | take => True
  | deliver k _ => k.Works

/-- A buffer with all that it has accepted and all that has left it, each in order. -/
structure Traffic where
  output : Output
  accepted : ByteArray
  departed : ByteArray

namespace Traffic

/-- A new buffer. -/
def start (limit : Option ℕ) : Traffic := ⟨limit.elim unbounded withLimit, .empty, .empty⟩

/-- What one call does. Bytes depart when they are dropped or taken, or when a sink has them. -/
def step (t : Traffic) : Call → Traffic
  | .append bytes =>
    match t.output.append bytes with
    | .ok after => { t with output := after, accepted := t.accepted ++ bytes }
    | .error _ => t
  | .write bytes =>
    match t.output.accept bytes with
    | (after, .ok n) => { t with output := after, accepted := t.accepted ++ bytes.extract 0 n }
    | (after, .error _) => { t with output := after }
  | .clear => { t with output := t.output.clear, departed := t.departed ++ t.output.pending }
  | .take => { t with output := t.output.take.1, departed := t.departed ++ t.output.take.2 }
  | .deliver k _ =>
    { t with output := (t.output.deliver k).1, departed := t.departed ++ t.output.received k }

/-- One call after the other. -/
def run (t : Traffic) (calls : List Call) : Traffic := calls.foldl step t

/-- What has left a buffer and what is pending make up what it has accepted, within its limit. -/
structure IsKept (limit : Option ℕ) (t : Traffic) : Prop where
  limit_eq : t.output.limit = limit
  size_le : ∀ n, limit = some n → t.output.pending.size ≤ n
  accepted_eq : t.departed ++ t.output.pending = t.accepted

namespace IsKept

variable {limit : Option ℕ} {t : Traffic}

theorem start (limit : Option ℕ) : IsKept limit (start limit) := by
  cases limit with
  | none => exact ⟨rfl, fun _ _ => Nat.zero_le _, ByteArray.append_empty⟩
  | some n => exact ⟨rfl, fun _ _ => Nat.zero_le _, ByteArray.append_empty⟩

theorem remaining_eq (h : IsKept limit t) :
    t.output.remaining = limit.elim (2 ^ 64 - 1) (· - t.output.pending.size) := by
  rw [remaining, h.limit_eq]
  cases limit with
  | none => rfl
  | some n => rfl

theorem push (h : IsKept limit t) (hle : bytes.size ≤ t.output.remaining) :
    IsKept limit
      { t with output := t.output.push bytes, accepted := t.accepted ++ bytes } where
  limit_eq := h.limit_eq
  size_le n hn := size_push_le (h.limit_eq.trans hn) (h.size_le n hn) hle
  accepted_eq := by
    change t.departed ++ (t.output.pending ++ bytes) = _
    rw [← ByteArray.append_assoc, h.accepted_eq]

theorem drop (h : IsKept limit t) :
    IsKept limit
      { t with output := t.output.clear, departed := t.departed ++ t.output.pending } where
  limit_eq := h.limit_eq
  size_le _ _ := Nat.zero_le _
  accepted_eq := ByteArray.append_empty.trans h.accepted_eq

end IsKept

variable {t : Traffic}

theorem step_append_of_le (h : bytes.size ≤ t.output.remaining) :
    t.step (.append bytes) =
      { t with output := t.output.push bytes, accepted := t.accepted ++ bytes } := by
  rw [step, append_of_le h]

theorem step_append_of_lt (h : t.output.remaining < bytes.size) : t.step (.append bytes) = t := by
  rw [step, append_of_lt h]

theorem step_write_of_le (h : bytes.size ≤ t.output.remaining) :
    t.step (.write bytes) =
      { t with output := t.output.push bytes, accepted := t.accepted ++ bytes } := by
  rw [step, accept_of_le h]
  dsimp only
  rw [ByteArray.extract_zero_size]

theorem step_write_of_lt (h : t.output.remaining < bytes.size) : t.step (.write bytes) = t := by
  rw [step, accept_of_lt h]

theorem step_deliver_of_works (h : k.Works) :
    t.step (.deliver k (.inl h)) =
      { t with output := t.output.clear, departed := t.departed ++ t.output.pending } := by
  obtain ⟨hdeliver, hreceived⟩ := deliver_of_works (o := t.output) h
  rw [step, hdeliver, hreceived]

theorem step_of_empties {c : Call} (h : c.Empties) :
    t.step c =
      { t with output := t.output.clear, departed := t.departed ++ t.output.pending } := by
  cases c with
  | append bytes | write bytes => cases h
  | clear | take => rfl
  | deliver k hk => exact step_deliver_of_works h

theorem step_deliver_of_fails (h : k.Fails) : t.step (.deliver k (.inr h)) = t := by
  obtain ⟨hdeliver, hreceived⟩ := deliver_of_fails (o := t.output) h
  rw [step, hdeliver, hreceived, ByteArray.append_empty]

theorem IsKept.step {limit : Option ℕ} (h : IsKept limit t) (c : Call) :
    IsKept limit (t.step c) := by
  cases c with
  | append bytes =>
    rcases le_or_gt bytes.size t.output.remaining with hle | hlt
    · rw [step_append_of_le hle]
      exact h.push hle
    · rwa [step_append_of_lt hlt]
  | write bytes =>
    rcases le_or_gt bytes.size t.output.remaining with hle | hlt
    · rw [step_write_of_le hle]
      exact h.push hle
    · rwa [step_write_of_lt hlt]
  | clear => exact h.drop
  | take => exact h.drop
  | deliver k hk =>
    rcases hk with hk | hk
    · rw [step_deliver_of_works hk]
      exact h.drop
    · rwa [step_deliver_of_fails hk]

theorem IsKept.run {limit : Option ℕ} (h : IsKept limit t) (calls : List Call) :
    IsKept limit (t.run calls) := by
  induction calls generalizing t with
  | nil => exact h
  | cons c calls ih => exact ih (h.step c)

/-- Whatever is done with a buffer, it takes just the bytes that fit and refuses others without any
effect, it stays within its limit, and what has been taken from it, delivered or dropped, with what
is pending after it, is what it has accepted. To take, to drop and to deliver lets all that is
pending depart and leaves nothing; a delivery that fails leaves all as it was. -/
theorem traffic_kept (limit : Option ℕ) (calls : List Call) :
    let t := (start limit).run calls
    t.departed ++ t.output.pending = t.accepted ∧
      (∀ n, limit = some n → t.output.pending.size ≤ n) ∧
      t.output.remaining = limit.elim (2 ^ 64 - 1) (· - t.output.pending.size) ∧
      (∀ bytes, ((∃ after, t.output.append bytes = .ok after) ↔
          bytes.size ≤ t.output.remaining) ∧
        ((∃ after, t.output.accept bytes = (after, .ok bytes.size)) ↔
          bytes.size ≤ t.output.remaining)) ∧
      (∀ bytes, bytes.size ≤ t.output.remaining →
        (t.step (.append bytes)).accepted = t.accepted ++ bytes ∧
          (t.step (.write bytes)).accepted = t.accepted ++ bytes) ∧
      (∀ bytes, t.output.remaining < bytes.size →
        t.step (.append bytes) = t ∧ t.step (.write bytes) = t) ∧
      (∀ k (h : k.Works), (t.step (.deliver k (.inl h))).departed =
        t.departed ++ t.output.pending) ∧
      (∀ k (h : k.Fails), t.step (.deliver k (.inr h)) = t) ∧
      ∀ c : Call, c.Empties → (t.step c).departed = t.departed ++ t.output.pending ∧
        (t.step c).output.pending = .empty := by
  intro t
  have hkept : IsKept limit t := (IsKept.start limit).run calls
  refine ⟨hkept.accepted_eq, hkept.size_le, hkept.remaining_eq, ?_, ?_, ?_, ?_, ?_, ?_⟩
  · intro bytes
    rcases le_or_gt bytes.size t.output.remaining with hle | hlt
    · rw [append_of_le hle, accept_of_le hle]
      exact ⟨iff_of_true ⟨_, rfl⟩ hle, iff_of_true ⟨_, rfl⟩ hle⟩
    · rw [append_of_lt hlt, accept_of_lt hlt]
      have hnot := Nat.not_le.mpr hlt
      refine ⟨iff_of_false nofun hnot, iff_of_false ?_ hnot⟩
      rintro ⟨after, hafter⟩
      cases hafter
  · intro bytes hle
    rw [step_append_of_le hle, step_write_of_le hle]
    exact ⟨rfl, rfl⟩
  · intro bytes hlt
    exact ⟨step_append_of_lt hlt, step_write_of_lt hlt⟩
  · intro k hk
    rw [step_deliver_of_works hk]
  · intro k hk
    exact step_deliver_of_fails hk
  · intro c hc
    rw [step_of_empties hc]
    exact ⟨rfl, rfl⟩

/-- A piece that does not fit, a delivery that fails, and the same delivery again. -/
def retry : List Call :=
  [.append "12345".toUTF8, .append "6789".toUTF8, .deliver .broken (.inr Sink.fails_broken),
    .write "678".toUTF8, .deliver .bytewise (.inl Sink.works_bytewise), .write "9".toUTF8]

theorem traffic_kept_retry :
    let t := (start (some 8)).run retry
    t.accepted = "123456789".toUTF8 ∧ t.departed = "12345678".toUTF8 ∧
      t.departed ++ t.output.pending = t.accepted ∧ t.output.pending.size ≤ 8 ∧
      t.output.remaining < "abcdefgh".toUTF8.size ∧ t.step (.append "abcdefgh".toUTF8) = t ∧
      t.step (.deliver .broken (.inr Sink.fails_broken)) = t ∧
      (t.step (.deliver .bytewise (.inl Sink.works_bytewise))).departed =
        t.departed ++ t.output.pending := by
  intro t
  have hfull : t.output.remaining < "abcdefgh".toUTF8.size := by decide +kernel
  obtain ⟨hkept, hlimit, -, -, -, hrefused, hworks, hfails, -⟩ := traffic_kept (some 8) retry
  exact ⟨by decide +kernel, by decide +kernel, hkept, hlimit 8 rfl, hfull, (hrefused _ hfull).1,
    hfails _ Sink.fails_broken, hworks _ Sink.works_bytewise⟩

end Traffic

end Output

end CellCanvas
