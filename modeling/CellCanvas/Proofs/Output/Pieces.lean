import CellCanvas.Proofs.Output

/-!
# Pieces in a buffer

A buffer is a sink too: it takes all that it is offered, or none of it. So pieces that are written
one by one are taken up to the first that does not fit, and what the buffer has then is what it had
before with these pieces behind it.
-/

namespace CellCanvas

namespace Output

variable {o : Output} {pieces : List String}

/-- A buffer with a limit as a sink. -/
def sink (limit : Option ℕ) : Sink where
  write taken offered := (accept ⟨taken, limit⟩ offered).2
  flush _ := none

theorem writeAll_sink (o : Output) (bytes : ByteArray) :
    (sink o.limit).writeAll o.pending bytes = match o.accept bytes with
      | (after, .ok _) => (after.pending, none)
      | (after, .error e) => (after.pending, some e) := by
  rw [Sink.writeAll]
  split_ifs with hempty
  · rw [accept_of_le (by omega), push, ByteArray.size_eq_zero_iff.mp hempty]
    exact congrArg (·, none) ByteArray.append_empty.symm
  · rcases le_or_gt bytes.size o.remaining with hle | hlt
    · obtain ⟨n, hn⟩ := Nat.exists_eq_succ_of_ne_zero hempty
      have hwrite : (sink o.limit).write o.pending bytes = .ok (n + 1) := by
        rw [← Nat.succ_eq_add_one, ← hn]
        exact congrArg Prod.snd (accept_of_le hle)
      rw [hwrite, accept_of_le hle]
      dsimp only
      rw [Sink.writeAll, if_pos (by rw [ByteArray.size_extract]; omega), ← Nat.succ_eq_add_one,
        ← hn, ByteArray.extract_zero_size]
      rfl
    · have hwrite : (sink o.limit).write o.pending bytes = .error .writeZero :=
        congrArg Prod.snd (accept_of_lt hlt)
      rw [hwrite, accept_of_lt hlt]

theorem le_remaining_push {bytes : ByteArray} {n : ℕ} (h : bytes.size + n ≤ o.remaining) :
    n ≤ (o.push bytes).remaining := by
  obtain ⟨pending, limit⟩ := o
  cases limit with
  | none =>
    change bytes.size + n ≤ Size.largest at h
    change n ≤ Size.largest
    omega
  | some m =>
    change bytes.size + n ≤ m - pending.size at h
    change n ≤ m - (pending ++ bytes).size
    rw [ByteArray.size_append]
    omega

theorem remaining_push_of_limit {n : ℕ} (hlimit : o.limit = some n) (bytes : ByteArray) :
    (o.push bytes).remaining = o.remaining - bytes.size := by
  obtain ⟨pending, limit⟩ := o
  dsimp only at hlimit
  subst hlimit
  change n - (pending ++ bytes).size = n - pending.size - bytes.size
  rw [ByteArray.size_append]
  omega

theorem push_push (o : Output) (a b : ByteArray) : (o.push a).push b = o.push (a ++ b) := by
  rw [push, push, push, ByteArray.append_assoc]

theorem push_empty (o : Output) : o.push .empty = o := by
  rw [push, ByteArray.append_empty]

theorem toUTF8_join_cons (piece : String) (pieces : List String) :
    (String.join (piece :: pieces)).toUTF8 = piece.toUTF8 ++ (String.join pieces).toUTF8 := by
  rw [String.join_cons]
  exact String.toByteArray_append

/-- Pieces that fit together are all taken. -/
theorem write_of_le (h : (String.join pieces).toUTF8.size ≤ o.remaining) :
    o.write pieces = (o.push (String.join pieces).toUTF8, none) := by
  induction pieces generalizing o with
  | nil => exact congrArg (·, none) o.push_empty.symm
  | cons piece pieces ih =>
    rw [toUTF8_join_cons] at h ⊢
    rw [ByteArray.size_append] at h
    rw [write_cons, accept_of_le (by omega)]
    dsimp only
    rw [ih (le_remaining_push h), push_push]

/-- A list of pieces, cut before one that does not fit behind those before it. -/
structure IsCut (o : Output) (pieces before : List String) (piece : String)
    (after : List String) : Prop where
  pieces_eq : pieces = before ++ piece :: after
  fits : (String.join before).toUTF8.size ≤ o.remaining
  lacks : o.remaining < (String.join before).toUTF8.size + piece.toUTF8.size

/-- Of pieces that do not fit together those before the first that does not fit are taken. -/
theorem write_of_lt {n : ℕ} (hlimit : o.limit = some n)
    (h : o.remaining < (String.join pieces).toUTF8.size) :
    ∃ before piece after, o.IsCut pieces before piece after ∧
      o.write pieces = (o.push (String.join before).toUTF8, some .writeZero) := by
  -- By induction on the pieces, since a piece that is taken leaves the same limit to the others.
  induction pieces generalizing o with
  | nil => exact absurd h (Nat.not_lt_zero _)
  | cons piece pieces ih =>
    rw [toUTF8_join_cons, ByteArray.size_append] at h
    rcases le_or_gt piece.toUTF8.size o.remaining with hle | hlt
    · have hremaining := remaining_push_of_limit hlimit piece.toUTF8
      obtain ⟨before, next, after, ⟨rfl, hfits, hlacks⟩, hwrite⟩ :=
        ih (o := o.push piece.toUTF8) hlimit (by omega)
      refine ⟨piece :: before, next, after, ⟨rfl, ?_, ?_⟩, ?_⟩
      · rw [toUTF8_join_cons, ByteArray.size_append]
        omega
      · rw [toUTF8_join_cons, ByteArray.size_append]
        omega
      · rw [write_cons, accept_of_le hle]
        dsimp only
        rw [hwrite, toUTF8_join_cons, push_push]
    · refine ⟨[], piece, pieces, ⟨rfl, Nat.zero_le _, by simpa using hlt⟩, ?_⟩
      rw [write_cons, accept_of_lt hlt]
      exact congrArg (·, some _) o.push_empty.symm

end Output

end CellCanvas
