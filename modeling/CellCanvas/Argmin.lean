/-!
# First minimum

`leastUpTo f n` is the first index of `0, …, n` at which `f` is smallest, with that value. It is
the tie rule of every nearest-colour and best-split search here: the smaller index wins.
-/

namespace CellCanvas.Argmin

/-- The first index of the least value of `f` on `0, …, n`, with the value. -/
def leastUpTo (f : Nat → Nat) : Nat → Nat × Nat
  | 0 => (0, f 0)
  | n + 1 =>
    let best := leastUpTo f n
    let v := f (n + 1)
    if v < best.2 then (n + 1, v) else best

theorem leastUpTo_snd (f : Nat → Nat) (n : Nat) :
    (leastUpTo f n).2 = f (leastUpTo f n).1 := by
  induction n with
  | zero => rfl
  | succ n ih => simp only [leastUpTo]; split <;> simp_all

theorem leastUpTo_fst_le (f : Nat → Nat) (n : Nat) : (leastUpTo f n).1 ≤ n := by
  induction n with
  | zero => exact Nat.le_refl 0
  | succ n ih =>
    simp only [leastUpTo]
    split
    · exact Nat.le_refl _
    · omega

private theorem leastUpTo_snd_le (f : Nat → Nat) (n i : Nat) (h : i ≤ n) :
    (leastUpTo f n).2 ≤ f i := by
  induction n with
  | zero =>
    obtain rfl : i = 0 := by omega
    exact Nat.le_refl _
  | succ n ih =>
    simp only [leastUpTo]
    by_cases hi : i = n + 1
    · subst hi
      split
      · exact Nat.le_refl _
      · omega
    · have := ih (by omega)
      split
      · simp only; omega
      · exact this

theorem leastUpTo_le (f : Nat → Nat) (n i : Nat) (h : i ≤ n) :
    f (leastUpTo f n).1 ≤ f i :=
  leastUpTo_snd f n ▸ leastUpTo_snd_le f n i h

private theorem leastUpTo_snd_lt (f : Nat → Nat) (n i : Nat) (h : i < (leastUpTo f n).1) :
    (leastUpTo f n).2 < f i := by
  induction n with
  | zero => simp [leastUpTo] at h
  | succ n ih =>
    simp only [leastUpTo] at h ⊢
    split at h
    · rename_i hv
      rw [if_pos hv]
      have hi := leastUpTo_snd_le f n i (by simp only at h; omega)
      simp only
      omega
    · rename_i hv
      rw [if_neg hv]
      exact ih h

theorem leastUpTo_lt (f : Nat → Nat) (n i : Nat) (h : i < (leastUpTo f n).1) :
    f (leastUpTo f n).1 < f i :=
  leastUpTo_snd f n ▸ leastUpTo_snd_lt f n i h

end CellCanvas.Argmin
