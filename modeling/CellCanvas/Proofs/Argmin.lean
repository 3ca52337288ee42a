import CellCanvas.Argmin
import Mathlib.Order.Bounds.Basic
import Mathlib.Order.Interval.Set.Basic
import Mathlib.Tactic

/-!
# The first of the least

A search for the least value of a function gives a member of a set where the function is least, and
of several such members the first. So its answer is settled by the set and the function alone, and
the answers for two sets settle that for their union.
-/

namespace CellCanvas.Argmin

variable {f : ℕ → ℕ} {s t : Set ℕ} {i j : ℕ}

/-- A member of a set at which a function is least, and the first of all that are. -/
structure IsFirst (f : ℕ → ℕ) (s : Set ℕ) (i : ℕ) : Prop where
  mem : i ∈ s
  le : ∀ j ∈ s, f i ≤ f j
  first : ∀ j ∈ s, f j ≤ f i → i ≤ j

theorem isFirst_leastUpTo (f : ℕ → ℕ) (n : ℕ) : IsFirst f (Set.Iic n) (leastUpTo f n).1 where
  mem := leastUpTo_fst_le f n
  le j hj := leastUpTo_le f n j hj
  first j _ hle := by
    by_contra hlt
    have := leastUpTo_lt f n j (Nat.lt_of_not_le hlt)
    omega

theorem IsFirst.isLeast (h : IsFirst f s i) : IsLeast {i ∈ s | ∀ j ∈ s, f i ≤ f j} i :=
  ⟨⟨h.mem, h.le⟩, fun j hj => h.first j hj.1 (hj.2 i h.mem)⟩

theorem IsFirst.unique (hi : IsFirst f s i) (hj : IsFirst f s j) : i = j :=
  hi.isLeast.unique hj.isLeast

/-- The numbering of the members may start elsewhere. -/
theorem IsFirst.shift (h : IsFirst f s i) (n : ℕ) {g : ℕ → ℕ} (hg : ∀ k ∈ s, g (n + k) = f k) :
    IsFirst g ((n + ·) '' s) (n + i) where
  mem := ⟨i, h.mem, rfl⟩
  le := by
    rintro _ ⟨k, hk, rfl⟩
    rw [hg i h.mem, hg k hk]
    exact h.le k hk
  first := by
    rintro _ ⟨k, hk, rfl⟩ hle
    rw [hg i h.mem, hg k hk] at hle
    exact Nat.add_le_add_left (h.first k hk hle) n

/-- Of the answers for two sets the better one, or the smaller of two that are as good, is the
answer for both sets together. -/
theorem IsFirst.union (hi : IsFirst f s i) (hj : IsFirst f t j) :
    IsFirst f (s ∪ t) (if f i < f j then i else if f j < f i then j else min i j) := by
  split_ifs with hleft hright
  · refine ⟨.inl hi.mem, ?_, ?_⟩
    · rintro k (hk | hk)
      · exact hi.le k hk
      · exact hleft.le.trans (hj.le k hk)
    · rintro k (hk | hk) hle
      · exact hi.first k hk hle
      · exact absurd (hj.le k hk) (by omega)
  · refine ⟨.inr hj.mem, ?_, ?_⟩
    · rintro k (hk | hk)
      · exact hright.le.trans (hi.le k hk)
      · exact hj.le k hk
    · rintro k (hk | hk) hle
      · exact absurd (hi.le k hk) (by omega)
      · exact hj.first k hk hle
  · have heq : f i = f j := by omega
    have hmin : f (min i j) = f i := by
      rcases min_choice i j with h | h <;> rw [h]
      exact heq.symm
    refine ⟨?_, ?_, ?_⟩
    · rcases min_choice i j with h | h <;> rw [h]
      · exact .inl hi.mem
      · exact .inr hj.mem
    · rw [hmin]
      rintro k (hk | hk)
      · exact hi.le k hk
      · exact heq.le.trans (hj.le k hk)
    · rw [hmin]
      rintro k (hk | hk) hle
      · exact (min_le_left i j).trans (hi.first k hk hle)
      · exact (min_le_right i j).trans (hj.first k hk (hle.trans heq.le))

end CellCanvas.Argmin
