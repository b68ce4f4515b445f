/-
# Indexes that go round

An index into a ring of `n` places goes back to zero after the last one. The index that has
been moved on `k` times is the remainder of `k`, and two counts less than a whole round
apart lead to different places.
-/

import Mathlib.Data.Nat.ModEq

namespace En7512.Logic

/-- The next index in a ring of `n` places, with the test that drivers write. -/
def nextIdx (n i : ℕ) : ℕ := if i = n - 1 then 0 else i + 1

variable {n a b : ℕ}

/-- After the last place comes the first one. -/
theorem nextIdx_last (k : ℕ) : nextIdx (k + 1) k = 0 := if_pos rfl

/-- Moving an index on counts one more. -/
theorem nextIdx_mod (pos : 0 < n) (k : ℕ) : nextIdx n (k % n) = (k + 1) % n := by
  have below := Nat.mod_lt k pos
  rw [nextIdx, ← Nat.mod_add_mod]
  by_cases last : k % n = n - 1
  · have whole : k % n + 1 = n := by omega
    rw [if_pos last, whole, Nat.mod_self]
  · rw [if_neg last]
    exact (Nat.mod_eq_of_lt (by omega)).symm

/-- Counts in one round lead to the same place only if they are equal. -/
theorem eq_of_mod_eq (same : a % n = b % n) (le : a ≤ b) (lt : b < a + n) : a = b := by
  have divides : n ∣ b - a := (Nat.modEq_iff_dvd' le).mp same
  have zero : b - a = 0 := Nat.eq_zero_of_dvd_of_lt divides (by omega)
  omega

end En7512.Logic
