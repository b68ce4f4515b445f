/-
# Sums with end-around carry

In one's complement arithmetic a carry out of the highest bit is added back at the lowest.
With `m` for the number whose bits are all set, which is zero like zero itself, such a sum
is a remainder by `m`, except that it is zero only if every summand is; so the complement of
a sum is the number that completes it to `m`.
-/

import Mathlib.Algebra.Order.Group.Nat
import Mathlib.Algebra.Ring.Nat
import Mathlib.Data.List.Basic

namespace En7512.Logic

/-- The sum with the carry out of `m` added back. -/
def endAround (m a b : ℕ) : ℕ := if a + b ≤ m then a + b else a + b - m

/-- The sum with end-around carry of a list. -/
def onesSum (m : ℕ) (l : List ℕ) : ℕ := l.foldr (endAround m) 0

/-- The number up to `m` that the sum `s` comes to. Only zero comes to zero. -/
def onesReduce (m s : ℕ) : ℕ := if s = 0 then 0 else (s - 1) % m + 1

variable {m a s : ℕ} {l : List ℕ}

@[simp] theorem onesReduce_zero (m : ℕ) : onesReduce m 0 = 0 := rfl

theorem onesReduce_succ (m s : ℕ) : onesReduce m (s + 1) = s % m + 1 := rfl

theorem onesReduce_le (pos : 0 < m) (s : ℕ) : onesReduce m s ≤ m := by
  cases s with
  | zero => exact Nat.zero_le m
  | succ s => exact Nat.mod_lt s pos

theorem onesReduce_of_le (h : s ≤ m) : onesReduce m s = s := by
  cases s with
  | zero => rfl
  | succ s => rw [onesReduce_succ, Nat.mod_eq_of_lt h]

/-- Adding a multiple of `m` changes no sum but zero. -/
theorem onesReduce_add_mul (h : 0 < s) (c : ℕ) : onesReduce m (s + c * m) = onesReduce m s := by
  cases s with
  | zero => exact absurd h (Nat.lt_irrefl 0)
  | succ s => rw [Nat.add_right_comm, onesReduce_succ, onesReduce_succ, Nat.add_mul_mod_self_right]

/-- One more summand. -/
theorem endAround_onesReduce (pos : 0 < m) (ha : a ≤ m) (s : ℕ) :
    endAround m a (onesReduce m s) = onesReduce m (a + s) := by
  cases s with
  | zero => rw [onesReduce_zero, endAround, Nat.add_zero, if_pos ha, onesReduce_of_le ha]
  | succ s =>
      have small : s % m < m := Nat.mod_lt s pos
      rw [← Nat.add_assoc, onesReduce_succ, onesReduce_succ, endAround, ← Nat.add_mod_mod a s m]
      generalize s % m = r at small ⊢
      by_cases fits : a + (r + 1) ≤ m
      · rw [if_pos fits, Nat.mod_eq_of_lt (show a + r < m from fits), Nat.add_assoc]
      · have carry : a + r - m < m := by omega
        rw [if_neg fits, Nat.mod_eq_sub_mod (by omega), Nat.mod_eq_of_lt carry]
        omega

/-- The sum with end-around carry in terms of the ordinary sum. -/
theorem onesSum_eq (pos : 0 < m) (h : ∀ a ∈ l, a ≤ m) : onesSum m l = onesReduce m l.sum := by
  induction l with
  | nil => rfl
  | cons a l ih =>
      have tail := ih fun b hb => h b (List.mem_cons_of_mem _ hb)
      show endAround m a (onesSum m l) = _
      rw [tail, List.sum_cons, endAround_onesReduce pos (h a List.mem_cons_self)]

/-- A sum and its complement come to `m`. -/
theorem onesReduce_add_complement (pos : 0 < m) (s : ℕ) :
    onesReduce m (s + (m - onesReduce m s)) = m := by
  rw [Nat.add_comm, ← endAround_onesReduce pos (Nat.sub_le m _), endAround,
    Nat.sub_add_cancel (onesReduce_le pos s), if_pos le_rfl]

end En7512.Logic
