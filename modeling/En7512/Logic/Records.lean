/-
# Packed records in memory

A layout says how a value lies in the first cells of a memory: it is read from them and
written to them, and the cells behind them are neither looked at nor changed. A record
that is packed is its first field followed by the others, so its layout is put together
from theirs, and what was written is read back.
-/

import Mathlib.Logic.Equiv.Basic
import Mathlib.Logic.Function.Basic

namespace En7512.Logic

variable {β α γ : Type} {m m' : ℕ → β} {i k : ℕ}

/-- The memory from a cell on. -/
def fromCell (k : ℕ) (m : ℕ → β) : ℕ → β := fun i => m (k + i)

theorem fromCell_zero (m : ℕ → β) : fromCell 0 m = m := by
  funext i
  rw [fromCell, Nat.zero_add]

theorem fromCell_add (j k : ℕ) (m : ℕ → β) :
    fromCell k (fromCell j m) = fromCell (j + k) m := by
  funext i
  simp only [fromCell, Nat.add_assoc]

/-- How a value lies in the first `size` cells of a memory. -/
structure Layout (β α : Type) where
  size : ℕ
  read : (ℕ → β) → α
  write : α → (ℕ → β) → ℕ → β
  read_write : ∀ v m, read (write v m) = v
  write_beyond : ∀ v m i, size ≤ i → write v m i = m i
  read_congr : ∀ m m', (∀ i < size, m i = m' i) → read m = read m'

namespace Layout

/-- A cell. -/
def cell : Layout β β where
  size := 1
  read m := m 0
  write v m := Function.update m 0 v
  read_write _ _ := Function.update_self ..
  write_beyond _ _ _ beyond := Function.update_of_ne (Nat.one_le_iff_ne_zero.mp beyond) ..
  read_congr _ _ same := same 0 Nat.one_pos

/-- An array of `n` cells. -/
def array (n : ℕ) : Layout β (Vector β n) where
  size := n
  read m := .ofFn fun i => m i
  write v m i := if inside : i < n then v[i] else m i
  read_write v m := by
    ext
    simp
  write_beyond _ _ _ beyond := dif_neg (Nat.not_lt.mpr beyond)
  read_congr m m' same := by
    congr 1
    funext i
    exact same i i.isLt

variable (l : Layout β α) (l' : Layout β γ)

/-- A field and what follows it. -/
def andThen : Layout β (α × γ) where
  size := l.size + l'.size
  read m := (l.read m, l'.read (fromCell l.size m))
  write v m i :=
    if i < l.size then l.write v.1 m i else l'.write v.2 (fromCell l.size m) (i - l.size)
  read_write v m := by
    have behind : fromCell l.size (fun i =>
        if i < l.size then l.write v.1 m i else l'.write v.2 (fromCell l.size m) (i - l.size)) =
        l'.write v.2 (fromCell l.size m) := by
      funext i
      simp [fromCell]
    have front : l.read (fun i =>
        if i < l.size then l.write v.1 m i else l'.write v.2 (fromCell l.size m) (i - l.size)) =
        l.read (l.write v.1 m) := by
      apply l.read_congr
      exact fun i inside => if_pos inside
    rw [behind, front, l.read_write, l'.read_write]
  write_beyond v m i beyond := by
    have there : l.size + (i - l.size) = i := by omega
    rw [if_neg (by omega), l'.write_beyond _ _ _ (by omega), fromCell, there]
  read_congr m m' same := by
    have front : l.read m = l.read m' := l.read_congr _ _ fun i inside => same i (by omega)
    have behind : l'.read (fromCell l.size m) = l'.read (fromCell l.size m') :=
      l'.read_congr _ _ fun i inside => same _ (by omega)
    rw [front, behind]

/-- The same cells, under other names. -/
def rename (e : α ≃ γ) : Layout β γ where
  size := l.size
  read m := e (l.read m)
  write v := l.write (e.symm v)
  read_write v m := by rw [l.read_write, e.apply_symm_apply]
  write_beyond _ := l.write_beyond _
  read_congr m m' same := congrArg e (l.read_congr m m' same)

/-- A write in front does not reach what comes behind. -/
theorem fromCell_write (far : l.size ≤ k) (v : α) (m : ℕ → β) :
    fromCell k (l.write v m) = fromCell k m := by
  funext i
  exact l.write_beyond v m (k + i) (by omega)

end Layout

end En7512.Logic
