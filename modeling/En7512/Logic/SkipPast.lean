/-
# Counting past the members of an increasing list

`skipPast listed n` is the `n`-th natural number that an increasing list does
not contain, computed by walking over the list once: each member that is not
larger than the current value moves the value up by one. It enumerates the
numbers outside the list in increasing order, and below any bound on the list
it misses none of them.
-/

import Mathlib.Data.Set.Function
import Mathlib.Order.Monotone.Basic
import Mathlib.Tactic

namespace En7512.Logic

/-- Step over one listed number. -/
def stepOver (v b : ℕ) : ℕ := if b ≤ v then v + 1 else v

/-- The `n`-th number outside an increasing list. -/
def skipPast (listed : List ℕ) (n : ℕ) : ℕ := listed.foldl stepOver n

@[simp] theorem skipPast_nil (n : ℕ) : skipPast [] n = n := rfl

theorem skipPast_cons (b : ℕ) (listed : List ℕ) (n : ℕ) :
    skipPast (b :: listed) n = skipPast listed (stepOver n b) := rfl

theorem skipPast_concat (listed : List ℕ) (b n : ℕ) :
    skipPast (listed ++ [b]) n = stepOver (skipPast listed n) b := by
  simp [skipPast]

theorem stepOver_strictMono (b : ℕ) : StrictMono fun v => stepOver v b := by
  intro v w hvw
  simp only [stepOver]
  split <;> split <;> omega

theorem stepOver_ne (v b : ℕ) : stepOver v b ≠ b := by
  simp only [stepOver]
  split <;> omega

theorem skipPast_strictMono (listed : List ℕ) : StrictMono (skipPast listed) := by
  induction listed with
  | nil => exact fun _ _ h => h
  | cons b listed ih => exact ih.comp (stepOver_strictMono b)

theorem skipPast_le (listed : List ℕ) (n : ℕ) : skipPast listed n ≤ n + listed.length := by
  induction listed generalizing n with
  | nil => simp
  | cons b listed ih =>
      have step : stepOver n b ≤ n + 1 := by
        simp only [stepOver]
        split <;> omega
      have rest := ih (stepOver n b)
      simp only [skipPast_cons, List.length_cons]
      omega

/-- An increasing list between two numbers has at most as many members as there
is room for. -/
theorem add_length_lt {listed : List ℕ} (increasing : listed.Pairwise (· < ·)) {b m : ℕ}
    (above : ∀ c ∈ listed, b < c) (hb : b < m) (below : ∀ c ∈ listed, c < m) :
    b + listed.length < m := by
  induction listed generalizing b with
  | nil => simpa using hb
  | cons c listed ih =>
      obtain ⟨first, rest⟩ := List.pairwise_cons.mp increasing
      have room := ih rest first (below c (by simp)) fun d hd => below d (by simp [hd])
      have apart := above c (by simp)
      simp only [List.length_cons]
      omega

/-- Where the list runs out, counting on reaches every bound on the list. -/
theorem le_skipPast {listed : List ℕ} (increasing : listed.Pairwise (· < ·)) {m n : ℕ}
    (below : ∀ b ∈ listed, b < m) (enough : m ≤ n + listed.length) :
    m ≤ skipPast listed n := by
  induction listed generalizing n with
  | nil => simpa using enough
  | cons b listed ih =>
      obtain ⟨first, rest⟩ := List.pairwise_cons.mp increasing
      have room : b + listed.length < m :=
        add_length_lt rest first (below b (by simp)) fun c hc => below c (by simp [hc])
      have step : stepOver n b = n + 1 := if_pos (by simp at enough; omega)
      rw [skipPast_cons, step]
      refine ih rest (fun c hc => below c (by simp [hc])) ?_
      simp at enough
      omega

theorem skipPast_lt_iff {listed : List ℕ} (increasing : listed.Pairwise (· < ·)) {m : ℕ}
    (below : ∀ b ∈ listed, b < m) (n : ℕ) :
    skipPast listed n < m ↔ n + listed.length < m := by
  constructor
  · intro h
    by_contra far
    have := le_skipPast increasing below (not_lt.mp far)
    omega
  · intro h
    exact lt_of_le_of_lt (skipPast_le listed n) h

theorem skipPast_not_mem {listed : List ℕ} (increasing : listed.Pairwise (· < ·)) (n : ℕ) :
    skipPast listed n ∉ listed := by
  induction listed using List.reverseRecOn with
  | nil => simp
  | append_singleton listed b ih =>
      obtain ⟨rest, -, last⟩ := List.pairwise_append.mp increasing
      rw [skipPast_concat, List.mem_append, List.mem_singleton]
      rintro (earlier | eq)
      · have small := last _ earlier b (by simp)
        have same : stepOver (skipPast listed n) b = skipPast listed n := by
          refine if_neg fun reached => ?_
          rw [stepOver, if_pos reached] at small
          omega
        exact ih rest (same ▸ earlier)
      · exact stepOver_ne _ _ eq

/-- Every number outside the list is reached. -/
theorem exists_skipPast_eq {listed : List ℕ} (increasing : listed.Pairwise (· < ·)) {v : ℕ}
    (free : v ∉ listed) : ∃ n, skipPast listed n = v := by
  induction listed using List.reverseRecOn generalizing v with
  | nil => exact ⟨v, rfl⟩
  | append_singleton listed b ih =>
      obtain ⟨rest, -, last⟩ := List.pairwise_append.mp increasing
      simp only [List.mem_append, List.mem_singleton, not_or] at free
      by_cases hb : b < v
      · have before : v - 1 ∉ listed := fun mem => by
          have := last _ mem b (by simp)
          omega
        obtain ⟨n, hn⟩ := ih rest before
        refine ⟨n, ?_⟩
        rw [skipPast_concat, hn, stepOver, if_pos (by omega)]
        omega
      · obtain ⟨n, hn⟩ := ih rest free.1
        refine ⟨n, ?_⟩
        rw [skipPast_concat, hn, stepOver, if_neg]
        have := free.2
        omega

/-- Below a bound on the list, `skipPast` numbers the free places through. -/
theorem skipPast_bijOn {listed : List ℕ} (increasing : listed.Pairwise (· < ·)) {m : ℕ}
    (below : ∀ b ∈ listed, b < m) :
    Set.BijOn (skipPast listed) (Set.Iio (m - listed.length)) {v | v < m ∧ v ∉ listed} := by
  refine ⟨fun n hn => ⟨?_, skipPast_not_mem increasing n⟩,
    (skipPast_strictMono listed).injective.injOn, ?_⟩
  · rw [skipPast_lt_iff increasing below]
    have : n < m - listed.length := hn
    omega
  · rintro v ⟨hv, free⟩
    obtain ⟨n, rfl⟩ := exists_skipPast_eq increasing free
    rw [skipPast_lt_iff increasing below] at hv
    exact ⟨n, Set.mem_Iio.mpr (by omega), rfl⟩

end En7512.Logic
