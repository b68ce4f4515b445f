/-
# Loops that run their body first

`doWhile` runs the body, then looks at the condition and goes round again while it
holds. A loop need not come to its end, so the rounds are counted by a fuel; the rules
below say when the loop ends and what holds then, in terms of the iterates of the body.
-/

import Mathlib.Logic.Function.Iterate

namespace En7512.Logic

variable {σ : Type} (body : σ → σ) (again : σ → Prop) [DecidablePred again]

/-- `do body while (again)`, for at most `fuel` rounds. -/
def doWhile : ℕ → σ → Option σ
  | 0, _ => none
  | fuel + 1, s => if again (body s) then doWhile fuel (body s) else some (body s)

variable {body again} {s t : σ} {fuel : ℕ}

/-- The loop is not over as long as every round wants another one. -/
theorem doWhile_eq_none_iff :
    doWhile body again fuel s = none ↔ ∀ k < fuel, again (body^[k + 1] s) := by
  induction fuel generalizing s with
  | zero => exact iff_of_true rfl fun k hk => absurd hk (Nat.not_lt_zero k)
  | succ fuel ih =>
      rw [doWhile]
      by_cases more : again (body s)
      · rw [if_pos more, ih]
        constructor
        · intro all k hk
          cases k with
          | zero => exact more
          | succ k =>
              rw [Function.iterate_succ_apply]
              exact all k (Nat.lt_of_succ_lt_succ hk)
        · intro all k hk
          rw [← Function.iterate_succ_apply]
          exact all (k + 1) (Nat.succ_lt_succ hk)
      · rw [if_neg more]
        apply iff_of_false (Option.some_ne_none _)
        intro all
        exact more (all 0 (Nat.succ_pos _))

/-- The loop ends after a round that wants no other. -/
theorem doWhile_some (ended : doWhile body again fuel s = some t) :
    ¬ again t ∧ ∃ k < fuel, t = body^[k + 1] s := by
  induction fuel generalizing s with
  | zero => cases ended
  | succ fuel ih =>
      rw [doWhile] at ended
      by_cases more : again (body s)
      · rw [if_pos more] at ended
        obtain ⟨done, k, hk, rounds⟩ := ih ended
        rw [← Function.iterate_succ_apply] at rounds
        exact ⟨done, k + 1, Nat.succ_lt_succ hk, rounds⟩
      · rw [if_neg more] at ended
        obtain rfl := Option.some.inj ended
        exact ⟨more, 0, Nat.succ_pos _, rfl⟩

end En7512.Logic
