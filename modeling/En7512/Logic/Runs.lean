/-
# Runs over a list of inputs

A machine that takes one input after the other is a step function. What every step keeps
holds at the end of every run, and two conditions on the single steps that agree in the
states a run can reach agree on whole runs.

A machine that may do one thing or another is a step relation, and a relation to the states of
another machine that every step keeps goes along with a whole run.
-/

import Mathlib.Data.List.Basic
import Mathlib.Logic.Relation

namespace En7512.Logic

variable {α σ : Type} (step : α → σ → σ)

/-- The state after the inputs have been taken. -/
def runInputs (s : σ) (inputs : List α) : σ := inputs.foldl (fun s a => step a s) s

/-- Every input meets `ok` in the state in which it is taken. -/
def EveryStep (ok : α → σ → Prop) : σ → List α → Prop
  | _, [] => True
  | s, a :: inputs => ok a s ∧ EveryStep ok (step a s) inputs

instance decidableEveryStep (ok : α → σ → Prop) [∀ a s, Decidable (ok a s)] (s : σ) :
    (inputs : List α) → Decidable (EveryStep step ok s inputs)
  | [] => isTrue trivial
  | a :: inputs =>
      haveI := decidableEveryStep ok (step a s) inputs
      inferInstanceAs (Decidable (_ ∧ _))

variable {step} {s : σ} {inputs : List α} {inv : σ → Prop}

@[simp] theorem runInputs_nil (s : σ) : runInputs step s [] = s := rfl

theorem runInputs_append (s : σ) (inputs : List α) (a : α) :
    runInputs step s (inputs ++ [a]) = step a (runInputs step s inputs) := List.foldl_concat ..

/-- What the steps with good inputs keep holds after every run with good inputs. -/
theorem runInputs_invariant {good : α → Prop} (kept : ∀ a s, good a → inv s → inv (step a s))
    (all : ∀ a ∈ inputs, good a) (start : inv s) : inv (runInputs step s inputs) := by
  induction inputs generalizing s with
  | nil => exact start
  | cons a inputs ih =>
      apply ih
      · exact fun b hb => all b (List.mem_cons_of_mem _ hb)
      · exact kept a s (all a List.mem_cons_self) start

/-- Conditions that agree wherever the invariant holds agree on every run from there. -/
theorem everyStep_congr (inv : σ → Prop) {ok ok' : α → σ → Prop}
    (kept : ∀ a s, inv s → inv (step a s))
    (agree : ∀ a s, inv s → (ok a s ↔ ok' a s)) (start : inv s) :
    EveryStep step ok s inputs ↔ EveryStep step ok' s inputs := by
  induction inputs generalizing s with
  | nil => rfl
  | cons a inputs ih => exact and_congr (agree a s start) (ih (kept a s start))

/-- Conditions that agree wherever the invariant holds agree on every run from there, even if
the invariant is kept only by the steps that meet them. -/
theorem everyStep_congr_of_kept (inv : σ → Prop) {ok ok' : α → σ → Prop}
    (kept : ∀ a s, inv s → ok' a s → inv (step a s))
    (agree : ∀ a s, inv s → (ok a s ↔ ok' a s)) (start : inv s) :
    EveryStep step ok s inputs ↔ EveryStep step ok' s inputs := by
  induction inputs generalizing s with
  | nil => rfl
  | cons a inputs ih =>
      show _ ∧ _ ↔ _ ∧ _
      rw [agree a s start]
      apply and_congr_right
      intro good
      exact ih (kept a s start good)

section Simulation

variable {σ τ : Type} {concrete : σ → σ → Prop} {abstr : τ → τ → Prop} {rel : σ → τ → Prop}
  {s s' : σ} {t : τ}

/-- If every step is matched by some steps of the other machine, every run is. -/
theorem reaches_simulates
    (step : ∀ s s' t, rel s t → concrete s s' → ∃ t', Relation.ReflTransGen abstr t t' ∧ rel s' t')
    (start : rel s t) (run : Relation.ReflTransGen concrete s s') :
    ∃ t', Relation.ReflTransGen abstr t t' ∧ rel s' t' := by
  induction run with
  | refl => exact ⟨t, .refl, start⟩
  | tail _ last ih =>
      obtain ⟨t₁, run₁, rel₁⟩ := ih
      obtain ⟨t', more, rel'⟩ := step _ _ t₁ rel₁ last
      exact ⟨t', run₁.trans more, rel'⟩

end Simulation

end En7512.Logic
