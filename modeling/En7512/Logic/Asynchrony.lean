/-
# Devices with an engine of their own

The device goes on by itself between the calls of a program, and a call may have to wait: it
is answered in a state in which the device is ready for it. `paced` are the rules of such a
device: any number of steps of the engine before each answer.

What the engine has been given and has not done yet is settled in a plain device, which does
everything at once. If the steps of the engine do not show in the plain device, and every call
that the plain device allows is one the engine becomes ready for and stays ready for, then the
program gets the answers of the plain device at any pace, and it never waits for ever.
-/

import En7512.Logic.Layers

namespace En7512.Logic

namespace Program

variable {Op : Type} {Resp : Op → Type} {α σ τ : Type}

variable (tick : σ → σ) (ready : Op → σ → Prop) (M : Machine Op Resp σ)

/-- A call is answered after any number of steps of the engine that make the device ready. -/
def paced : Rules Op Resp σ := fun op s answer s' =>
  ∃ k, ready op (tick^[k] s) ∧ (answer, s') = M op (tick^[k] s)

/-- No run waits for ever: from some step of the engine on the device is ready for the next
call and stays so, whenever the earlier ones were answered. -/
def Served : Program Op Resp α → σ → Prop
  | .pure _, _ => True
  | .stuck, _ => False
  | .call op next, s =>
      (∃ n, ∀ k ≥ n, ready op (tick^[k] s)) ∧
        ∀ k, ready op (tick^[k] s) → Served (next (M op (tick^[k] s)).1) (M op (tick^[k] s)).2

/-- The plain device `N` stands for the device with the engine. -/
structure Settles (N : Machine Op Resp τ) (ok : Op → τ → Prop) (stands : σ → τ → Prop) :
    Prop where
  /-- A step of the engine does not show. -/
  unseen : ∀ {s t}, stands s t → stands (tick s) t
  /-- A call is answered as by the plain device. -/
  call : ∀ {op s t}, stands s t → ok op t → ready op s →
    (M op s).1 = (N op t).1 ∧ stands (M op s).2 (N op t).2
  /-- The engine gets ready for a call the plain device allows, and stays so. -/
  progress : ∀ {op s t}, stands s t → ok op t → ∃ n, ∀ k ≥ n, ready op (tick^[k] s)

variable {tick ready M} {N : Machine Op Resp τ} {ok : Op → τ → Prop} {stands : σ → τ → Prop}

theorem Settles.ticks (settles : Settles tick ready M N ok stands) {s : σ} {t : τ} (k : ℕ)
    (now : stands s t) : stands (tick^[k] s) t := by
  induction k with
  | zero => exact now
  | succ k ih =>
      rw [Function.iterate_succ_apply']
      exact settles.unseen ih

/-- At any pace the program gets the answers of the plain device. -/
theorem Settles.wp_paced (settles : Settles tick ready M N ok stands) {m : Program Op Resp α}
    {s : σ} {t t' : τ} {a : α} (now : stands s t) (performs : Performs N ok m t a t') :
    wp (paced tick ready M) m (fun a' s' => a' = a ∧ stands s' t') s := by
  induction m generalizing s t with
  | pure value =>
      obtain ⟨rfl, rfl⟩ : value = a ∧ t = t' := by simpa using performs.run
      exact ⟨rfl, now⟩
  | stuck => trivial
  | call op next ih =>
      rintro answer s' ⟨k, isReady, called⟩
      obtain ⟨same, later⟩ := settles.call (settles.ticks k now) performs.keeps.1 isReady
      obtain ⟨rfl, rfl⟩ := Prod.mk.inj called
      apply ih _ later
      rw [same]
      exact ⟨performs.run, performs.keeps.2⟩

/-- And it never waits for ever. -/
theorem Settles.served (settles : Settles tick ready M N ok stands) {m : Program Op Resp α}
    {s : σ} {t t' : τ} {a : α} (now : stands s t) (performs : Performs N ok m t a t') :
    Served tick ready M m s := by
  induction m generalizing s t with
  | pure value => trivial
  | stuck => cases performs.run
  | call op next ih =>
      apply And.intro (settles.progress now performs.keeps.1)
      intro k isReady
      obtain ⟨same, later⟩ := settles.call (settles.ticks k now) performs.keeps.1 isReady
      apply ih _ later
      rw [same]
      exact ⟨performs.run, performs.keeps.2⟩

end Program

end En7512.Logic
