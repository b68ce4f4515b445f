/-
# Programs over a lower interface

A driver is written in layers: what one layer calls an operation is a program over the
operations of the layer below. `Program.expand` replaces every call by such a program. A lower
device that performs each of them as the upper device performs the operation, performs the
whole program, and keeps to its own guard while it does.

A lower device may also answer a little differently, in a part of the answer that means nothing.
`Alike` are programs that do not look there.
-/

import En7512.Logic.Program

namespace En7512.Logic

namespace Program

variable {Op Op' : Type} {Resp : Op → Type} {Resp' : Op' → Type} {α β σ τ : Type}

/-- Carry out every call by a program over a lower interface. -/
def expand (body : (op : Op) → Program Op' Resp' (Resp op)) :
    Program Op Resp α → Program Op' Resp' α
  | .pure value => .pure value
  | .stuck => .stuck
  | .call op next => body op >>= fun answer => expand body (next answer)

/-- The run returns the answer and the device, and every call on the way meets `ok`. -/
structure Performs (N : Machine Op' Resp' τ) (ok : Op' → τ → Prop) (m : Program Op' Resp' α)
    (t : τ) (a : α) (t' : τ) : Prop where
  run : exec N m t = some (a, t')
  keeps : Keeps N ok m t

section Performs

variable {N : Machine Op' Resp' τ} {ok : Op' → τ → Prop}

theorem performs_pure (a : α) (t : τ) : Performs N ok (.pure a) t a t := ⟨rfl, trivial⟩

theorem performs_call {op : Op'} {next : Resp' op → Program Op' Resp' α} {t t' : τ} {a : α}
    (meets : ok op t) (rest : Performs N ok (next (N op t).1) (N op t).2 a t') :
    Performs N ok (.call op next) t a t' :=
  ⟨rest.run, meets, rest.keeps⟩

theorem Performs.bind {m : Program Op' Resp' α} {f : α → Program Op' Resp' β} {t t' t'' : τ}
    {a : α} {b : β} (first : Performs N ok m t a t') (second : Performs N ok (f a) t' b t'') :
    Performs N ok (m >>= f) t b t'' := by
  induction m generalizing t with
  | pure value =>
      obtain ⟨rfl, rfl⟩ : value = a ∧ t = t' := by simpa using first.run
      exact second
  | stuck => cases first.run
  | call op next ih => exact performs_call first.keeps.1 (ih _ ⟨first.run, first.keeps.2⟩)

/-- A device that performs the body of every operation as the upper device does, along a
relation between the states, performs every program that returns there. -/
theorem performs_expand {M : Machine Op Resp σ} {body : (op : Op) → Program Op' Resp' (Resp op)}
    (related : σ → τ → Prop)
    (implements : ∀ op s t, related s t →
      ∃ t', Performs N ok (body op) t (M op s).1 t' ∧ related (M op s).2 t')
    {m : Program Op Resp α} {s s' : σ} {t : τ} {a : α} (hrel : related s t)
    (run : exec M m s = some (a, s')) :
    ∃ t', Performs N ok (expand body m) t a t' ∧ related s' t' := by
  induction m generalizing s t with
  | pure value =>
      obtain ⟨rfl, rfl⟩ : value = a ∧ s = s' := by simpa using run
      exact ⟨t, performs_pure _ _, hrel⟩
  | stuck => cases run
  | call op next ih =>
      obtain ⟨t', first, hrel'⟩ := implements op s t hrel
      obtain ⟨t'', rest, hrel''⟩ := ih _ hrel' run
      exact ⟨t'', first.bind rest, hrel''⟩

end Performs

/-- Two programs that make the same calls as long as they get like answers, and return like
values. -/
inductive Alike (like : (op : Op) → Resp op → Resp op → Prop) (result : α → β → Prop) :
    Program Op Resp α → Program Op Resp β → Prop
  | pure {a : α} {b : β} (same : result a b) : Alike like result (.pure a) (.pure b)
  | stuck : Alike like result .stuck .stuck
  | call {op : Op} {next : Resp op → Program Op Resp α} {next' : Resp op → Program Op Resp β}
      (rest : ∀ answer answer', like op answer answer' →
        Alike like result (next answer) (next' answer')) :
      Alike like result (.call op next) (.call op next')

/-- Alike programs go on alike when like values are passed on. -/
theorem Alike.bind {α' β' : Type} {like : (op : Op) → Resp op → Resp op → Prop}
    {result : α → β → Prop} {result' : α' → β' → Prop} {m : Program Op Resp α}
    {m' : Program Op Resp β} {f : α → Program Op Resp α'} {f' : β → Program Op Resp β'}
    (first : Alike like result m m')
    (rest : ∀ a b, result a b → Alike like result' (f a) (f' b)) :
    Alike like result' (m >>= f) (m' >>= f') := by
  induction first with
  | pure same => exact rest _ _ same
  | stuck => exact .stuck
  | call _ ih => exact .call fun answer answer' same => ih answer answer' same

end Program

namespace Routine

variable {Op Op' : Type} {Resp : Op → Type} {Resp' : Op' → Type} {ρ α β σ τ : Type}

/-- A run of a routine as a run of the program from its variables. -/
theorem exec_eq_some_iff {M : Machine Op Resp σ} {m : Routine Op Resp ρ α} {r r' : ρ} {s s' : σ}
    {a : α} : exec M m r s = some (a, r', s') ↔
      Program.exec M (m.run r) s = some ((a, r'), s') := by
  simp only [exec, Option.map_eq_some_iff, Prod.mk.injEq]
  apply Iff.intro
  · intro found
    obtain ⟨⟨⟨b, r₁⟩, s₁⟩, run, rfl, rfl, rfl⟩ := found
    exact run
  · intro run
    exact ⟨_, run, rfl, rfl, rfl⟩

/-- Carry out every call by a routine over a lower interface. The routines share variables. -/
def expand (body : (op : Op) → Routine Op' Resp' ρ (Resp op)) :
    Program Op Resp α → Routine Op' Resp' ρ α
  | .pure value => pure value
  | .stuck => stuck
  | .call op next => body op >>= fun answer => expand body (next answer)

/-- A lower device whose routines answer every call alike runs alike programs alike. -/
theorem exec_expand {M : Machine Op Resp σ} {N : Machine Op' Resp' τ}
    {body : (op : Op) → Routine Op' Resp' ρ (Resp op)} {ok : Op → σ → Prop}
    {like : (op : Op) → Resp op → Resp op → Prop} (related : σ → ρ → τ → Prop)
    (implements : ∀ op s r t, ok op s → related s r t → ∃ answer' r' t',
      exec N (body op) r t = some (answer', r', t') ∧ like op (M op s).1 answer' ∧
        related (M op s).2 r' t')
    {result : α → β → Prop} {m : Program Op Resp α} {m' : Program Op Resp β}
    (alike : Program.Alike like result m m') {s s' : σ} {r : ρ} {t : τ} {a : α}
    (hrel : related s r t) (keeps : Program.Keeps M ok m s)
    (run : Program.exec M m s = some (a, s')) :
    ∃ b r' t', exec N (expand body m') r t = some (b, r', t') ∧ result a b ∧
      related s' r' t' := by
  induction alike generalizing s r t with
  | pure same =>
      obtain ⟨rfl, rfl⟩ := Prod.mk.inj (Option.some.inj run)
      exact ⟨_, r, t, rfl, same, hrel⟩
  | stuck => cases run
  | call rest ih =>
      obtain ⟨answer', r', t', performed, like', hrel'⟩ := implements _ s r t keeps.1 hrel
      obtain ⟨b, r'', t'', performs, same, hrel''⟩ := ih _ _ like' hrel' keeps.2 run
      refine ⟨b, r'', t'', ?_, same, hrel''⟩
      rw [expand, exec_bind, performed]
      exact performs

end Routine

end En7512.Logic
