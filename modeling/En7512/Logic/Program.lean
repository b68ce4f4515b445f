/-
# Programs over an interface of operations

A driver is a program that calls operations of a device and acts on their
answers. `Program` keeps the two apart: a program is the tree of the calls it
makes, and what a call does to the device is said later, once for each device.
The same program text then runs on a concrete device, on an idealised one, and
on one that loses power after any number of calls.

A device is given either as a `Machine`, which computes the one answer and the
next state of every call, or as `Rules`, a relation that allows several. The
predicate transformer `wp` is stated over rules: it speaks of the runs that
return. `twp` says that all of them do, and `along` speaks of the states in
between as well. `wp_of_simulation` carries a result from one device to another,
and `wp_exec` carries it to the runs of a machine.
-/

import Mathlib.Tactic

namespace En7512.Logic

/-- A program over operations `Op`, each with its own type of answers. The
constructor `stuck` is a program that never returns. -/
inductive Program (Op : Type) (Resp : Op → Type) (α : Type) : Type
  | pure (value : α)
  | stuck
  | call (op : Op) (next : Resp op → Program Op Resp α)

/-- A device that computes the answer and the next state of each call. -/
abbrev Machine (Op : Type) (Resp : Op → Type) (σ : Type) : Type :=
  (op : Op) → σ → Resp op × σ

/-- A device given by what each call may answer and leave behind. -/
abbrev Rules (Op : Type) (Resp : Op → Type) (σ : Type) : Type :=
  (op : Op) → σ → Resp op → σ → Prop

namespace Program

variable {Op : Type} {Resp : Op → Type} {α β σ τ : Type}

/-- Continue with `f` on the returned value. -/
def bind : Program Op Resp α → (α → Program Op Resp β) → Program Op Resp β
  | .pure value, f => f value
  | .stuck, _ => .stuck
  | .call op next, f => .call op fun answer => (next answer).bind f

instance : Monad (Program Op Resp) where
  pure := Program.pure
  bind := Program.bind

/-- The program that makes one call and returns its answer. -/
def perform (op : Op) : Program Op Resp (Resp op) := .call op .pure

@[simp] theorem pure_eq (value : α) :
    (Pure.pure value : Program Op Resp α) = .pure value := rfl

@[simp] theorem pure_bind_eq (value : α) (f : α → Program Op Resp β) :
    ((.pure value : Program Op Resp α) >>= f) = f value := rfl

@[simp] theorem stuck_bind_eq (f : α → Program Op Resp β) :
    ((.stuck : Program Op Resp α) >>= f) = .stuck := rfl

@[simp] theorem call_bind_eq (op : Op) (next : Resp op → Program Op Resp α)
    (f : α → Program Op Resp β) :
    (Program.call op next >>= f) = .call op fun answer => next answer >>= f := rfl

/-! ## Runs on a machine -/

/-- Run a program to its end. `none` means that it never returns. -/
def exec (M : Machine Op Resp σ) : Program Op Resp α → σ → Option (α × σ)
  | .pure value, s => some (value, s)
  | .stuck, _ => none
  | .call op next, s => exec M (next (M op s).1) (M op s).2

/-- Every call of the run meets `ok` in the state in which it is made. -/
def Keeps (M : Machine Op Resp σ) (ok : Op → σ → Prop) : Program Op Resp α → σ → Prop
  | .pure _, _ => True
  | .stuck, _ => True
  | .call op next, s => ok op s ∧ Keeps M ok (next (M op s).1) (M op s).2

instance decidableKeeps (M : Machine Op Resp σ) (ok : Op → σ → Prop)
    [∀ op s, Decidable (ok op s)] :
    (m : Program Op Resp α) → (s : σ) → Decidable (Keeps M ok m s)
  | .pure _, _ => .isTrue trivial
  | .stuck, _ => .isTrue trivial
  | .call op next, s =>
      have := decidableKeeps M ok (next (M op s).1) (M op s).2
      inferInstanceAs (Decidable (ok op s ∧ Keeps M ok (next (M op s).1) (M op s).2))

/-- The state of the device after the first `n` calls of the run, when it is
stopped there. -/
def stateAfter (M : Machine Op Resp σ) : ℕ → Program Op Resp α → σ → σ
  | 0, _, s => s
  | _ + 1, .pure _, s => s
  | _ + 1, .stuck, s => s
  | n + 1, .call op next, s => stateAfter M n (next (M op s).1) (M op s).2

/-- The program stopped before its call number `n`. -/
def cut : ℕ → Program Op Resp α → Program Op Resp α
  | 0, _ => .stuck
  | _ + 1, .pure value => .pure value
  | _ + 1, .stuck => .stuck
  | n + 1, .call op next => .call op fun answer => cut n (next answer)

@[simp] theorem exec_pure (M : Machine Op Resp σ) (value : α) (s : σ) :
    exec M (.pure value) s = some (value, s) := rfl

@[simp] theorem exec_stuck (M : Machine Op Resp σ) (s : σ) :
    exec M (.stuck : Program Op Resp α) s = none := rfl

theorem exec_bind (M : Machine Op Resp σ) (m : Program Op Resp α)
    (f : α → Program Op Resp β) (s : σ) :
    exec M (m >>= f) s = (exec M m s).bind fun r => exec M (f r.1) r.2 := by
  induction m generalizing s with
  | pure value => rfl
  | stuck => rfl
  | call op next ih => exact ih _ _

theorem keeps_of_forall {M : Machine Op Resp σ} {ok : Op → σ → Prop} (all : ∀ op s, ok op s)
    (m : Program Op Resp α) (s : σ) : Keeps M ok m s := by
  induction m generalizing s with
  | pure value => trivial
  | stuck => trivial
  | call op next ih => exact ⟨all op s, ih _ _⟩

theorem Keeps.mono {M : Machine Op Resp σ} {ok ok' : Op → σ → Prop}
    (weaker : ∀ op s, ok op s → ok' op s) {m : Program Op Resp α} {s : σ}
    (keeps : Keeps M ok m s) : Keeps M ok' m s := by
  induction m generalizing s with
  | pure value => trivial
  | stuck => trivial
  | call op next ih => exact ⟨weaker _ _ keeps.1, ih _ keeps.2⟩

theorem Keeps.and {M : Machine Op Resp σ} {ok ok' : Op → σ → Prop} {m : Program Op Resp α} {s : σ}
    (first : Keeps M ok m s) (second : Keeps M ok' m s) :
    Keeps M (fun op s => ok op s ∧ ok' op s) m s := by
  induction m generalizing s with
  | pure value => trivial
  | stuck => trivial
  | call op next ih => exact ⟨⟨first.1, second.1⟩, ih _ first.2 second.2⟩

theorem keeps_cut {M : Machine Op Resp σ} {ok : Op → σ → Prop} (n : ℕ) {m : Program Op Resp α}
    {s : σ} (keeps : Keeps M ok m s) : Keeps M ok (cut n m) s := by
  induction n generalizing m s with
  | zero => trivial
  | succ n ih =>
      cases m with
      | pure value => trivial
      | stuck => trivial
      | call op next => exact ⟨keeps.1, ih keeps.2⟩

/-! ## Weakest preconditions over rules -/

/-- Every run the rules allow that returns ends in `post`. -/
def wp (T : Rules Op Resp σ) : Program Op Resp α → (α → σ → Prop) → σ → Prop
  | .pure value, post, s => post value s
  | .stuck, _, _ => True
  | .call op next, post, s =>
      ∀ answer s', T op s answer s' → wp T (next answer) post s'

/-- Every call of every run the rules allow leaves a state that is `kept`, and the
runs that return end in `post`. -/
def along (T : Rules Op Resp σ) (kept : σ → Prop) :
    Program Op Resp α → (α → σ → Prop) → σ → Prop
  | .pure value, post, s => post value s
  | .stuck, _, _ => True
  | .call op next, post, s =>
      ∀ answer s', T op s answer s' → kept s' ∧ along T kept (next answer) post s'

variable {T : Rules Op Resp σ}

@[simp] theorem wp_pure (value : α) (post : α → σ → Prop) (s : σ) :
    wp T (.pure value) post s ↔ post value s := Iff.rfl

@[simp] theorem wp_stuck (post : α → σ → Prop) (s : σ) :
    wp T (.stuck : Program Op Resp α) post s ↔ True := Iff.rfl

theorem wp_call (op : Op) (next : Resp op → Program Op Resp α) (post : α → σ → Prop) (s : σ) :
    wp T (.call op next) post s ↔
      ∀ answer s', T op s answer s' → wp T (next answer) post s' := Iff.rfl

theorem wp_perform (op : Op) (post : Resp op → σ → Prop) (s : σ) :
    wp T (perform op) post s ↔ ∀ answer s', T op s answer s' → post answer s' := Iff.rfl

theorem wp_bind (m : Program Op Resp α) (f : α → Program Op Resp β)
    (post : β → σ → Prop) (s : σ) :
    wp T (m >>= f) post s ↔ wp T m (fun a s' => wp T (f a) post s') s := by
  induction m generalizing s with
  | pure value => rfl
  | stuck => rfl
  | call op next ih =>
      simp only [call_bind_eq, wp_call, ih]

theorem wp_mono {m : Program Op Resp α} {post post' : α → σ → Prop} {s : σ}
    (weaker : ∀ a s', post a s' → post' a s') (h : wp T m post s) : wp T m post' s := by
  induction m generalizing s with
  | pure value => exact weaker _ _ h
  | stuck => trivial
  | call op next ih => exact fun answer s' step => ih answer (h answer s' step)

theorem wp_and {m : Program Op Resp α} {first second : α → σ → Prop} {s : σ}
    (hfirst : wp T m first s) (hsecond : wp T m second s) :
    wp T m (fun a s' => first a s' ∧ second a s') s := by
  induction m generalizing s with
  | pure value => exact ⟨hfirst, hsecond⟩
  | stuck => trivial
  | call op next ih =>
      exact fun answer s' step => ih answer (hfirst answer s' step) (hsecond answer s' step)

/-- Rules that allow less keep what is proved. -/
theorem wp_of_rules {T' : Rules Op Resp σ} {m : Program Op Resp α} {post : α → σ → Prop} {s : σ}
    (allows : ∀ op s answer s', T op s answer s' → T' op s answer s') (h : wp T' m post s) :
    wp T m post s := by
  induction m generalizing s with
  | pure value => exact h
  | stuck => trivial
  | call op next ih => exact fun answer s' step => ih answer (h answer s' (allows _ _ _ _ step))

/-- What every call keeps holds at the end. -/
theorem wp_kept {kept : σ → Prop} (step : ∀ op s answer s', T op s answer s' → kept s → kept s')
    (m : Program Op Resp α) {s : σ} (now : kept s) : wp T m (fun _ s' => kept s') s := by
  induction m generalizing s with
  | pure value => exact now
  | stuck => trivial
  | call op next ih => exact fun answer s' called => ih answer (step _ _ _ _ called now)

/-- A family of results, proved one by one. -/
theorem wp_forall {ι : Sort*} {m : Program Op Resp α} {post : ι → α → σ → Prop} {s : σ}
    (h : ∀ i, wp T m (post i) s) : wp T m (fun a s' => ∀ i, post i a s') s := by
  induction m generalizing s with
  | pure value => exact h
  | stuck => trivial
  | call op next ih => exact fun answer s' step => ih answer fun i => h i answer s' step

/-- A device whose every step the rules `T'` also allow, along a relation
between the states, inherits what is proved of `T'`. -/
theorem wp_of_simulation {T' : Rules Op Resp τ} (related : σ → τ → Prop)
    (simulates : ∀ op s t answer s', related s t → T op s answer s' →
      ∃ t', T' op t answer t' ∧ related s' t')
    {m : Program Op Resp α} {post : α → τ → Prop} {s : σ} {t : τ}
    (hrel : related s t) (h : wp T' m post t) :
    wp T m (fun a s' => ∃ t', related s' t' ∧ post a t') s := by
  induction m generalizing s t with
  | pure value => exact ⟨t, hrel, h⟩
  | stuck => trivial
  | call op next ih =>
      intro answer s' step
      obtain ⟨t', step', hrel'⟩ := simulates op s t answer s' hrel step
      exact ih answer hrel' (h answer t' step')

theorem along_bind {kept : σ → Prop} {m : Program Op Resp α}
    {f : α → Program Op Resp β} {post : β → σ → Prop} {s : σ}
    (h : along T kept m (fun a s' => along T kept (f a) post s') s) :
    along T kept (m >>= f) post s := by
  induction m generalizing s with
  | pure value => exact h
  | stuck => trivial
  | call op next ih =>
      exact fun answer s' step => ⟨(h answer s' step).1, ih answer (h answer s' step).2⟩

theorem along_mono {kept : σ → Prop} {m : Program Op Resp α} {post post' : α → σ → Prop} {s : σ}
    (weaker : ∀ a s', post a s' → post' a s') (h : along T kept m post s) :
    along T kept m post' s := by
  induction m generalizing s with
  | pure value => exact weaker _ _ h
  | stuck => trivial
  | call op next ih =>
      exact fun answer s' step => ⟨(h answer s' step).1, ih answer (h answer s' step).2⟩

theorem along_and {kept : σ → Prop} {m : Program Op Resp α} {first second : α → σ → Prop} {s : σ}
    (hfirst : along T kept m first s) (hsecond : wp T m second s) :
    along T kept m (fun a s' => first a s' ∧ second a s') s := by
  induction m generalizing s with
  | pure value => exact ⟨hfirst, hsecond⟩
  | stuck => trivial
  | call op next ih =>
      exact fun answer s' step => ⟨(hfirst answer s' step).1,
        ih answer (hfirst answer s' step).2 (hsecond answer s' step)⟩

theorem wp_of_along {kept : σ → Prop} {m : Program Op Resp α} {post : α → σ → Prop} {s : σ}
    (h : along T kept m post s) : wp T m post s := by
  induction m generalizing s with
  | pure value => exact h
  | stuck => trivial
  | call op next ih => exact fun answer s' step => ih answer (h answer s' step).2

/-- A simulation carries what holds between the calls as well. -/
theorem along_of_simulation {T' : Rules Op Resp τ} (related : σ → τ → Prop)
    (simulates : ∀ op s t answer s', related s t → T op s answer s' →
      ∃ t', T' op t answer t' ∧ related s' t')
    {m : Program Op Resp α} {kept : τ → Prop} {post : α → τ → Prop} {s : σ} {t : τ}
    (hrel : related s t) (h : along T' kept m post t) :
    along T (fun s' => ∃ t', related s' t' ∧ kept t') m
      (fun a s' => ∃ t', related s' t' ∧ post a t') s := by
  induction m generalizing s t with
  | pure value => exact ⟨t, hrel, h⟩
  | stuck => trivial
  | call op next ih =>
      intro answer s' step
      obtain ⟨t', step', hrel'⟩ := simulates op s t answer s' hrel step
      obtain ⟨now, later⟩ := h answer t' step'
      exact ⟨⟨t', hrel', now⟩, ih answer hrel' later⟩

/-! ## Total correctness -/

/-- Every run the rules allow returns, and ends in `post`. -/
def twp (T : Rules Op Resp σ) : Program Op Resp α → (α → σ → Prop) → σ → Prop
  | .pure value, post, s => post value s
  | .stuck, _, _ => False
  | .call op next, post, s =>
      ∀ answer s', T op s answer s' → twp T (next answer) post s'

theorem twp_bind {m : Program Op Resp α} {f : α → Program Op Resp β}
    {post : β → σ → Prop} {s : σ} (h : twp T m (fun a s' => twp T (f a) post s') s) :
    twp T (m >>= f) post s := by
  induction m generalizing s with
  | pure value => exact h
  | stuck => exact h
  | call op next ih => exact fun answer s' step => ih answer (h answer s' step)

theorem twp_mono {m : Program Op Resp α} {post post' : α → σ → Prop} {s : σ}
    (weaker : ∀ a s', post a s' → post' a s') (h : twp T m post s) : twp T m post' s := by
  induction m generalizing s with
  | pure value => exact weaker _ _ h
  | stuck => exact h
  | call op next ih => exact fun answer s' step => ih answer (h answer s' step)

/-- What holds of all runs that return may be added. -/
theorem twp_and {m : Program Op Resp α} {first second : α → σ → Prop} {s : σ}
    (hfirst : twp T m first s) (hsecond : wp T m second s) :
    twp T m (fun a s' => first a s' ∧ second a s') s := by
  induction m generalizing s with
  | pure value => exact ⟨hfirst, hsecond⟩
  | stuck => exact hfirst
  | call op next ih =>
      exact fun answer s' step => ih answer (hfirst answer s' step) (hsecond answer s' step)

theorem twp_of_simulation {T' : Rules Op Resp τ} (related : σ → τ → Prop)
    (simulates : ∀ op s t answer s', related s t → T op s answer s' →
      ∃ t', T' op t answer t' ∧ related s' t')
    {m : Program Op Resp α} {post : α → τ → Prop} {s : σ} {t : τ}
    (hrel : related s t) (h : twp T' m post t) :
    twp T m (fun a s' => ∃ t', related s' t' ∧ post a t') s := by
  induction m generalizing s t with
  | pure value => exact ⟨t, hrel, h⟩
  | stuck => exact h
  | call op next ih =>
      intro answer s' step
      obtain ⟨t', step', hrel'⟩ := simulates op s t answer s' hrel step
      exact ih answer hrel' (h answer t' step')

/-! ## From rules to runs -/

/-- The rules of a machine in runs whose every call meets `ok`. -/
def guarded (M : Machine Op Resp σ) (ok : Op → σ → Prop) : Rules Op Resp σ :=
  fun op s answer s' => ok op s ∧ (answer, s') = M op s

/-- A run that meets the guard ends in what `wp` proves. -/
theorem wp_exec {M : Machine Op Resp σ} {ok : Op → σ → Prop} {m : Program Op Resp α}
    {post : α → σ → Prop} {s : σ} (h : wp (guarded M ok) m post s) (keeps : Keeps M ok m s)
    {a : α} {s' : σ} (run : exec M m s = some (a, s')) : post a s' := by
  induction m generalizing s with
  | pure value =>
      obtain ⟨rfl, rfl⟩ : value = a ∧ s = s' := by simpa [exec] using run
      exact h
  | stuck => cases run
  | call op next ih => exact ih _ (h _ _ ⟨keeps.1, rfl⟩) keeps.2 run

/-- A run that meets the guard returns when `twp` says so. -/
theorem twp_exec {M : Machine Op Resp σ} {ok : Op → σ → Prop} {m : Program Op Resp α}
    {post : α → σ → Prop} {s : σ} (h : twp (guarded M ok) m post s) (keeps : Keeps M ok m s) :
    ∃ a s', exec M m s = some (a, s') ∧ post a s' := by
  induction m generalizing s with
  | pure value => exact ⟨value, s, rfl, h⟩
  | stuck => exact h.elim
  | call op next ih => exact ih _ (h _ _ ⟨keeps.1, rfl⟩) keeps.2

/-- Wherever the run is stopped, the device is left in a state that is kept, if the calls
up to there are as the guard says. -/
theorem along_stateAfter {M : Machine Op Resp σ} {ok : Op → σ → Prop}
    {m : Program Op Resp α} {kept : σ → Prop} {post : α → σ → Prop} {s : σ} (n : ℕ)
    (h : along (guarded M ok) kept m post s) (now : kept s) (keeps : Keeps M ok (cut n m) s) :
    kept (stateAfter M n m s) := by
  induction n generalizing m s with
  | zero => exact now
  | succ n ih =>
      cases m with
      | pure value => exact now
      | stuck => exact now
      | call op next =>
          obtain ⟨kept', later⟩ := h _ _ ⟨keeps.1, rfl⟩
          exact ih later kept' keeps.2

/-- The rules under which anything may be answered. What `wp` proves of a
program under them holds on every device. -/
def anyAnswer : Rules Op Resp Unit := fun _ _ _ _ => True

theorem wp_of_anyAnswer {m : Program Op Resp α} {post : α → Prop}
    (h : wp anyAnswer m (fun a _ => post a) ()) (s : σ) : wp T m (fun a _ => post a) s :=
  wp_mono (fun _ _ ⟨_, _, ha⟩ => ha)
    (wp_of_simulation (fun (_ : σ) (_ : Unit) => True)
      (fun _ _ _ _ _ _ _ => ⟨(), trivial, trivial⟩) trivial h)

/-! ## What a program asks for -/

section Asks

variable {ok : Op → Prop}

/-- Whatever is answered, only operations that are `ok` are asked for, and what is returned
meets `post`. -/
def asks (ok : Op → Prop) : Program Op Resp α → (α → Prop) → Prop
  | .pure value, post => post value
  | .stuck, _ => True
  | .call op next, post => ok op ∧ ∀ answer, asks ok (next answer) post

theorem asks_bind {m : Program Op Resp α} {f : α → Program Op Resp β} {post : β → Prop} :
    asks ok (m >>= f) post ↔ asks ok m fun a => asks ok (f a) post := by
  induction m with
  | pure value => rfl
  | stuck => rfl
  | call op next ih => exact and_congr_right fun _ => forall_congr' ih

theorem asks_mono {m : Program Op Resp α} {post post' : α → Prop}
    (weaker : ∀ a, post a → post' a) (h : asks ok m post) : asks ok m post' := by
  induction m with
  | pure value => exact weaker _ h
  | stuck => trivial
  | call op next ih => exact ⟨h.1, fun answer => ih answer (h.2 answer)⟩

/-- What is proved of the value over any answers may be added. -/
theorem asks_and {m : Program Op Resp α} {first second : α → Prop} (h : asks ok m first)
    (value : wp anyAnswer m (fun a _ => second a) ()) :
    asks ok m fun a => first a ∧ second a := by
  induction m with
  | pure a => exact ⟨h, value⟩
  | stuck => trivial
  | call op next ih => exact ⟨h.1, fun answer => ih answer (h.2 answer) (value answer () trivial)⟩

/-- A relation between states that every operation of the kind keeps relates the first state
to the last one. -/
theorem wp_of_asks {related : σ → σ → Prop} (refl : ∀ s, related s s)
    (trans : ∀ s s' s'', related s s' → related s' s'' → related s s'')
    (step : ∀ op s answer s', ok op → T op s answer s' → related s s')
    {m : Program Op Resp α} {post : α → Prop} (h : asks ok m post) (s : σ) :
    wp T m (fun a s' => post a ∧ related s s') s := by
  induction m generalizing s with
  | pure value => exact ⟨h, refl s⟩
  | stuck => trivial
  | call op next ih =>
      intro answer s' called
      apply wp_mono _ (ih answer (h.2 answer) s')
      exact fun a s'' done => ⟨done.1, trans _ _ _ (step op s answer s' h.1 called) done.2⟩

end Asks

/-! ## Machines with a ledger -/

/-- A machine that shows another one, and answers as it does, runs as it does. -/
theorem exec_of_shows {M : Machine Op Resp σ} {N : Machine Op Resp τ} (shown : τ → σ)
    (same : ∀ op t, (N op t).1 = (M op (shown t)).1 ∧ shown (N op t).2 = (M op (shown t)).2)
    (m : Program Op Resp α) (t : τ) :
    exec M m (shown t) = (exec N m t).map fun out => (out.1, shown out.2) := by
  induction m generalizing t with
  | pure value => rfl
  | stuck => rfl
  | call op next ih =>
      obtain ⟨answer, state⟩ := same op t
      rw [exec, exec, ← answer, ← state]
      exact ih _ _

/-- A machine with a ledger beside it, in which every answer is noted. -/
def withLedger {γ : Type} (M : Machine Op Resp σ) (note : (op : Op) → Resp op → γ → γ) :
    Machine Op Resp (σ × γ) :=
  fun op s => ((M op s.1).1, (M op s.1).2, note op (M op s.1).1 s.2)

/-- A machine with a ledger in which every call is noted with the state before it. -/
def withRecord {γ : Type} (M : Machine Op Resp σ) (note : Op → σ → γ → γ) :
    Machine Op Resp (σ × γ) :=
  fun op s => ((M op s.1).1, (M op s.1).2, note op s.1 s.2)

theorem stateAfter_withLedger {γ : Type} (M : Machine Op Resp σ)
    (note : (op : Op) → Resp op → γ → γ) (n : ℕ) (m : Program Op Resp α) (s : σ) (notes : γ) :
    (stateAfter (withLedger M note) n m (s, notes)).1 = stateAfter M n m s := by
  induction n generalizing m s notes with
  | zero => rfl
  | succ n ih =>
      cases m with
      | pure value => rfl
      | stuck => rfl
      | call op next => exact ih _ _ _

/-- Two devices that get the same calls and give the same answers. -/
def paired (T : Rules Op Resp σ) (T' : Rules Op Resp τ) : Rules Op Resp (σ × τ) :=
  fun op s answer s' => T op s.1 answer s'.1 ∧ T' op s.2 answer s'.2

/-- What is proved of either device holds of the pair. -/
theorem wp_left {T' : Rules Op Resp τ} {m : Program Op Resp α} {post : α → σ → Prop} {s : σ × τ}
    (h : wp T m post s.1) : wp (paired T T') m (fun a s' => post a s'.1) s := by
  apply wp_mono _ (wp_of_simulation (fun (w : σ × τ) (s : σ) => w.1 = s) _ rfl h)
  · rintro a s' ⟨t, rfl, told⟩
    exact told
  · rintro op w s answer w' rfl step
    exact ⟨w'.1, step.1, rfl⟩

theorem wp_right {T' : Rules Op Resp τ} {m : Program Op Resp α} {post : α → τ → Prop} {s : σ × τ}
    (h : wp T' m post s.2) : wp (paired T T') m (fun a s' => post a s'.2) s := by
  apply wp_mono _ (wp_of_simulation (fun (w : σ × τ) (s : τ) => w.2 = s) _ rfl h)
  · rintro a s' ⟨t, rfl, told⟩
    exact told
  · rintro op w s answer w' rfl step
    exact ⟨w'.2, step.2, rfl⟩

theorem keeps_withLedger {γ : Type} (M : Machine Op Resp σ)
    (note : (op : Op) → Resp op → γ → γ) (ok : Op → σ → Prop) (m : Program Op Resp α) (s : σ)
    (notes : γ) (keeps : Keeps M ok m s) :
    Keeps (withLedger M note) (fun op w => ok op w.1) m (s, notes) := by
  induction m generalizing s notes with
  | pure value => trivial
  | stuck => trivial
  | call op next ih => exact ⟨keeps.1, ih _ _ _ keeps.2⟩

/-! ## Programs that return -/

/-- The program returns, whatever is answered. -/
def Returns : Program Op Resp α → Prop
  | .pure _ => True
  | .stuck => False
  | .call _ next => ∀ answer, Returns (next answer)

theorem returns_bind {m : Program Op Resp α} {f : α → Program Op Resp β}
    (first : Returns m) (second : ∀ a, Returns (f a)) : Returns (m >>= f) := by
  induction m with
  | pure value => exact second value
  | stuck => exact first
  | call op next ih => exact fun answer => ih answer (first answer)

theorem exists_exec_of_returns (M : Machine Op Resp σ) {m : Program Op Resp α}
    (h : Returns m) (s : σ) : ∃ out, exec M m s = some out := by
  induction m generalizing s with
  | pure value => exact ⟨(value, s), rfl⟩
  | stuck => exact h.elim
  | call op next ih => exact ih _ (h _) _

/-- A machine with no guard: every result of a run is described by `wp`. -/
theorem wp_guarded_iff (M : Machine Op Resp σ) (m : Program Op Resp α)
    (post : α → σ → Prop) (s : σ) :
    wp (guarded M fun _ _ => True) m post s ↔
      ∀ a s', exec M m s = some (a, s') → post a s' := by
  induction m generalizing s with
  | pure value => simp [exec]
  | stuck => simp [exec]
  | call op next ih =>
      constructor
      · exact fun h => (ih _ _).mp (h _ _ ⟨trivial, rfl⟩)
      · rintro h answer s' ⟨-, eq⟩
        obtain ⟨rfl, rfl⟩ : answer = (M op s).1 ∧ s' = (M op s).2 := by simp [← eq]
        exact (ih _ _).mpr h

end Program

/-! ## Programs with memory of their own -/

/-- A program that also has variables `ρ` of its own. -/
abbrev Routine (Op : Type) (Resp : Op → Type) (ρ : Type) : Type → Type :=
  StateT ρ (Program Op Resp)

namespace Routine

variable {Op : Type} {Resp : Op → Type} {ρ α β σ : Type}

/-- Make one call. -/
def perform (op : Op) : Routine Op Resp ρ (Resp op) := StateT.lift (Program.perform op)

/-- Never return. -/
def stuck : Routine Op Resp ρ α := fun _ => .stuck

/-- Run a routine on a machine from given variables and device. -/
def exec (M : Machine Op Resp σ) (m : Routine Op Resp ρ α) (r : ρ) (s : σ) :
    Option (α × ρ × σ) :=
  (Program.exec M (m.run r) s).map fun out => (out.1.1, out.1.2, out.2)

/-- Every call of the run meets `ok`. -/
def Keeps (M : Machine Op Resp σ) (ok : Op → σ → Prop) (m : Routine Op Resp ρ α)
    (r : ρ) (s : σ) : Prop :=
  Program.Keeps M ok (m.run r) s

instance (M : Machine Op Resp σ) (ok : Op → σ → Prop) [∀ op s, Decidable (ok op s)]
    (m : Routine Op Resp ρ α) (r : ρ) (s : σ) : Decidable (Keeps M ok m r s) :=
  inferInstanceAs (Decidable (Program.Keeps M ok (m.run r) s))

/-- Every run the rules allow that returns ends in `post`. -/
def wp (T : Rules Op Resp σ) (m : Routine Op Resp ρ α) (post : α → ρ → σ → Prop)
    (r : ρ) (s : σ) : Prop :=
  Program.wp T (m.run r) (fun out s' => post out.1 out.2 s') s

/-- The device passes through states that are `kept`, and the runs that return end
in `post`. -/
def along (T : Rules Op Resp σ) (kept : σ → Prop) (m : Routine Op Resp ρ α)
    (post : α → ρ → σ → Prop) (r : ρ) (s : σ) : Prop :=
  Program.along T kept (m.run r) (fun out s' => post out.1 out.2 s') s

variable {T : Rules Op Resp σ} {post : α → ρ → σ → Prop} {r : ρ} {s : σ}

@[simp] theorem wp_pure (value : α) :
    wp T (pure value) post r s ↔ post value r s := Iff.rfl

@[simp] theorem wp_stuck : wp T (stuck : Routine Op Resp ρ α) post r s ↔ True := Iff.rfl

theorem wp_bind (m : Routine Op Resp ρ α) (f : α → Routine Op Resp ρ β)
    (post : β → ρ → σ → Prop) :
    wp T (m >>= f) post r s ↔ wp T m (fun a r' s' => wp T (f a) post r' s') r s := by
  simp only [wp, StateT.run_bind, Program.wp_bind]

@[simp] theorem wp_get (post : ρ → ρ → σ → Prop) :
    wp T (get : Routine Op Resp ρ ρ) post r s ↔ post r r s := Iff.rfl

@[simp] theorem wp_modify (f : ρ → ρ) (post : PUnit → ρ → σ → Prop) :
    wp T (modify f : Routine Op Resp ρ PUnit) post r s ↔ post ⟨⟩ (f r) s := Iff.rfl

theorem wp_perform (op : Op) (post : Resp op → ρ → σ → Prop) :
    wp T (perform op : Routine Op Resp ρ (Resp op)) post r s ↔
      ∀ answer s', T op s answer s' → post answer r s' := Iff.rfl

theorem wp_mono {m : Routine Op Resp ρ α} {post post' : α → ρ → σ → Prop}
    (weaker : ∀ a r' s', post a r' s' → post' a r' s') (h : wp T m post r s) :
    wp T m post' r s :=
  Program.wp_mono (fun _ _ => weaker _ _ _) h

theorem wp_and {m : Routine Op Resp ρ α} {first second : α → ρ → σ → Prop}
    (hfirst : wp T m first r s) (hsecond : wp T m second r s) :
    wp T m (fun a r' s' => first a r' s' ∧ second a r' s') r s :=
  Program.wp_and hfirst hsecond

theorem wp_of_rules {T' : Rules Op Resp σ} {m : Routine Op Resp ρ α}
    (allows : ∀ op s answer s', T op s answer s' → T' op s answer s') (h : wp T' m post r s) :
    wp T m post r s :=
  Program.wp_of_rules allows h

theorem wp_kept {kept : σ → Prop} (step : ∀ op s answer s', T op s answer s' → kept s → kept s')
    (m : Routine Op Resp ρ α) (now : kept s) : wp T m (fun _ _ s' => kept s') r s :=
  Program.wp_kept step (m.run r) now

theorem wp_forall {ι : Sort*} {m : Routine Op Resp ρ α} {post : ι → α → ρ → σ → Prop}
    (h : ∀ i, wp T m (post i) r s) : wp T m (fun a r' s' => ∀ i, post i a r' s') r s :=
  Program.wp_forall h

section Along

variable {kept : σ → Prop}

@[simp] theorem along_pure (value : α) :
    along T kept (pure value) post r s ↔ post value r s := Iff.rfl

@[simp] theorem along_stuck :
    along T kept (stuck : Routine Op Resp ρ α) post r s ↔ True := Iff.rfl

@[simp] theorem along_get (post : ρ → ρ → σ → Prop) :
    along T kept (get : Routine Op Resp ρ ρ) post r s ↔ post r r s := Iff.rfl

@[simp] theorem along_modify (f : ρ → ρ) (post : PUnit → ρ → σ → Prop) :
    along T kept (modify f : Routine Op Resp ρ PUnit) post r s ↔ post ⟨⟩ (f r) s := Iff.rfl

theorem along_perform (op : Op) (post : Resp op → ρ → σ → Prop) :
    along T kept (perform op : Routine Op Resp ρ (Resp op)) post r s ↔
      ∀ answer s', T op s answer s' → kept s' ∧ post answer r s' := Iff.rfl

theorem along_bind {m : Routine Op Resp ρ α} {f : α → Routine Op Resp ρ β}
    {post : β → ρ → σ → Prop}
    (h : along T kept m (fun a r' s' => along T kept (f a) post r' s') r s) :
    along T kept (m >>= f) post r s := by
  simp only [along, StateT.run_bind]
  exact Program.along_bind h

theorem along_mono {m : Routine Op Resp ρ α} {post post' : α → ρ → σ → Prop}
    (weaker : ∀ a r' s', post a r' s' → post' a r' s') (h : along T kept m post r s) :
    along T kept m post' r s :=
  Program.along_mono (fun _ _ => weaker _ _ _) h

theorem along_and {m : Routine Op Resp ρ α} {first second : α → ρ → σ → Prop}
    (hfirst : along T kept m first r s) (hsecond : wp T m second r s) :
    along T kept m (fun a r' s' => first a r' s' ∧ second a r' s') r s :=
  Program.along_and hfirst hsecond

theorem wp_of_along {m : Routine Op Resp ρ α} (h : along T kept m post r s) : wp T m post r s :=
  Program.wp_of_along h

end Along

/-- Every run the rules allow returns, and ends in `post`. -/
def twp (T : Rules Op Resp σ) (m : Routine Op Resp ρ α) (post : α → ρ → σ → Prop)
    (r : ρ) (s : σ) : Prop :=
  Program.twp T (m.run r) (fun out s' => post out.1 out.2 s') s

section Total

@[simp] theorem twp_pure (value : α) :
    twp T (pure value) post r s ↔ post value r s := Iff.rfl

@[simp] theorem twp_get (post : ρ → ρ → σ → Prop) :
    twp T (get : Routine Op Resp ρ ρ) post r s ↔ post r r s := Iff.rfl

@[simp] theorem twp_modify (f : ρ → ρ) (post : PUnit → ρ → σ → Prop) :
    twp T (modify f : Routine Op Resp ρ PUnit) post r s ↔ post ⟨⟩ (f r) s := Iff.rfl

theorem twp_perform (op : Op) (post : Resp op → ρ → σ → Prop) :
    twp T (perform op : Routine Op Resp ρ (Resp op)) post r s ↔
      ∀ answer s', T op s answer s' → post answer r s' := Iff.rfl

theorem twp_bind {m : Routine Op Resp ρ α} {f : α → Routine Op Resp ρ β}
    {post : β → ρ → σ → Prop}
    (h : twp T m (fun a r' s' => twp T (f a) post r' s') r s) : twp T (m >>= f) post r s := by
  simp only [twp, StateT.run_bind]
  exact Program.twp_bind h

theorem twp_mono {m : Routine Op Resp ρ α} {post post' : α → ρ → σ → Prop}
    (weaker : ∀ a r' s', post a r' s' → post' a r' s') (h : twp T m post r s) :
    twp T m post' r s :=
  Program.twp_mono (fun _ _ => weaker _ _ _) h

theorem twp_exec {M : Machine Op Resp σ} {ok : Op → σ → Prop} {m : Routine Op Resp ρ α}
    (h : twp (Program.guarded M ok) m post r s) (keeps : Keeps M ok m r s) :
    ∃ a r' s', exec M m r s = some (a, r', s') ∧ post a r' s' := by
  obtain ⟨⟨a, r'⟩, s', run, hpost⟩ := Program.twp_exec h keeps
  exact ⟨a, r', s', by rw [exec, run]; rfl, hpost⟩

end Total

theorem wp_exec {M : Machine Op Resp σ} {ok : Op → σ → Prop} {m : Routine Op Resp ρ α}
    (h : wp (Program.guarded M ok) m post r s) (keeps : Keeps M ok m r s)
    {a : α} {r' : ρ} {s' : σ} (run : exec M m r s = some (a, r', s')) : post a r' s' := by
  simp only [exec, Option.map_eq_some_iff, Prod.mk.injEq] at run
  obtain ⟨⟨⟨a, r'⟩, s'⟩, run, rfl, rfl, rfl⟩ := run
  exact Program.wp_exec h keeps run

/-- What is proved over rules holds of the runs of a machine that follows them, along a relation
between the states, in the calls that meet `ok`. -/
theorem exec_of_simulation {τ : Type} {N : Machine Op Resp τ} {ok : Op → τ → Prop}
    (related : τ → σ → Prop)
    (follows : ∀ op t s, related t s → ok op t →
      ∃ s', T op s (N op t).1 s' ∧ related (N op t).2 s')
    {m : Routine Op Resp ρ α} {t t' : τ} {a : α} {r' : ρ} (rel : related t s)
    (h : wp T m post r s) (keeps : Keeps N ok m r t) (run : exec N m r t = some (a, r', t')) :
    ∃ s', related t' s' ∧ post a r' s' := by
  have lifted : wp (Program.guarded N ok) m (fun a r' t' => ∃ s', related t' s' ∧ post a r' s')
      r t := by
    apply Program.wp_of_simulation related _ rel h
    rintro op t s answer t' rel ⟨meets, eq⟩
    obtain ⟨rfl, rfl⟩ := Prod.mk.inj eq
    exact follows op t s rel meets
  exact wp_exec lifted keeps run

theorem wp_left {τ : Type} {T' : Rules Op Resp τ} {m : Routine Op Resp ρ α} {w : σ × τ}
    (h : wp T m post r w.1) :
    wp (Program.paired T T') m (fun a r' w' => post a r' w'.1) r w :=
  Program.wp_left h

theorem wp_right {τ : Type} {T' : Rules Op Resp τ} {m : Routine Op Resp ρ α}
    {post : α → ρ → τ → Prop} {w : σ × τ} (h : wp T' m post r w.2) :
    wp (Program.paired T T') m (fun a r' w' => post a r' w'.2) r w :=
  Program.wp_right h

/-- What holds whatever is answered, of the answer and of the variables. -/
def Ensures (m : Routine Op Resp ρ α) (r : ρ) (post : α → ρ → Prop) : Prop :=
  wp Program.anyAnswer m (fun a r' _ => post a r') r ()

theorem wp_of_ensures {m : Routine Op Resp ρ α} {post : α → ρ → Prop} (h : Ensures m r post) :
    wp T m (fun a r' _ => post a r') r s :=
  @Program.wp_of_anyAnswer _ _ _ _ T (m.run r) (fun out => post out.1 out.2) h s

theorem twp_and_ensures {m : Routine Op Resp ρ α} {ensured : α → ρ → Prop}
    (h : twp T m post r s) (ens : Ensures m r ensured) :
    twp T m (fun a r' s' => post a r' s' ∧ ensured a r') r s :=
  Program.twp_and h (wp_of_ensures ens)

/-- What holds whatever is answered may be added to what is proved of the device. -/
theorem along_and_ensures {kept : σ → Prop} {m : Routine Op Resp ρ α} {ensured : α → ρ → Prop}
    (h : along T kept m post r s) (ens : Ensures m r ensured) :
    along T kept m (fun a r' s' => post a r' s' ∧ ensured a r') r s :=
  Program.along_and h (wp_of_ensures ens)

theorem ensures_exec {m : Routine Op Resp ρ α} {post : α → ρ → Prop} (h : Ensures m r post)
    {M : Machine Op Resp σ} {a : α} {r' : ρ} {s' : σ} (run : exec M m r s = some (a, r', s')) :
    post a r' := by
  simp only [exec, Option.map_eq_some_iff, Prod.mk.injEq] at run
  obtain ⟨⟨⟨a, r'⟩, s'⟩, run, rfl, rfl, rfl⟩ := run
  exact (Program.wp_guarded_iff M _ _ s).mp (wp_of_ensures h) _ _ run

section Ensures

variable {ensured ensured' : α → ρ → Prop}

@[simp] theorem ensures_pure (value : α) :
    Ensures (pure value : Routine Op Resp ρ α) r ensured ↔ ensured value r := Iff.rfl

@[simp] theorem ensures_stuck :
    Ensures (stuck : Routine Op Resp ρ α) r ensured ↔ True := Iff.rfl

theorem ensures_bind (m : Routine Op Resp ρ α) (f : α → Routine Op Resp ρ β)
    (last : β → ρ → Prop) :
    Ensures (m >>= f) r last ↔ Ensures m r fun a r' => Ensures (f a) r' last :=
  wp_bind m f _

@[simp] theorem ensures_get (last : ρ → ρ → Prop) :
    Ensures (get : Routine Op Resp ρ ρ) r last ↔ last r r := Iff.rfl

@[simp] theorem ensures_modify (f : ρ → ρ) (last : PUnit → ρ → Prop) :
    Ensures (modify f : Routine Op Resp ρ PUnit) r last ↔ last ⟨⟩ (f r) := Iff.rfl

theorem ensures_perform (op : Op) (last : Resp op → ρ → Prop) :
    Ensures (perform op : Routine Op Resp ρ (Resp op)) r last ↔ ∀ answer, last answer r :=
  ⟨fun h answer => h answer () trivial, fun h answer _ _ => h answer⟩

theorem ensures_mono {m : Routine Op Resp ρ α} (weaker : ∀ a r', ensured a r' → ensured' a r')
    (h : Ensures m r ensured) : Ensures m r ensured' :=
  wp_mono (fun a r' _ => weaker a r') h

end Ensures

section Asks

variable {ok : Op → Prop} {asked : α → ρ → Prop}

/-- Whatever is answered, only operations that are `ok` are asked for, and the answer and the
variables meet `asked`. -/
def asks (ok : Op → Prop) (m : Routine Op Resp ρ α) (asked : α → ρ → Prop) (r : ρ) : Prop :=
  Program.asks ok (m.run r) fun out => asked out.1 out.2

@[simp] theorem asks_pure (value : α) :
    asks ok (pure value : Routine Op Resp ρ α) asked r ↔ asked value r := Iff.rfl

theorem asks_bind {m : Routine Op Resp ρ α} {f : α → Routine Op Resp ρ β} {last : β → ρ → Prop} :
    asks ok (m >>= f) last r ↔ asks ok m (fun a r' => asks ok (f a) last r') r := by
  simp only [asks, StateT.run_bind, Program.asks_bind]

@[simp] theorem asks_get {last : ρ → ρ → Prop} :
    asks ok (get : Routine Op Resp ρ ρ) last r ↔ last r r := Iff.rfl

@[simp] theorem asks_modify (f : ρ → ρ) {last : PUnit → ρ → Prop} :
    asks ok (modify f : Routine Op Resp ρ PUnit) last r ↔ last ⟨⟩ (f r) := Iff.rfl

theorem asks_perform (op : Op) {last : Resp op → ρ → Prop} :
    asks ok (perform op : Routine Op Resp ρ (Resp op)) last r ↔
      ok op ∧ ∀ answer, last answer r := Iff.rfl

theorem asks_mono {asked' : α → ρ → Prop} {m : Routine Op Resp ρ α}
    (weaker : ∀ a r', asked a r' → asked' a r') (h : asks ok m asked r) : asks ok m asked' r :=
  Program.asks_mono (fun _ => weaker _ _) h

theorem asks_and_ensures {ensured : α → ρ → Prop} {m : Routine Op Resp ρ α}
    (h : asks ok m asked r) (ens : Ensures m r ensured) :
    asks ok m (fun a r' => asked a r' ∧ ensured a r') r :=
  Program.asks_and h ens

theorem wp_of_asks {related : σ → σ → Prop} (refl : ∀ s, related s s)
    (trans : ∀ s s' s'', related s s' → related s' s'' → related s s'')
    (step : ∀ op s answer s', ok op → T op s answer s' → related s s')
    {m : Routine Op Resp ρ α} (h : asks ok m asked r) (s : σ) :
    wp T m (fun a r' s' => asked a r' ∧ related s s') r s :=
  Program.wp_of_asks refl trans step h s

end Asks

/-- The routine returns, whatever is answered. -/
def Returns (m : Routine Op Resp ρ α) : Prop := ∀ r, Program.Returns (m.run r)

theorem returns_pure (value : α) : Returns (pure value : Routine Op Resp ρ α) := fun _ => trivial

theorem returns_perform (op : Op) : Returns (perform op : Routine Op Resp ρ (Resp op)) :=
  fun _ _ => trivial

theorem returns_get : Returns (get : Routine Op Resp ρ ρ) := fun _ => trivial

theorem returns_modify (f : ρ → ρ) : Returns (modify f : Routine Op Resp ρ PUnit) :=
  fun _ => trivial

theorem returns_bind {m : Routine Op Resp ρ α} {f : α → Routine Op Resp ρ β}
    (first : Returns m) (second : ∀ a, Returns (f a)) : Returns (m >>= f) := fun r => by
  rw [StateT.run_bind]
  exact Program.returns_bind (first r) fun out => second out.1 out.2

theorem exists_exec_of_returns (M : Machine Op Resp σ) {m : Routine Op Resp ρ α}
    (h : Returns m) (r : ρ) (s : σ) : ∃ a r' s', exec M m r s = some (a, r', s') := by
  obtain ⟨⟨⟨a, r'⟩, s'⟩, run⟩ := Program.exists_exec_of_returns M (h r) s
  exact ⟨a, r', s', by rw [exec, run]; rfl⟩

@[simp] theorem exec_pure (M : Machine Op Resp σ) (value : α) :
    exec M (pure value : Routine Op Resp ρ α) r s = some (value, r, s) := rfl

@[simp] theorem exec_get (M : Machine Op Resp σ) :
    exec M (get : Routine Op Resp ρ ρ) r s = some (r, r, s) := rfl

@[simp] theorem exec_perform (M : Machine Op Resp σ) (op : Op) :
    exec M (perform op : Routine Op Resp ρ (Resp op)) r s = some ((M op s).1, r, (M op s).2) := rfl

theorem exec_bind (M : Machine Op Resp σ) (m : Routine Op Resp ρ α)
    (f : α → Routine Op Resp ρ β) :
    exec M (m >>= f) r s = (exec M m r s).bind fun out => exec M (f out.1) out.2.1 out.2.2 := by
  simp only [exec, StateT.run_bind, Program.exec_bind]
  cases Program.exec M (m.run r) s <;> rfl

section Shown

variable {τ γ : Type} {M : Machine Op Resp σ} {N : Machine Op Resp τ} {m : Routine Op Resp ρ α}
  {a : α} {r' : ρ} {s' : σ}

/-- A run on the machine that is shown is one on the machine that shows it. -/
theorem exists_exec_of_shows (shown : τ → σ)
    (same : ∀ op t, (N op t).1 = (M op (shown t)).1 ∧ shown (N op t).2 = (M op (shown t)).2)
    {t : τ} (run : exec M m r (shown t) = some (a, r', s')) :
    ∃ t', exec N m r t = some (a, r', t') ∧ shown t' = s' := by
  rw [exec, Program.exec_of_shows shown same] at run
  simp only [Option.map_map, Option.map_eq_some_iff, Function.comp_apply, Prod.mk.injEq] at run
  obtain ⟨⟨⟨a₁, r₁⟩, t'⟩, ran, rfl, rfl, rfl⟩ := run
  exact ⟨t', by rw [exec, ran]; rfl, rfl⟩

/-- A ledger does not change the run. -/
theorem exists_exec_withLedger (note : (op : Op) → Resp op → γ → γ)
    (run : exec M m r s = some (a, r', s')) (notes : γ) :
    ∃ notes', exec (Program.withLedger M note) m r (s, notes) = some (a, r', s', notes') := by
  have same (op : Op) (t : σ × γ) : (Program.withLedger M note op t).1 = (M op t.1).1 ∧
      (Program.withLedger M note op t).2.1 = (M op t.1).2 := ⟨rfl, rfl⟩
  obtain ⟨⟨_, notes'⟩, ran, rfl⟩ := exists_exec_of_shows Prod.fst same (t := (s, notes)) run
  exact ⟨notes', ran⟩

theorem exists_exec_withRecord (note : Op → σ → γ → γ)
    (run : exec M m r s = some (a, r', s')) (notes : γ) :
    ∃ notes', exec (Program.withRecord M note) m r (s, notes) = some (a, r', s', notes') := by
  have same (op : Op) (t : σ × γ) : (Program.withRecord M note op t).1 = (M op t.1).1 ∧
      (Program.withRecord M note op t).2.1 = (M op t.1).2 := ⟨rfl, rfl⟩
  obtain ⟨⟨_, notes'⟩, ran, rfl⟩ := exists_exec_of_shows Prod.fst same (t := (s, notes)) run
  exact ⟨notes', ran⟩

end Shown

section LeadsTo

variable {γ δ : Type} {M : Machine Op Resp σ} {m : Routine Op Resp ρ α} {m' : Routine Op Resp ρ β}
  {m'' : Routine Op Resp ρ γ} {r' r'' : ρ} {s' s'' : σ}

/-- A run of the first routine from the first state comes to one of the second from the second
state, and goes on with its result. -/
def LeadsTo (M : Machine Op Resp σ) (m : Routine Op Resp ρ α) (r : ρ) (s : σ)
    (m' : Routine Op Resp ρ β) (r' : ρ) (s' : σ) : Prop :=
  ∃ rest : β → Routine Op Resp ρ α, exec M m r s = exec M (m' >>= rest) r' s'

theorem LeadsTo.refl : LeadsTo M m r s m r s := by
  refine ⟨pure, ?_⟩
  rw [exec_bind]
  cases exec M m r s <;> rfl

theorem LeadsTo.trans (h : LeadsTo M m r s m' r' s') (h' : LeadsTo M m' r' s' m'' r'' s'') :
    LeadsTo M m r s m'' r'' s'' := by
  obtain ⟨rest, run⟩ := h
  obtain ⟨rest', run'⟩ := h'
  refine ⟨fun c => rest' c >>= rest, ?_⟩
  rw [run, exec_bind, run', exec_bind, exec_bind, Option.bind_assoc]
  simp only [exec_bind]

/-- The first step is the call. -/
theorem LeadsTo.bind (h : LeadsTo M m r s m' r' s') (f : α → Routine Op Resp ρ γ) :
    LeadsTo M (m >>= f) r s m' r' s' :=
  .trans ⟨f, rfl⟩ h

/-- The first step comes to its end before. -/
theorem LeadsTo.after {a : α} {f : α → Routine Op Resp ρ δ}
    (run : exec M m r s = some (a, r', s')) (h : LeadsTo M (f a) r' s' m'' r'' s'') :
    LeadsTo M (m >>= f) r s m'' r'' s'' := by
  obtain ⟨rest, go⟩ := h
  refine ⟨rest, ?_⟩
  rw [exec_bind, run, ← go, Option.bind_some]

/-- If the second does not come to an end, the first does not. -/
theorem LeadsTo.stuck (h : LeadsTo M m r s m' r' s') (never : exec M m' r' s' = none) :
    exec M m r s = none := by
  obtain ⟨rest, run⟩ := h
  rw [run, exec_bind, never]
  rfl

end LeadsTo

end Routine

end En7512.Logic
