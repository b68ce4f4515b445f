/-
# The packet buffers

All packets of the boot loader are in the buffers of one array. `alloc_skb` walks round
the array with a cursor that outlives the call, until it comes to a buffer that is not in
use, and marks it; `free_skb` clears the mark. The walk has no other end: while a buffer
is free it finds one, and when none is free it goes round for ever instead of
returning NULL.
-/

import En7512.Logic.DoWhile
import En7512.Nand.Chip

namespace En7512.Net

open En7512.Logic En7512.Nand

/-! ## The pool -/

/-- `SKBUFF_SIZE`. -/
def skbuffSize : ℕ := 512

/-- A pointer to one of the buffers, as its place in the array. -/
abbrev Skb := Fin skbuffSize

instance : NeZero skbuffSize := ⟨by decide⟩

/-- A `sk_buff`. Its pointers point into its own `buf` and are offsets in it. -/
structure SkbPool.SkBuff where
  buf : Bytes
  truesize : ℕ
  data : ℕ
  ipHdr : Option ℕ
  udpHdr : Option ℕ
  used : ℕ
  len : ℕ

/-- An address in the buffer of a packet. -/
structure BufAddr where
  skb : Skb
  offset : ℕ
  deriving DecidableEq

/-- The array `skbuff` and the cursor `skb_cur`. -/
structure SkbPool where
  skbuff : Skb → SkbPool.SkBuff
  skbCur : Skb

/-- `skb_headerinit`. -/
def skbHeaderinit (used : ℕ) : SkbPool.SkBuff where
  buf := fun _ => 0
  truesize := 2000
  data := 0
  ipHdr := none
  udpHdr := none
  used := used
  len := 0

namespace SkbPool

/-- The pool with the header of one buffer initialised. -/
def headerinit (p : SkbPool) (skb : Skb) (used : ℕ) : SkbPool :=
  { p with skbuff := Function.update p.skbuff skb (skbHeaderinit used) }

/-- The pool with one buffer changed. -/
def modify (p : SkbPool) (skb : Skb) (f : SkBuff → SkBuff) : SkbPool :=
  { p with skbuff := Function.update p.skbuff skb (f (p.skbuff skb)) }

/-- `skb_reserve`. -/
def skbReserve (skb : Skb) (len : ℕ) (p : SkbPool) : SkbPool :=
  p.modify skb fun b => { b with data := b.data + len }

/-- `skb->len = len`. -/
def setLen (skb : Skb) (len : ℕ) (p : SkbPool) : SkbPool :=
  p.modify skb fun b => { b with len := len }

/-- The variables of the loop of `alloc_skb`. -/
structure Search where
  skb : Skb
  skbCur : Skb

/-- The body of the loop of `alloc_skb`. The cursor goes round in its type. -/
def Search.next (s : Search) : Search := ⟨s.skbCur, s.skbCur + 1⟩

/-- `alloc_skb`, if its loop is over after `fuel` rounds. It does not look at the size. The
pointer it returns would be `none` for NULL. -/
def allocSkb (fuel : ℕ) (p : SkbPool) : Option (Option Skb × SkbPool) :=
  (doWhile Search.next (fun s => (p.skbuff s.skb).used = 1) fuel ⟨p.skbCur, p.skbCur⟩).map
    fun s => (some s.skb, { p with skbCur := s.skbCur }.headerinit s.skb 1)

/-- The address in `skb->data`. -/
def dataAddr (p : SkbPool) (skb : Skb) : BufAddr := ⟨skb, (p.skbuff skb).data⟩

/-- `free_skb`. -/
def freeSkb (skb : Skb) (p : SkbPool) : SkbPool := p.headerinit skb 0

/-- The loop of `alloc_skb` would stop at this buffer. -/
def Unused (p : SkbPool) (skb : Skb) : Prop := (p.skbuff skb).used ≠ 1

instance (p : SkbPool) (skb : Skb) : Decidable (p.Unused skb) := inferInstanceAs (Decidable (¬ _))

/-- The callers of `alloc_skb` get what they check for: it returns, with a buffer that was
not in use if there is one, and with NULL if there is none. -/
def AllocReturns (p : SkbPool) : Prop :=
  ∃ fuel skb p', p.allocSkb fuel = some (skb, p') ∧
    match skb with
    | some i => p.Unused i ∧ (p'.skbuff i).used = 1 ∧ ∀ j ≠ i, p'.skbuff j = p.skbuff j
    | none => ∀ i, ¬ p.Unused i

/-! ## One call -/

section Call

variable {p p' : SkbPool} {skb : Option Skb} {i j : Skb} {fuel : ℕ}

@[simp] theorem skbuff_headerinit_self (used : ℕ) :
    (p.headerinit i used).skbuff i = skbHeaderinit used := Function.update_self ..

theorem skbuff_headerinit_of_ne (h : j ≠ i) (used : ℕ) :
    (p.headerinit i used).skbuff j = p.skbuff j := Function.update_of_ne h ..

@[simp] theorem skbuff_modify_self (f : SkBuff → SkBuff) :
    (p.modify i f).skbuff i = f (p.skbuff i) := Function.update_self ..

theorem skbuff_modify_of_ne (h : j ≠ i) (f : SkBuff → SkBuff) :
    (p.modify i f).skbuff j = p.skbuff j := Function.update_of_ne h ..

/-- A round looks at the buffer under the cursor and moves the cursor on. -/
theorem Search.iterate_next_succ (k : ℕ) (s : Search) :
    Search.next^[k + 1] s = ⟨(Search.next^[k] s).skbCur, (Search.next^[k] s).skbCur + 1⟩ := by
  rw [Function.iterate_succ_apply']
  rfl

/-- The cursor goes round the array. -/
theorem Search.skbCur_iterate_next (k : ℕ) (s : Search) :
    ((Search.next^[k] s).skbCur : ℕ) = (s.skbCur + k) % skbuffSize := by
  induction k with
  | zero => exact (Nat.mod_eq_of_lt s.skbCur.isLt).symm
  | succ k ih =>
      rw [Search.iterate_next_succ, Fin.val_add, ih]
      show ((s.skbCur + k) % skbuffSize + 1) % skbuffSize = _
      rw [Nat.mod_add_mod, Nat.add_assoc]

/-- Every buffer is looked at once in the first `skbuffSize` rounds. -/
theorem Search.reaches (s : Search) (i : Skb) :
    ∃ k < skbuffSize, Search.next^[k + 1] s = ⟨i, i + 1⟩ := by
  have cursor := s.skbCur.isLt
  have place := i.isLt
  use (i + (skbuffSize - s.skbCur)) % skbuffSize
  constructor
  · exact Nat.mod_lt _ (by decide)
  · have back : (Search.next^[(i + (skbuffSize - s.skbCur)) % skbuffSize] s).skbCur = i := by
      apply Fin.ext
      rw [Search.skbCur_iterate_next, Nat.add_mod_mod]
      have round : (s.skbCur : ℕ) + (i + (skbuffSize - s.skbCur)) = i + skbuffSize := by omega
      rw [round, Nat.add_mod_right, Nat.mod_eq_of_lt place]
    rw [Search.iterate_next_succ, back]

/-- What `alloc_skb` returns, when it returns. -/
theorem allocSkb_some (h : p.allocSkb fuel = some (skb, p')) :
    ∃ i, skb = some i ∧ p.Unused i ∧ p' = { p with skbCur := i + 1 }.headerinit i 1 := by
  obtain ⟨s, ended, out⟩ := Option.map_eq_some_iff.mp h
  obtain ⟨unused, k, -, rounds⟩ := doWhile_some ended
  rw [Search.iterate_next_succ] at rounds
  cases rounds
  cases out
  exact ⟨_, rfl, unused, rfl⟩

/-- While all buffers are in use, `alloc_skb` does not return. -/
theorem allocSkb_eq_none (h : ∀ i, ¬ p.Unused i) (fuel : ℕ) : p.allocSkb fuel = none := by
  apply Option.map_eq_none_iff.mpr
  apply doWhile_eq_none_iff.mpr
  intro k _
  exact not_not.mp (h _)

/-- With a buffer that is not in use, one round for each buffer is enough. -/
theorem allocSkb_isSome (h : p.Unused i) : ∃ out, p.allocSkb skbuffSize = some out := by
  apply Option.ne_none_iff_exists'.mp
  intro none
  have all := doWhile_eq_none_iff.mp (Option.map_eq_none_iff.mp none)
  obtain ⟨k, hk, rounds⟩ := Search.reaches ⟨p.skbCur, p.skbCur⟩ i
  have used := all k hk
  rw [rounds] at used
  exact h used

/-- The buffer that `alloc_skb` returns, and the others. -/
theorem allocSkb_spec (h : p.allocSkb fuel = some (some i, p')) :
    p.Unused i ∧ (p'.skbuff i).used = 1 ∧ ∀ j ≠ i, p'.skbuff j = p.skbuff j := by
  obtain ⟨i, same, unused, rfl⟩ := allocSkb_some h
  cases same
  refine ⟨unused, ?_, fun j hj => skbuff_headerinit_of_ne hj 1⟩
  rw [skbuff_headerinit_self]
  rfl

/-- A buffer from `alloc_skb` with room reserved in it. -/
theorem allocSkb_skbReserve (h : p.allocSkb fuel = some (some i, p')) (len : ℕ) :
    p.Unused i ∧ ((p'.skbReserve i len).skbuff i).used = 1 ∧
      ∀ j ≠ i, (p'.skbReserve i len).skbuff j = p.skbuff j := by
  obtain ⟨unused, used, others⟩ := allocSkb_spec h
  refine ⟨unused, ?_, fun j hj => ?_⟩
  · rw [skbReserve, skbuff_modify_self]
    exact used
  · rw [skbReserve, skbuff_modify_of_ne hj, others j hj]

/-- `alloc_skb` does what its callers rely on exactly when a buffer is not in use. -/
theorem allocReturns_iff : p.AllocReturns ↔ ∃ i, p.Unused i := by
  constructor
  · rintro ⟨fuel, skb, p', h, right⟩
    obtain ⟨i, rfl, unused, rfl⟩ := allocSkb_some h
    exact ⟨i, unused⟩
  · rintro ⟨i, unused⟩
    obtain ⟨⟨skb, p'⟩, h⟩ := allocSkb_isSome unused
    use skbuffSize, skb, p', h
    obtain ⟨i, rfl, -⟩ := allocSkb_some h
    exact allocSkb_spec h

end Call

/-! ## Sequences of calls -/

/-- What a sequence of calls has done with the buffers. -/
inductive Event
  /-- `alloc_skb` returned the buffer. -/
  | handedOut (skb : Skb)
  /-- The buffer was given to `free_skb`. -/
  | freed (skb : Skb)

/-- The events of calls of `alloc_skb`, as far as they return, and `free_skb`, in order, and
the pool after them. -/
inductive History (start : SkbPool) : List Event → SkbPool → Prop
  | nil : History start [] start
  | alloc {events : List Event} {p p' : SkbPool} {skb : Skb} {fuel : ℕ}
      (before : History start events p) (returns : p.allocSkb fuel = some (some skb, p')) :
      History start (events ++ [.handedOut skb]) p'
  | free {events : List Event} {p : SkbPool} (before : History start events p) (skb : Skb) :
      History start (events ++ [.freed skb]) (p.freeSkb skb)

/-- Between two times that a buffer is handed out, it is freed. -/
def NeverTwice (events : List Event) : Prop :=
  ∀ skb first between last,
    events = first ++ .handedOut skb :: between ++ .handedOut skb :: last → .freed skb ∈ between

/-- The buffer has been handed out, and has not been freed since. -/
def Out (events : List Event) (skb : Skb) : Prop :=
  ∃ first since, events = first ++ .handedOut skb :: since ∧ .freed skb ∉ since

section Events

variable {events : List Event} {i j : Skb}

theorem Out.of_handedOut (h : Out (events ++ [.handedOut j]) i) : i = j ∨ Out events i := by
  obtain ⟨first, since, split, kept⟩ := h
  obtain rfl | ⟨since, last, rfl⟩ := List.eq_nil_or_concat' since
  · left
    obtain ⟨-, same⟩ := List.append_inj' split rfl
    cases same
    rfl
  · right
    have shorter : events = first ++ .handedOut i :: since := by
      rw [← List.cons_append, ← List.append_assoc] at split
      exact (List.append_inj' split rfl).1
    exact ⟨first, since, shorter, fun freed => kept (List.mem_append_left _ freed)⟩

theorem Out.of_freed (h : Out (events ++ [.freed j]) i) : i ≠ j ∧ Out events i := by
  obtain ⟨first, since, split, kept⟩ := h
  obtain rfl | ⟨since, last, rfl⟩ := List.eq_nil_or_concat' since
  · obtain ⟨-, same⟩ := List.append_inj' split rfl
    cases same
  · rw [← List.cons_append, ← List.append_assoc] at split
    obtain ⟨shorter, same⟩ := List.append_inj' split rfl
    cases same
    constructor
    · rintro rfl
      exact kept (List.mem_append_right _ List.mem_cons_self)
    · exact ⟨first, since, shorter, fun freed => kept (List.mem_append_left _ freed)⟩

theorem out_append_handedOut : Out (events ++ [.handedOut i]) i :=
  ⟨events, [], rfl, List.not_mem_nil⟩

theorem Out.append {e : Event} (h : Out events i) (kept : e ≠ .freed i) :
    Out (events ++ [e]) i := by
  obtain ⟨first, since, rfl, before⟩ := h
  use first, since ++ [e], List.append_assoc ..
  intro freed
  obtain freed | freed := List.mem_append.mp freed
  · exact before freed
  · exact kept (List.mem_singleton.mp freed).symm

theorem NeverTwice.handedOut (h : NeverTwice events) (back : ¬ Out events j) :
    NeverTwice (events ++ [.handedOut j]) := by
  intro i first between last split
  obtain rfl | ⟨last, e, rfl⟩ := List.eq_nil_or_concat' last
  · obtain ⟨shorter, same⟩ := List.append_inj' split rfl
    cases same
    by_contra kept
    exact back ⟨first, between, shorter, kept⟩
  · rw [← List.cons_append, ← List.append_assoc] at split
    exact h i first between last (List.append_inj' split rfl).1

theorem NeverTwice.freed (h : NeverTwice events) : NeverTwice (events ++ [.freed j]) := by
  intro i first between last split
  obtain rfl | ⟨last, e, rfl⟩ := List.eq_nil_or_concat' last
  · obtain ⟨-, same⟩ := List.append_inj' split rfl
    cases same
  · rw [← List.cons_append, ← List.append_assoc] at split
    exact h i first between last (List.append_inj' split rfl).1

end Events

/-- A buffer that is out is marked as used. -/
theorem History.used_of_out {start p : SkbPool} {events : List Event}
    (h : History start events p) : ∀ i, Out events i → (p.skbuff i).used = 1 := by
  induction h with
  | nil =>
      rintro i ⟨first, since, split, -⟩
      cases first <;> cases split
  | @alloc events p p' skb fuel before returns ih =>
      intro i out
      obtain ⟨j, same, unused, rfl⟩ := allocSkb_some returns
      cases same
      by_cases new : i = skb
      · rw [new, skbuff_headerinit_self]
        rfl
      · rw [skbuff_headerinit_of_ne new]
        exact ih i (out.of_handedOut.resolve_left new)
  | free before j ih =>
      intro i out
      obtain ⟨other, out⟩ := out.of_freed
      rw [freeSkb, skbuff_headerinit_of_ne other]
      exact ih i out

/-- No buffer is handed out twice without being freed in between. -/
theorem History.neverTwice {start p : SkbPool} {events : List Event}
    (h : History start events p) : NeverTwice events := by
  induction h with
  | nil =>
      intro i first between last split
      cases first <;> cases split
  | @alloc events p p' skb fuel before returns ih =>
      obtain ⟨j, same, unused, rfl⟩ := allocSkb_some returns
      cases same
      exact ih.handedOut fun out => unused (before.used_of_out skb out)
  | free before j ih => exact ih.freed

/-- `alloc_skb` returns as its callers expect, from any pool, if and only if a buffer is not
in use; and whatever the sequence of calls, no buffer is handed out twice without being
freed in between. -/
theorem allocSkb_returns (p : SkbPool) :
    (p.AllocReturns ↔ ∃ i, p.Unused i) ∧
      ∀ events p', History p events p' → NeverTwice events :=
  ⟨allocReturns_iff, fun _ _ h => h.neverTwice⟩

/-- A pool all of whose buffers are in use. -/
def exhausted : SkbPool := ⟨fun _ => skbHeaderinit 1, 0⟩

/-- With all buffers in use, `alloc_skb` neither returns NULL nor anything else. -/
theorem exhausted_not_allocReturns : ¬ exhausted.AllocReturns := by
  rintro ⟨fuel, skb, p', h, -⟩
  rw [allocSkb_eq_none (fun i => not_not.mpr rfl) fuel] at h
  cases h

end SkbPool

end En7512.Net
