/-
# Caches that replace their oldest entry

A cache has a fixed number of slots and a cursor. A key that is present is updated where
it is; a key that is absent takes the slot under the cursor, and the cursor moves on to
the next one, round and round. Read backwards from the cursor, the slots are the last
insertions, and that makes the cache a bounded map: it knows the keys among its last
insertions, each with the value that was put last.
-/

import Mathlib.Data.List.Basic
import Mathlib.Data.List.FinRange
import Mathlib.Data.Fin.Basic
import Mathlib.Algebra.Group.Fin.Basic
import Mathlib.Algebra.Ring.Nat
import Mathlib.Data.Finset.Card

namespace En7512.Logic

variable {κ ν : Type} {cap : ℕ}

/-! ## The map -/

/-- The keys that were absent when they were put, the last one first. A key is present while
it is among the last `cap` of them. The history has the last call first, too. -/
def insertions [DecidableEq κ] (cap : ℕ) : List (κ × ν) → List κ
  | [] => []
  | (k, _) :: h =>
      if k ∈ (insertions cap h).take cap then insertions cap h else k :: insertions cap h

/-- The key is among the last `cap` insertions. -/
def Present [DecidableEq κ] (cap : ℕ) (h : List (κ × ν)) (k : κ) : Prop :=
  k ∈ (insertions cap h).take cap

instance [DecidableEq κ] (cap : ℕ) (h : List (κ × ν)) (k : κ) : Decidable (Present cap h k) :=
  inferInstanceAs (Decidable (_ ∈ _))

section Few

variable [DecidableEq κ] {h : List (κ × ν)} {keys : Finset κ}

/-- With no more keys than slots, no key is inserted twice, and none is forgotten. -/
theorem insertions_of_few (few : keys.card ≤ cap) (inside : ∀ e ∈ h, e.1 ∈ keys) :
    (insertions cap h).Nodup ∧ (insertions cap h).length ≤ keys.card ∧
      (∀ k ∈ insertions cap h, k ∈ keys) ∧ ∀ e ∈ h, e.1 ∈ insertions cap h := by
  induction h with
  | nil =>
      exact ⟨List.nodup_nil, Nat.zero_le _, fun k hk => absurd hk List.not_mem_nil,
        fun e he => absurd he List.not_mem_nil⟩
  | cons e h ih =>
      obtain ⟨nodup, short, sub, all⟩ := ih fun e he => inside e (List.mem_cons_of_mem _ he)
      have whole : (insertions cap h).take cap = insertions cap h :=
        List.take_of_length_le (short.trans few)
      rw [insertions, whole]
      by_cases present : e.1 ∈ insertions cap h
      · rw [if_pos present]
        refine ⟨nodup, short, sub, fun e' he' => ?_⟩
        rcases List.mem_cons.mp he' with rfl | before
        · exact present
        · exact all e' before
      · rw [if_neg present]
        have nodup' : (e.1 :: insertions cap h).Nodup := List.nodup_cons.mpr ⟨present, nodup⟩
        have sub' : ∀ k ∈ e.1 :: insertions cap h, k ∈ keys := by
          intro k hk
          rcases List.mem_cons.mp hk with rfl | before
          · exact inside e List.mem_cons_self
          · exact sub k before
        refine ⟨nodup', ?_, sub', fun e' he' => ?_⟩
        · rw [← List.toFinset_card_of_nodup nodup']
          exact Finset.card_le_card fun k hk => sub' k (List.mem_toFinset.mp hk)
        · rcases List.mem_cons.mp he' with rfl | before
          · exact List.mem_cons_self
          · exact List.mem_cons_of_mem _ (all e' before)

/-- So every key that has been put is present. -/
theorem present_of_few (few : keys.card ≤ cap) (inside : ∀ e ∈ h, e.1 ∈ keys) {e : κ × ν}
    (put : e ∈ h) : Present cap h e.1 := by
  obtain ⟨-, short, -, all⟩ := insertions_of_few few inside
  rw [Present, List.take_of_length_le (short.trans few)]
  exact all e put

end Few

/-! ## The cache -/

/-- The slots, and the cursor to the one that is replaced next. -/
structure FifoCache (cap : ℕ) (κ ν : Type) where
  slot : Fin cap → Option (κ × ν)
  cursor : Fin cap

namespace FifoCache

variable [DecidableEq κ]

/-- The first slot with the key. -/
def find (c : FifoCache cap κ ν) (k : κ) : Option (Fin cap) :=
  (List.finRange cap).find? fun i => (c.slot i).map Prod.fst = some k

variable [NeZero cap]

/-- Update the slot of the key, or replace the one under the cursor. -/
def put (k : κ) (v : ν) (c : FifoCache cap κ ν) : FifoCache cap κ ν :=
  match c.find k with
  | some i => { c with slot := Function.update c.slot i (some (k, v)) }
  | none =>
      { slot := Function.update c.slot c.cursor (some (k, v)), cursor := c.cursor + 1 }

/-- No slot is taken. -/
def empty : FifoCache cap κ ν := ⟨fun _ => none, 0⟩

/-- The cache after a history of calls, the last one first. -/
def after (h : List (κ × ν)) : FifoCache cap κ ν := h.foldr (fun e => put e.1 e.2) empty

/-- Read backwards from the cursor, the slots hold the last insertions, each key with its
last value. -/
structure Represents (c : FifoCache cap κ ν) (h : List (κ × ν)) : Prop where
  slot : ∀ j : Fin cap, c.slot (c.cursor - 1 - j) =
    ((insertions cap h)[(j : ℕ)]?).bind fun k => (h.lookup k).map (k, ·)
  distinct : ((insertions cap h).take cap).Nodup

section Represents

variable {c : FifoCache cap κ ν} {h : List (κ × ν)} {k k' : κ} {v : ν} {i : Fin cap}

omit [NeZero cap] in
theorem key_of_find (found : c.find k = some i) : (c.slot i).map Prod.fst = some k := by
  rw [find] at found
  simpa using List.find?_some found

omit [NeZero cap] in
theorem find_eq_none : c.find k = none ↔ ∀ i, (c.slot i).map Prod.fst ≠ some k := by
  simp [find]

omit [DecidableEq κ] in
/-- The slot at distance `j` behind the cursor. -/
theorem exists_distance (c : FifoCache cap κ ν) (i : Fin cap) : ∃ j, i = c.cursor - 1 - j :=
  ⟨c.cursor - 1 - i, (sub_sub_cancel _ _).symm⟩

omit [NeZero cap] in
/-- A key that was inserted has a last value. -/
theorem lookup_isSome (inserted : k ∈ insertions cap h) : (h.lookup k).isSome := by
  induction h with
  | nil => cases inserted
  | cons e h ih =>
      obtain ⟨k', v⟩ := e
      rw [List.lookup_cons]
      by_cases same : k = k'
      · simp [same]
      · have before : k ∈ insertions cap h := by
          rw [insertions] at inserted
          split at inserted
          · exact inserted
          · exact List.mem_of_ne_of_mem same inserted
        rw [beq_false_of_ne same]
        exact ih before

/-- The keys in the slots are the last insertions. -/
theorem Represents.key_eq (r : c.Represents h) (j : Fin cap) :
    (c.slot (c.cursor - 1 - j)).map Prod.fst = (insertions cap h)[(j : ℕ)]? := by
  rw [r.slot j]
  cases found : (insertions cap h)[(j : ℕ)]? with
  | none => rfl
  | some k =>
      obtain ⟨v, value⟩ := Option.isSome_iff_exists.mp
        (lookup_isSome (List.mem_of_getElem? found))
      simp [value]

/-- A key is in a slot when it is present. -/
theorem Represents.present_iff (r : c.Represents h) :
    Present cap h k ↔ ∃ i, (c.slot i).map Prod.fst = some k := by
  rw [Present, List.mem_iff_getElem?]
  constructor
  · rintro ⟨j, at_j⟩
    rw [List.getElem?_take] at at_j
    split at at_j
    · rename_i small
      exact ⟨_, (r.key_eq ⟨j, small⟩).trans at_j⟩
    · cases at_j
  · rintro ⟨i, key⟩
    obtain ⟨j, rfl⟩ := c.exists_distance i
    use j
    rw [List.getElem?_take_of_lt j.isLt, ← r.key_eq j, key]

/-- No key has two slots. -/
theorem Represents.slot_unique (r : c.Represents h) {i j : Fin cap}
    (at_i : (c.slot i).map Prod.fst = some k)
    (at_j : (c.slot j).map Prod.fst = some k) : i = j := by
  obtain ⟨a, rfl⟩ := c.exists_distance i
  obtain ⟨b, rfl⟩ := c.exists_distance j
  rw [r.key_eq, ← List.getElem?_take_of_lt a.isLt] at at_i
  rw [r.key_eq, ← List.getElem?_take_of_lt b.isLt] at at_j
  obtain ⟨ha, -⟩ := List.getElem?_eq_some_iff.mp at_i
  have same : (a : ℕ) = b := (List.getElem?_inj ha r.distinct).mp (at_i.trans at_j.symm)
  rw [Fin.ext same]

/-- While fewer keys than slots have been put, a slot is free. -/
theorem Represents.exists_free (r : c.Represents h) {keys : Finset κ} (few : keys.card < cap)
    (inside : ∀ e ∈ h, e.1 ∈ keys) : ∃ i, c.slot i = none := by
  obtain ⟨-, short, -⟩ := insertions_of_few few.le inside
  use c.cursor - 1 - ⟨keys.card, few⟩
  rw [r.slot, List.getElem?_eq_none short]
  rfl

theorem Represents.empty : (FifoCache.empty : FifoCache cap κ ν).Represents [] where
  slot := fun _ => rfl
  distinct := by
    rw [insertions, List.take_nil]
    exact List.nodup_nil

/-- A present key is updated where it is. -/
theorem Represents.put_present (r : c.Represents h) (found : c.find k = some i) (v : ν) :
    (c.put k v).Represents ((k, v) :: h) := by
  have present : k ∈ (insertions cap h).take cap := r.present_iff.mpr ⟨i, key_of_find found⟩
  have same : insertions cap ((k, v) :: h) = insertions cap h := if_pos present
  constructor
  · intro j
    rw [put, found, same]
    show Function.update c.slot i _ (c.cursor - 1 - j) = _
    by_cases here : c.cursor - 1 - j = i
    · have key : (insertions cap h)[(j : ℕ)]? = some k := by
        rw [← r.key_eq, here, key_of_find found]
      rw [here, Function.update_self, key]
      simp
    · rw [Function.update_of_ne here, r.slot]
      cases key : (insertions cap h)[(j : ℕ)]? with
      | none => rfl
      | some k' =>
          have other : k' ≠ k := by
            rintro rfl
            exact here (r.slot_unique ((r.key_eq j).trans key) (key_of_find found))
          simp [List.lookup_cons, beq_false_of_ne other]
  · rw [same]
    exact r.distinct

/-- An absent key takes the slot under the cursor. -/
theorem Represents.put_absent (r : c.Represents h) (absent : c.find k = none) (v : ν) :
    (c.put k v).Represents ((k, v) :: h) := by
  have missing : k ∉ (insertions cap h).take cap := by
    intro present
    obtain ⟨i, key⟩ := r.present_iff.mp present
    exact find_eq_none.mp absent i key
  have grown : insertions cap ((k, v) :: h) = k :: insertions cap h := if_neg missing
  constructor
  · intro j
    rw [put, absent, grown]
    show Function.update c.slot c.cursor _ (c.cursor + 1 - 1 - j) = _
    rw [add_sub_cancel_right]
    by_cases first : j = 0
    · rw [first, sub_zero, Function.update_self]
      simp
    · -- the slots before it are one further from the cursor than they were
      have back : c.cursor - j = c.cursor - 1 - (j - 1) :=
        (sub_sub_sub_cancel_right _ _ _).symm
      have elsewhere : c.cursor - j ≠ c.cursor := fun h => first (sub_eq_self.mp h)
      have place : (j : ℕ) = ((j - 1 : Fin cap) : ℕ) + 1 := by
        have pos : (j : ℕ) ≠ 0 := mt (Fin.ext (b := 0)) first
        rw [Fin.val_sub_one_of_ne_zero first]
        omega
      rw [Function.update_of_ne elsewhere, back, r.slot, place, List.getElem?_cons_succ]
      cases key : (insertions cap h)[((j - 1 : Fin cap) : ℕ)]? with
      | none => rfl
      | some k' =>
          have other : k' ≠ k := by
            rintro rfl
            exact find_eq_none.mp absent _ ((r.key_eq (j - 1)).trans key)
          simp [List.lookup_cons, beq_false_of_ne other]
  · rw [grown]
    cases cap with
    | zero => exact List.nodup_nil
    | succ n =>
        have shorter := List.take_sublist_take_left (l := insertions (n + 1) h) n.le_succ
        rw [List.take_succ_cons]
        exact List.nodup_cons.mpr
          ⟨fun again => missing (shorter.subset again), r.distinct.sublist shorter⟩

/-- One call. -/
theorem Represents.put (r : c.Represents h) (k : κ) (v : ν) :
    (c.put k v).Represents ((k, v) :: h) := by
  cases found : c.find k with
  | none => exact r.put_absent found v
  | some i => exact r.put_present found v

/-- Every history of calls. -/
theorem represents_after (h : List (κ × ν)) :
    (after h : FifoCache cap κ ν).Represents h := by
  induction h with
  | nil => exact Represents.empty
  | cons e h ih => exact ih.put e.1 e.2

/-- A present key is found, and the slot has its last value. -/
theorem Represents.find_of_present (r : c.Represents h) (present : Present cap h k) :
    ∃ i v, c.find k = some i ∧ c.slot i = some (k, v) ∧ h.lookup k = some v := by
  cases found : c.find k with
  | none =>
      obtain ⟨i, key⟩ := r.present_iff.mp present
      exact absurd key (find_eq_none.mp found i)
  | some i =>
      have key := key_of_find found
      obtain ⟨j, rfl⟩ := c.exists_distance i
      obtain ⟨v, value⟩ := Option.isSome_iff_exists.mp
        (lookup_isSome (List.mem_of_mem_take present))
      use c.cursor - 1 - j, v, rfl
      rw [r.key_eq] at key
      rw [r.slot j, key]
      simp [value]

/-- An absent key is not found. -/
theorem Represents.find_of_absent (r : c.Represents h) (absent : ¬ Present cap h k) :
    c.find k = none :=
  find_eq_none.mpr fun i key => absent (r.present_iff.mpr ⟨i, key⟩)

end Represents

end FifoCache

end En7512.Logic
