/-
# Queues linked through their nodes

A singly linked list with a pointer to its first node and one to its last node is a queue:
nodes come in behind the last one and leave at the front. What the pointers stand for is a
list of nodes without repetitions, in which each node points to the one after it and the
last one to nothing.
-/

import Mathlib.Data.List.Nodup

namespace En7512.Logic

variable {α : Type} {next next' : α → Option α} {head tail : Option α} {nodes : List α}
  {a b last : α}

/-- The pointers stand for this list of nodes. -/
structure LinkedQueue (next : α → Option α) (head tail : Option α) (nodes : List α) : Prop where
  head : head = nodes.head?
  tail : tail = nodes.getLast?
  next : ∀ i a, nodes[i]? = some a → next a = nodes[i + 1]?
  nodup : nodes.Nodup

namespace LinkedQueue

theorem nil (next : α → Option α) : LinkedQueue next none none [] where
  head := rfl
  tail := rfl
  next i a h := by cases h
  nodup := List.nodup_nil

theorem singleton (h : next a = none) : LinkedQueue next (some a) (some a) [a] where
  head := rfl
  tail := rfl
  next i b hb := by
    cases i with
    | zero =>
        cases hb
        exact h
    | succ i => cases hb
  nodup := List.nodup_singleton a

/-- The head is empty exactly when the queue is. -/
theorem head_eq_none_iff (h : LinkedQueue next head tail nodes) : head = none ↔ nodes = [] := by
  rw [h.head, List.head?_eq_none_iff]

/-- The pointers of other nodes do not matter. -/
theorem congr (h : LinkedQueue next head tail nodes) (same : ∀ a ∈ nodes, next' a = next a) :
    LinkedQueue next' head tail nodes where
  head := h.head
  tail := h.tail
  next i a ha := (same a (List.mem_of_getElem? ha)).trans (h.next i a ha)
  nodup := h.nodup

/-- A node comes in behind the last one. -/
theorem enqueue [DecidableEq α] (h : LinkedQueue next head (some last) nodes) (new : a ∉ nodes)
    (free : next a = none) :
    LinkedQueue (Function.update next last (some a)) head (some a) (nodes ++ [a]) := by
  obtain rfl | ⟨before, x, rfl⟩ := List.eq_nil_or_concat' nodes
  · cases h.tail
  · have tail := h.tail
    rw [List.getLast?_concat] at tail
    cases tail
    have length : (before ++ [last]).length = before.length + 1 := List.length_append
    constructor
    · rw [h.head]
      cases before <;> rfl
    · exact List.getLast?_concat.symm
    · intro i b hb
      obtain inside | rfl | rfl : i < before.length ∨ i = before.length ∨
          i = before.length + 1 := by
        have bound := (List.getElem?_eq_some_iff.mp hb).1
        rw [List.length_append, length, List.length_singleton] at bound
        omega
      · rw [List.getElem?_append_left (by omega)] at hb
        have other : b ≠ last := by
          rintro rfl
          rw [List.getElem?_append_left inside] at hb
          have twice := h.nodup
          rw [List.nodup_append] at twice
          exact twice.2.2 b (List.mem_of_getElem? hb) b (List.mem_singleton_self b) rfl
        rw [Function.update_of_ne other, h.next i b hb]
        exact (List.getElem?_append_left (by omega)).symm
      · rw [List.getElem?_append_left (by omega), List.getElem?_concat_length] at hb
        cases hb
        rw [Function.update_self, ← length, List.getElem?_concat_length]
      · rw [← length, List.getElem?_concat_length] at hb
        cases hb
        have other : a ≠ last := by
          rintro rfl
          exact new (List.mem_append_right _ (List.mem_singleton_self a))
        rw [Function.update_of_ne other, free]
        apply Eq.symm
        apply List.getElem?_eq_none
        apply Nat.le_of_eq
        rw [List.length_append, length, List.length_singleton]
    · exact List.nodup_append.mpr ⟨h.nodup, List.nodup_singleton a,
        fun x hx y hy same => new (List.mem_singleton.mp hy ▸ same ▸ hx)⟩

/-- The first node is the last one exactly when it is the only one. -/
theorem head_eq_tail_iff (h : LinkedQueue next head tail (a :: nodes)) :
    head = tail ↔ nodes = [] := by
  rw [h.head, h.tail]
  cases nodes with
  | nil => exact iff_of_true rfl rfl
  | cons b rest =>
      apply iff_of_false _ nofun
      rw [List.head?_cons, List.getLast?_cons_cons]
      intro same
      exact (List.nodup_cons.mp h.nodup).1 (List.mem_of_getLast? same.symm)

/-- The first node leaves, and there are others. -/
theorem dequeue [DecidableEq α] (h : LinkedQueue next head tail (a :: b :: nodes)) :
    LinkedQueue (Function.update next a none) (next a) tail (b :: nodes) := by
  have first : a ∉ b :: nodes := (List.nodup_cons.mp h.nodup).1
  constructor
  · exact h.next 0 a rfl
  · rw [h.tail, List.getLast?_cons_cons]
  · intro i c hc
    have other : c ≠ a := by
      rintro rfl
      exact first (List.mem_of_getElem? hc)
    rw [Function.update_of_ne other]
    exact h.next (i + 1) c hc
  · exact (List.nodup_cons.mp h.nodup).2

end LinkedQueue

end En7512.Logic
