/-
# Loops over a list of segments

A table of segments, each with an offset and a length, numbers the positions in its
segments through. Two nested loops with one running index visit the positions in that
order; they stop at a segment of length zero, after a number of segments, or when the
index has reached a bound. `walkSegments_eq` says what they do: one pass over the first
positions.
-/

import Mathlib.Data.List.TakeWhile
import Mathlib.Tactic

namespace En7512.Logic

variable {β : Type} (go : ℕ → Bool) (visit : ℕ → ℕ → β → β)

/-- The inner loop, over the positions from `offset + j` on: how far the index has come, and
what has been made of the accumulator. -/
def walkSegment (offset : ℕ) : ℕ → ℕ → ℕ → β → ℕ × β
  | 0, _, idx, acc => (idx, acc)
  | left + 1, j, idx, acc =>
      if go idx then walkSegment offset left (j + 1) (idx + 1) (visit idx (offset + j) acc)
      else (idx, acc)

/-- The outer loop, over the offsets and lengths of at most `rounds` segments. -/
def walkSegments : ℕ → List (ℕ × ℕ) → ℕ → β → β
  | 0, _, _, acc => acc
  | _ + 1, [], _, acc => acc
  | rounds + 1, (offset, len) :: segments, idx, acc =>
      if len ≠ 0 && go idx then
        let (idx, acc) := walkSegment go visit offset len 0 idx acc
        walkSegments rounds segments idx acc
      else acc

/-- One pass over positions, with a running index. -/
def visitAll : ℕ → List ℕ → β → β
  | _, [], acc => acc
  | idx, pos :: positions, acc => visitAll (idx + 1) positions (visit idx pos acc)

/-- The segments before the end of the table. -/
def usedSegments (rounds : ℕ) (segments : List (ℕ × ℕ)) : List (ℕ × ℕ) :=
  (segments.take rounds).takeWhile fun s => s.2 ≠ 0

/-- The positions of segments, in order. -/
def segmentPositions (segments : List (ℕ × ℕ)) : List ℕ :=
  segments.flatMap fun s => (List.range' 0 s.2).map (s.1 + ·)

variable {visit}

theorem visitAll_append (idx : ℕ) (first second : List ℕ) (acc : β) :
    visitAll visit idx (first ++ second) acc =
      visitAll visit (idx + first.length) second (visitAll visit idx first acc) := by
  induction first generalizing idx acc with
  | nil => rfl
  | cons pos first ih =>
      rw [List.cons_append, visitAll, ih, visitAll, List.length_cons]
      congr 1
      omega

/-- The inner loop visits as many positions as the segment has and the bound allows. -/
theorem walkSegment_eq (bound offset left j idx : ℕ) (acc : β) :
    walkSegment (fun i => i < bound) visit offset left j idx acc =
      (idx + min left (bound - idx),
        visitAll visit idx (((List.range' j left).map (offset + ·)).take (bound - idx)) acc) := by
  induction left generalizing j idx acc with
  | zero => simp [walkSegment, visitAll]
  | succ left ih =>
      rw [walkSegment]
      by_cases more : idx < bound
      · obtain ⟨room, hroom⟩ : ∃ room, bound - idx = room + 1 := ⟨bound - idx - 1, by omega⟩
        have next : bound - (idx + 1) = room := by omega
        rw [if_pos (by simpa using more), ih, next, hroom, List.range'_succ, List.map_cons,
          List.take_succ_cons, visitAll]
        congr 1
        omega
      · have none : bound - idx = 0 := by omega
        rw [if_neg (by simpa using more), none, List.take_zero, visitAll, Nat.min_zero]
        rfl

/-- The nested loops are one pass over the first positions of the segments in use. -/
theorem walkSegments_eq (bound rounds : ℕ) (segments : List (ℕ × ℕ)) (idx : ℕ) (acc : β) :
    walkSegments (fun i => i < bound) visit rounds segments idx acc =
      visitAll visit idx
        ((segmentPositions (usedSegments rounds segments)).take (bound - idx)) acc := by
  induction rounds generalizing segments idx acc with
  | zero => simp [walkSegments, usedSegments, segmentPositions, visitAll]
  | succ rounds ih =>
      cases segments with
      | nil => simp [walkSegments, usedSegments, segmentPositions, visitAll]
      | cons segment segments =>
          obtain ⟨offset, len⟩ := segment
          rw [walkSegments]
          by_cases ends : len = 0
          · simp [ends, usedSegments, segmentPositions, visitAll]
          by_cases more : idx < bound
          case neg =>
            have none : bound - idx = 0 := by omega
            rw [if_neg (by simp [more]), none, List.take_zero, visitAll]
          have used : usedSegments (rounds + 1) ((offset, len) :: segments) =
              (offset, len) :: usedSegments rounds segments := by
            simp [usedSegments, ends]
          rw [if_pos (by simp [ends, more]), walkSegment_eq, used, segmentPositions,
            List.flatMap_cons, List.take_append, visitAll_append]
          dsimp only
          rw [ih, segmentPositions]
          simp only [List.length_take, List.length_map, List.length_range']
          congr 2 <;> omega

/-! ## What the passes leave -/

section Passes

variable {γ : Type}

/-- Storing what is at the positions under the running index. -/
theorem visitAll_store (src : ℕ → γ) (positions : List ℕ) (idx : ℕ) (acc : ℕ → γ) (i : ℕ) :
    visitAll (fun idx pos acc => Function.update acc idx (src pos)) idx positions acc i =
      if idx ≤ i ∧ i < idx + positions.length then src (positions.getD (i - idx) 0) else acc i := by
  induction positions generalizing idx acc with
  | nil => exact (if_neg (by simp)).symm
  | cons pos positions ih =>
      rw [visitAll, ih, List.length_cons]
      by_cases here : i = idx
      · subst here
        rw [if_neg (by omega), if_pos (by omega), Function.update_self, Nat.sub_self]
        rfl
      · rw [Function.update_of_ne here]
        by_cases later : idx + 1 ≤ i ∧ i < idx + 1 + positions.length
        · have next : i - idx = i - (idx + 1) + 1 := by omega
          rw [if_pos later, if_pos (by omega), next, List.getD_cons_succ]
        · rw [if_neg later, if_neg (by omega)]

/-- Changing what is at the positions, each of which comes once. -/
theorem visitAll_modify (f : γ → ℕ → γ) {positions : List ℕ} (nodup : positions.Nodup) (idx : ℕ)
    (acc : ℕ → γ) (j : ℕ) :
    visitAll (fun idx pos acc => Function.update acc pos (f (acc pos) idx)) idx positions acc j =
      if j ∈ positions then f (acc j) (idx + positions.idxOf j) else acc j := by
  induction positions generalizing idx acc with
  | nil => exact (if_neg List.not_mem_nil).symm
  | cons pos positions ih =>
      obtain ⟨fresh, nodup⟩ := List.nodup_cons.mp nodup
      rw [visitAll, ih nodup]
      by_cases here : j = pos
      · subst here
        rw [if_neg fresh, if_pos List.mem_cons_self, Function.update_self, List.idxOf_cons_self]
        rfl
      · rw [Function.update_of_ne here]
        by_cases later : j ∈ positions
        · rw [if_pos later, if_pos (List.mem_cons_of_mem _ later),
            List.idxOf_cons_ne _ (Ne.symm here)]
          congr 1
          omega
        · rw [if_neg later, if_neg fun h => (List.mem_cons.mp h).elim here later]

end Passes

/-! ## The positions -/

section Positions

variable {segments : List (ℕ × ℕ)}

theorem mem_segmentPositions {j : ℕ} :
    j ∈ segmentPositions segments ↔ ∃ s ∈ segments, s.1 ≤ j ∧ j < s.1 + s.2 := by
  simp only [segmentPositions, List.mem_flatMap, List.mem_map, List.mem_range'_1]
  constructor
  · rintro ⟨s, hs, k, inside, rfl⟩
    exact ⟨s, hs, by omega⟩
  · rintro ⟨s, hs, inside⟩
    exact ⟨s, hs, j - s.1, by omega⟩

theorem length_segmentPositions :
    (segmentPositions segments).length = (segments.map Prod.snd).sum := by
  simp [segmentPositions, List.length_flatMap]

/-- Segments that do not overlap number every position once. -/
theorem nodup_segmentPositions
    (disjoint : segments.Pairwise fun s t => s.1 + s.2 ≤ t.1 ∨ t.1 + t.2 ≤ s.1) :
    (segmentPositions segments).Nodup := by
  rw [segmentPositions, List.nodup_flatMap]
  constructor
  · intro s _
    apply List.Nodup.map (add_right_injective s.1)
    exact List.nodup_range'
  · apply disjoint.imp
    intro s t apart j hs ht
    simp only [List.mem_map, List.mem_range'_1] at hs ht
    omega

end Positions

end En7512.Logic
