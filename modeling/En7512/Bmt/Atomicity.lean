/-
# When a failed update changes the table

`update_bmt` edits the table in memory before it writes the table to the flash.
When no block is left for the image it returns false, and the edit stays. That
happens when the blocks that fail in the call leave exactly one free block: the
failed block is replaced by that one, and then there is none for the image.

The flash is `FaultStep`: checks tell the truth and marks take effect, and any
program or erase may fail.
-/

import En7512.Bmt.Preservation
import En7512.Bmt.Retirement
import En7512.Flash.Internal
import En7512.Nand.Faults

namespace En7512.Bmt

open En7512.Logic En7512.Nand En7512.Logic.Routine

/-- `mapped_count`, the live entries and the block of every address are the same. -/
structure TableKept (g : Geometry) (r r' : Ram) : Prop where
  count : r'.bmt.mappedCount = r.bmt.mappedCount
  live : r'.bmt.live = r.bmt.live
  mapping : ∀ index, Flash.getMappingBlockIndex g r' index = Flash.getMappingBlockIndex g r index

/-- The blocks that fail leave one free block: the block of the table is none of
those left, and neither is the pool block that is to be replaced. -/
structure OneBlockLeft (g : Geometry) (L : OobLayout) (r : Ram) (pages : ℕ → Page)
    (badIndex : ℕ) (broken : List ℕ) : Prop where
  single : ∃! b, Free g L r pages b ∧ b ∉ broken
  table : r.bmtBlockIndex = 0 ∨ r.bmtBlockIndex ∈ broken
  replaced : g.InPool badIndex → BlockBad L pages badIndex ∨ badIndex ∈ broken

/-! ## What a search leaves -/

/-- Work on one block. If it has failed, the block is broken. -/
structure Attempt (block : ℕ) (w : Faults) (ok : Bool) (w' : Faults) : Prop where
  others : ∀ b ≠ block, SameBlock w.pages w'.pages b
  broken : ∀ b, b ∈ w'.broken ↔ b ∈ w.broken ∨ ok = false ∧ b = block

/-- Searching for a block: a free block stays free and does not fail, or it fails and
is marked. The other blocks are left alone. -/
structure Searched (g : Geometry) (L : OobLayout) (r : Ram) (w w' : Faults) : Prop where
  frame : ∀ b, ¬ Free g L r w.pages b →
    (BlockBad L w'.pages b ↔ BlockBad L w.pages b) ∧ (b ∈ w'.broken ↔ b ∈ w.broken)
  free : ∀ b, Free g L r w.pages b →
    Free g L r w'.pages b ∧ (b ∈ w'.broken ↔ b ∈ w.broken) ∨
      ¬ Free g L r w'.pages b ∧ b ∈ w'.broken

/-- The result of looking for a block until one has taken what was written to it. -/
inductive Chosen (g : Geometry) (L : OobLayout) (r : Ram) (w : Faults) : ℕ → Faults → Prop
  /-- No free block is left. -/
  | none {w' : Faults} (searched : Searched g L r w w') (empty : ∀ b, ¬ Free g L r w'.pages b) :
      Chosen g L r w 0 w'
  | found {block : ℕ} {w₁ w' : Faults} (ne : block ≠ 0) (searched : Searched g L r w w₁)
      (free : Free g L r w₁.pages block) (attempt : Attempt block w₁ true w') :
      Chosen g L r w block w'

section Search

variable {g : Geometry} {L : OobLayout} {r : Ram} {w w' w'' : Faults} {block : ℕ} {ok : Bool}

theorem Attempt.refl (block : ℕ) (w : Faults) : Attempt block w true w :=
  ⟨fun _ _ => .refl _ _, fun _ => by simp⟩

theorem Attempt.trans (h : Attempt block w true w') (h' : Attempt block w' ok w'') :
    Attempt block w ok w'' := by
  constructor
  · exact fun b hb => (h.others b hb).trans (h'.others b hb)
  · intro b
    rw [h'.broken, h.broken]
    simp

/-- A block that did not fail in the attempt. -/
theorem Attempt.notMem (h : Attempt block w true w') {b : ℕ} :
    b ∈ w'.broken ↔ b ∈ w.broken := by
  rw [h.broken]
  simp

theorem Searched.refl (w : Faults) : Searched g L r w w :=
  ⟨fun _ _ => ⟨Iff.rfl, Iff.rfl⟩, fun _ free => .inl ⟨free, Iff.rfl⟩⟩

theorem Searched.stays (h : Searched g L r w w') {b : ℕ} (used : ¬ Free g L r w.pages b) :
    ¬ Free g L r w'.pages b := fun free =>
  used ⟨free.unused, fun bad => free.good ((h.frame b used).1.mpr bad)⟩

/-- A block that is free after the search was free before and has not failed. -/
theorem Searched.before (h : Searched g L r w w') {b : ℕ} (free : Free g L r w'.pages b) :
    Free g L r w.pages b ∧ (b ∈ w'.broken ↔ b ∈ w.broken) := by
  by_cases before : Free g L r w.pages b
  · rcases h.free b before with ⟨-, same⟩ | ⟨gone, -⟩
    · exact ⟨before, same⟩
    · exact absurd free gone
  · exact absurd free (h.stays before)

theorem Searched.mono (h : Searched g L r w w') {b : ℕ} (broken : b ∈ w.broken) :
    b ∈ w'.broken := by
  by_cases free : Free g L r w.pages b
  · rcases h.free b free with ⟨-, same⟩ | ⟨-, broken'⟩
    · exact same.mpr broken
    · exact broken'
  · exact (h.frame b free).2.mpr broken

theorem Searched.trans (h : Searched g L r w w') (h' : Searched g L r w' w'') :
    Searched g L r w w'' := by
  constructor
  · intro b used
    obtain ⟨bad, broken⟩ := h.frame b used
    obtain ⟨bad', broken'⟩ := h'.frame b (h.stays used)
    exact ⟨bad'.trans bad, broken'.trans broken⟩
  · intro b free
    rcases h.free b free with ⟨free', same⟩ | ⟨gone, broken⟩
    · rcases h'.free b free' with ⟨free'', same'⟩ | failed
      · exact .inl ⟨free'', same'.trans same⟩
      · exact .inr failed
    · exact .inr ⟨h'.stays gone, h'.mono broken⟩

theorem Chosen.after (h : Searched g L r w w') (chosen : Chosen g L r w' block w'') :
    Chosen g L r w block w'' := by
  cases chosen with
  | none searched empty => exact .none (h.trans searched) empty
  | found ne searched free attempt => exact .found ne (h.trans searched) free attempt

/-- The free block has failed and is marked. -/
theorem searched_of_failed (free : Free g L r w.pages block) (attempt : Attempt block w false w')
    {page : Page} {kind : BadKind} (marked : page.Marked L kind) :
    Searched g L r w ⟨Function.update w'.pages (pageAddr block) page, w'.broken⟩ := by
  have others : ∀ b ≠ block,
      SameBlock w.pages (Function.update w'.pages (pageAddr block) page) b := by
    intro b hb
    apply (attempt.others b hb).trans
    apply sameBlock_update
    rw [pageAddr_div_self]
    exact hb.symm
  have broken : ∀ b ≠ block, (b ∈ w'.broken ↔ b ∈ w.broken) := by
    intro b hb
    rw [attempt.broken]
    simp [hb]
  constructor
  · intro b used
    have hb : b ≠ block := by
      rintro rfl
      exact used free
    exact ⟨(others b hb).blockBad, broken b hb⟩
  · intro b free'
    by_cases hb : b = block
    · subst hb
      exact .inr ⟨fun free => free.good (blockBad_update marked),
        (attempt.broken b).mpr (.inr ⟨rfl, rfl⟩)⟩
    · exact .inl ⟨⟨free'.unused, fun bad => free'.good ((others b hb).blockBad.mp bad)⟩,
        broken b hb⟩

/-- Erasing a free block with success. -/
theorem searched_of_erased (free : Free g L r w.pages block) : Searched g L r w
    ⟨fun p => if p / pagePerBlock = block then .erased else w.pages p, w.broken⟩ := by
  have others : ∀ b ≠ block, SameBlock w.pages
      (fun p => if p / pagePerBlock = block then .erased else w.pages p) b :=
    fun b hb p hp => if_neg fun eq => hb (hp.symm.trans eq)
  constructor
  · intro b used
    have hb : b ≠ block := by
      rintro rfl
      exact used free
    exact ⟨(others b hb).blockBad, Iff.rfl⟩
  · intro b free'
    by_cases hb : b = block
    · subst hb
      exact .inl ⟨⟨free.unused, Blank.good fun p hp => if_pos hp⟩, Iff.rfl⟩
    · exact .inl ⟨⟨free'.unused, fun bad => free'.good ((others b hb).blockBad.mp bad)⟩, Iff.rfl⟩

theorem Searched.congr {r₀ : Ram} (same : ∀ b, Unused g r b ↔ Unused g r₀ b)
    (h : Searched g L r w w') : Searched g L r₀ w w' := by
  constructor
  · intro b used
    exact h.frame b fun free => used ((free_congr same b).mp free)
  · intro b free
    simpa only [free_congr same b] using h.free b ((free_congr same b).mpr free)

theorem Chosen.congr {r₀ : Ram} (same : ∀ b, Unused g r b ↔ Unused g r₀ b)
    (h : Chosen g L r w block w') : Chosen g L r₀ w block w' := by
  cases h with
  | none searched empty =>
      exact .none (searched.congr same) fun b free => empty b ((free_congr same b).mpr free)
  | found ne searched free attempt =>
      exact .found ne (searched.congr same) ((free_congr same _).mp free) attempt

end Search

/-! ## Single calls -/

section Calls

variable {g : Geometry} {L : OobLayout} {r : Ram} {w : Faults} {block : ℕ}

theorem fault_checkBad {kind : BadKind} {post : Bool → Ram → Faults → Prop}
    (inside : block < g.totalBlockCount)
    (h : ∀ marked : Bool, (marked = true ↔ (firstPage w.pages block).Marked L kind) →
      post marked r w) :
    wp (FaultStep L) (nandBlockBadBmt (blockOffset block) kind) post r w := by
  rw [nandBlockBadBmt, wp_perform]
  rintro answer w' ⟨rfl, told⟩
  rw [foldReserved_block inside, blockOffset_div_page] at told
  exact h answer told

theorem fault_blockMarkedBad {post : Bool → Ram → Faults → Prop}
    (inside : block < g.totalBlockCount)
    (h : ∀ marked : Bool, (marked = true ↔ BlockBad L w.pages block) → post marked r w) :
    wp (FaultStep L) (blockMarkedBad block) post r w := by
  rw [blockMarkedBad, wp_bind]
  apply fault_checkBad inside
  intro raw hraw
  cases raw with
  | true => exact h true (by simpa [BlockBad] using .inl (hraw.mp rfl))
  | false =>
      rw [if_neg (by simp)]
      have notRaw : ¬ (firstPage w.pages block).Marked L .raw := fun marked => by
        simpa using hraw.mpr marked
      apply fault_checkBad inside
      intro later hlater
      apply h
      rw [hlater, BlockBad, or_iff_right notRaw]

theorem fault_blockAvailable {post : Bool → Ram → Faults → Prop} (pool : g.InPool block)
    (h : ∀ available : Bool, (available = true ↔ Free g L r w.pages block) →
      post available r w) :
    wp (FaultStep L) (blockAvailable block) post r w := by
  rw [blockAvailable, wp_bind, wp_get]
  by_cases hbmt : block = r.bmtBlockIndex
  · rw [if_pos hbmt]
    exact h false (by simpa using fun free : Free g L r w.pages block => free.unused.ne_bmt hbmt)
  rw [if_neg hbmt]
  by_cases hbbt : block = r.bbtBlockIndex
  · rw [if_pos hbbt]
    exact h false (by simpa using fun free : Free g L r w.pages block => free.unused.ne_bbt hbbt)
  rw [if_neg hbbt, wp_bind]
  apply fault_blockMarkedBad pool.2
  intro marked hm
  cases marked with
  | true =>
      exact h false (by simpa using fun free : Free g L r w.pages block => free.good (hm.mp rfl))
  | false =>
      have good : ¬ BlockBad L w.pages block := fun bad => by simpa using hm.mpr bad
      apply h
      rw [Bool.not_eq_true']
      exact ⟨fun unmapped => ⟨⟨pool, hbmt, hbbt, unmapped⟩, good⟩, fun free => free.unused.unmapped⟩

theorem fault_markBlock {kind : BadKind} {post : Unit → Ram → Faults → Prop}
    (h : ∀ page : Page, page.Marked L kind →
      post () r ⟨Function.update w.pages (pageAddr block) page, w.broken⟩) :
    wp (FaultStep L) (markBlockBadBmt (blockOffset block) kind) post r w := by
  rw [markBlockBadBmt, wp_bind, wp_perform]
  rintro answer w' ⟨page, marked, rfl⟩
  rw [blockOffset_div_page]
  exact h page marked

/-- Erasing or writing to a block is an attempt. -/
theorem fault_eraseBlock {post : Bool → Ram → Faults → Prop}
    (h : ∀ ok w', Attempt block w ok w' → (ok = true → w' =
      ⟨fun p => if p / pagePerBlock = block then .erased else w.pages p, w.broken⟩) →
      post ok r w') :
    wp (FaultStep L) (nandEraseBmt (blockOffset block)) post r w := by
  rw [nandEraseBmt, blockOffset_div_erase, wp_perform]
  rintro ok w' ⟨left, erased, rfl⟩
  apply h
  · constructor
    · exact fun b hb p hp => if_neg fun eq => hb (hp.symm.trans eq)
    · cases ok <;> simp [noteBroken, or_comm]
  · rintro rfl
    rw [erased rfl]
    rfl

theorem fault_writePage {page : ℕ} {dat oob : Bytes} {post : Bool → Ram → Faults → Prop}
    (inside : page < pagePerBlock) (h : ∀ ok w', Attempt block w ok w' → post ok r w') :
    wp (FaultStep L) (nandWritePageBmt (pageAddr block + page) dat oob) post r w := by
  rw [nandWritePageBmt, wp_perform]
  rintro ok w' ⟨new, rfl⟩
  have here : (pageAddr block + page) / pagePerBlock = block := pageAddr_div block inside
  apply h
  constructor
  · intro b hb
    apply sameBlock_update
    rw [here]
    exact hb.symm
  · cases ok <;> simp [noteBroken, here, or_comm]

theorem fault_writeFirst {dat oob : Bytes} {post : Bool → Ram → Faults → Prop}
    (h : ∀ ok w', Attempt block w ok w' → post ok r w') :
    wp (FaultStep L) (nandWritePageBmt (pageAddr block) dat oob) post r w := by
  rw [← Nat.add_zero (pageAddr block)]
  exact fault_writePage (by decide) h

theorem fault_readPage {page : ℕ} {post : Bool → Ram → Faults → Prop}
    (h : ∀ done r', post done r' w) : wp (FaultStep L) (nandReadPageBmt page) post r w := by
  rw [nandReadPageBmt, wp_bind, wp_perform]
  rintro answer w' rfl
  cases answer with
  | none => exact h false r
  | some content => exact h true _

theorem fault_setIndex {errorBlock : ℕ} {post : Unit → Ram → Faults → Prop}
    (h : ∀ r', post () r' w) :
    wp (FaultStep L) (setIndexOfSystemBlock g errorBlock) post r w := by
  rw [setIndexOfSystemBlock]
  split
  · exact h _
  · exact h r

end Calls

/-! ## The search -/

section Find

variable {g : Geometry} {L : OobLayout} {r : Ram} {w : Faults}

theorem fault_erasePool (blocks : List ℕ) (pool : ∀ b ∈ blocks, g.InPool b) :
    wp (FaultStep L) (erasePool blocks) (fun _ _ w' => Searched g L r w w') r w := by
  induction blocks generalizing w with
  | nil => exact .refl w
  | cons block blocks ih =>
      have rest : ∀ w₁, Searched g L r w w₁ →
          wp (FaultStep L) (erasePool blocks) (fun _ _ w' => Searched g L r w w') r w₁ :=
        fun w₁ searched => wp_mono (fun _ _ _ later => searched.trans later)
          (ih fun b hb => pool b (List.mem_cons_of_mem block hb))
      rw [erasePool, wp_bind]
      apply fault_blockAvailable (pool block List.mem_cons_self)
      intro available hfree
      cases available with
      | false => exact rest w (.refl w)
      | true =>
          have free := hfree.mp rfl
          rw [if_pos rfl, wp_bind]
          apply fault_eraseBlock
          intro ok w₁ attempt erased
          cases ok with
          | true =>
              rw [if_pos rfl, erased rfl]
              exact rest _ (searched_of_erased free)
          | false =>
              rw [if_neg (by simp), wp_bind]
              apply fault_markBlock
              exact fun page marked => rest _ (searched_of_failed free attempt marked)

theorem fault_scanPool (blocks : List ℕ) (pool : ∀ b ∈ blocks, g.InPool b) :
    wp (FaultStep L) (scanPool blocks) (fun block _ w' => w' = w ∧
      (block ≠ 0 → Free g L r w.pages block) ∧
      (block = 0 → ∀ b ∈ blocks, ¬ Free g L r w.pages b)) r w := by
  induction blocks with
  | nil => exact ⟨rfl, fun ne => absurd rfl ne, by simp⟩
  | cons block blocks ih =>
      have inPool := pool block List.mem_cons_self
      rw [scanPool, wp_bind]
      apply fault_blockAvailable inPool
      intro available hfree
      cases available with
      | true => exact ⟨rfl, fun _ => hfree.mp rfl, fun zero => absurd zero inPool.pos⟩
      | false =>
          apply wp_mono _ (ih fun b hb => pool b (List.mem_cons_of_mem block hb))
          rintro found r' w' ⟨same, free, empty⟩
          refine ⟨same, free, fun zero b hb => ?_⟩
          rcases List.mem_cons.mp hb with rfl | hb
          · exact fun free => by simpa using hfree.mpr free
          · exact empty zero b hb

/-- `find_available_block`: it gives out a free block, and 0 only if there is none. -/
theorem fault_findAvailableBlock (startFromEnd : Bool) :
    wp (FaultStep L) (findAvailableBlock g startFromEnd) (fun block _ w' =>
      Searched g L r w w' ∧ (block ≠ 0 → Free g L r w'.pages block) ∧
      (block = 0 → ∀ b, ¬ Free g L r w'.pages b)) r w := by
  have once : wp (FaultStep L) (erasePoolOnce g) (fun _ r' w' =>
      r' = { r with poolErased := true } ∧ Searched g L r w w') r w := by
    apply wp_mono _ (wp_and (wp_of_ensures (erasePoolOnce_ensures g)) _)
    · exact fun _ _ w' => Searched g L r w w'
    · exact fun _ _ _ h => h
    · rw [erasePoolOnce, wp_bind, wp_get]
      split
      · exact .refl w
      · rw [wp_bind]
        exact fault_erasePool g.poolBlocks fun b hb => g.mem_poolBlocks.mp hb
  rw [findAvailableBlock, wp_bind]
  apply wp_mono _ once
  rintro _ r₁ w₁ ⟨rfl, searched⟩
  have mem : ∀ b, b ∈ (if startFromEnd then g.poolBlocks.reverse else g.poolBlocks) ↔
      g.InPool b := by
    intro b
    cases startFromEnd <;> simp
  have same : ∀ b, Unused g { r with poolErased := true } b ↔ Unused g r b := by
    intro b
    apply unused_congr <;> rfl
  apply wp_mono _ (fault_scanPool _ fun b hb => (mem b).mp hb)
  rintro block r' w' ⟨rfl, free, empty⟩
  refine ⟨searched, fun ne => (free_congr same _).mp (free ne), fun zero b now => ?_⟩
  exact empty zero b ((mem b).mpr now.unused.pool) ((free_congr same b).mpr now)

end Find

/-! ## Moving a block and writing the table -/

section Write

variable {g : Geometry} {L : OobLayout} {r : Ram} {w : Faults}

theorem fault_copyPages {errorBlock toIndex : ℕ} (copied : List ℕ)
    (inside : ∀ p ∈ copied, p < pagePerBlock) :
    wp (FaultStep L) (copyPages g errorBlock toIndex copied)
      (fun done _ w' => Attempt toIndex w done w') r w := by
  induction copied generalizing r w with
  | nil => exact .refl toIndex w
  | cons page copied ih =>
      rw [copyPages, wp_bind]
      apply fault_readPage
      intro _ r₁
      rw [wp_bind]
      apply fault_setIndex
      intro r₂
      rw [wp_bind, wp_get, wp_bind]
      apply fault_writePage (inside page List.mem_cons_self)
      intro written w₁ attempt
      cases written with
      | false => exact attempt
      | true =>
          apply wp_mono _ (ih fun p hp => inside p (List.mem_cons_of_mem _ hp))
          exact fun _ _ _ later => attempt.trans later

theorem fault_migrateTo {toIndex offset : ℕ} (dat oob : Option Bytes) :
    wp (FaultStep L) (migrateTo g toIndex offset dat oob)
      (fun done _ w' => Attempt toIndex w done w') r w := by
  have inside : offset / pageSize % pagePerBlock < pagePerBlock := Nat.mod_lt _ (by decide)
  rw [migrateTo, wp_bind]
  apply wp_mono _ (fault_copyPages _ fun p hp => (List.mem_range.mp hp).trans inside)
  intro done r₁ w₁ attempt
  cases done with
  | false => exact attempt
  | true =>
      rw [if_pos rfl]
      rcases dat with _ | dat
      · exact trivial
      rcases oob with _ | oob
      · exact trivial
      rw [writeErrorPage, wp_bind, wp_modify, wp_bind]
      apply fault_setIndex
      intro r₂
      rw [wp_bind, wp_get]
      apply fault_writePage inside
      exact fun _ _ later => attempt.trans later

/-- `migrate_from_bad`. -/
theorem fault_migrateFromBad (depth : ℕ) {offset : ℕ} {dat oob : Option Bytes} :
    wp (FaultStep L) (migrateFromBad g offset dat oob depth)
      (fun block _ w' => Chosen g L r w block w') r w := by
  induction depth generalizing r w with
  | zero => exact trivial
  | succ depth ih =>
      rw [migrateFromBad, wp_bind]
      apply wp_mono _ (wp_and (fault_findAvailableBlock false)
        (wp_of_ensures (findAvailableBlock_ensures g false)))
      rintro toIndex r₁ w₁ ⟨⟨searched, found, empty⟩, rfl, -⟩
      by_cases none : toIndex = 0
      · subst none
        rw [if_pos rfl]
        exact .none searched (empty rfl)
      rw [if_neg none, wp_bind]
      apply wp_mono _ (wp_and (fault_migrateTo dat oob)
        (wp_of_ensures (migrateTo_ensures g toIndex offset dat oob)))
      rintro written r₂ w₂ ⟨attempt, same⟩
      cases written with
      | true => exact .found none searched (found none) attempt
      | false =>
          have tables : SameTables r r₂ := ⟨same.bmt, same.initBbt, same.bmtBlockIndex,
            same.bbtBlockIndex, same.pBbt, same.needBmt, same.needBbt⟩
          rw [if_neg (by simp), wp_bind]
          apply fault_markBlock
          intro page marked
          apply wp_mono _ ih
          intro block r' w' chosen
          apply Chosen.after (searched.trans (searched_of_failed (found none) attempt marked))
          exact chosen.congr tables.unused_iff

theorem fault_replacementBlock (depth : ℕ) {offset : ℕ} {reason : UpdateReason}
    {dat oob : Option Bytes} :
    wp (FaultStep L) (replacementBlock g depth offset reason dat oob)
      (fun block _ w' => Chosen g L r w block w') r w := by
  rw [replacementBlock]
  split
  · exact fault_migrateFromBad depth
  · apply wp_mono _ (fault_findAvailableBlock false)
    rintro block r' w' ⟨searched, found, empty⟩
    by_cases none : block = 0
    · subst none
      exact .none searched (empty rfl)
    · exact .found none searched (found none) (.refl block w')

/-- The table has no block any more: if it had one, the block has failed and is marked. -/
structure GivenUp (L : OobLayout) (block : ℕ) (w w' : Faults) : Prop where
  others : ∀ b ≠ block, SameBlock w.pages w'.pages b
  bad : block ≠ 0 → BlockBad L w'.pages block
  broken : ∀ b, b ∈ w'.broken ↔ b ∈ w.broken ∨ block ≠ 0 ∧ b = block

/-- How `write_bmt_to_flash` ends. -/
inductive TableWritten (g : Geometry) (L : OobLayout) (r : Ram) (w : Faults) :
    Bool → Faults → Prop
  | inPlace {w' : Faults} (ne : r.bmtBlockIndex ≠ 0) (broken : ∀ b, b ∈ w'.broken ↔ b ∈ w.broken) :
      TableWritten g L r w true w'
  | placed {block : ℕ} {w₁ w' : Faults} (gone : GivenUp L r.bmtBlockIndex w w₁)
      (chosen : Chosen g L r.withoutBmt w₁ block w') : TableWritten g L r w (decide (block ≠ 0)) w'

theorem fault_retireBmtBlock {post : Unit → Ram → Faults → Prop}
    (h : ∀ (page : Page), page.Marked L .generateLater →
      post () r.withoutBmt ⟨Function.update w.pages (pageAddr r.bmtBlockIndex) page, w.broken⟩) :
    wp (FaultStep L) retireBmtBlock post r w := by
  rw [retireBmtBlock, wp_bind, wp_get, wp_bind]
  apply fault_markBlock
  exact fun page marked => h page marked

/-- `write_bmt_to_flash` while the table has no block. -/
theorem fault_writeBmtToFlash_unplaced (depth : ℕ) {dat oob : Bytes} (zero : r.bmtBlockIndex = 0) :
    wp (FaultStep L) (writeBmtToFlash g dat oob depth) (fun done _ w' =>
      ∃ block, done = decide (block ≠ 0) ∧ Chosen g L r.withoutBmt w block w') r w := by
  induction depth generalizing r w with
  | zero => exact trivial
  | succ depth ih =>
      have same := unused_of_index_zero (g := g) zero
      rw [writeBmtToFlash, wp_bind, prepareBmtBlock, wp_bind, wp_get, if_pos zero, wp_bind]
      apply wp_mono _ (wp_and (fault_findAvailableBlock true)
        (wp_of_ensures (findAvailableBlock_ensures g true)))
      rintro block r₁ w₁ ⟨⟨searched, found, empty⟩, rfl, -⟩
      replace searched := searched.congr same
      rw [wp_bind, wp_modify]
      by_cases none : block = 0
      · subst none
        rw [if_pos rfl]
        exact ⟨0, by simp, .none searched fun b free => empty rfl b ((free_congr same b).mpr free)⟩
      have free := (free_congr same block).mp (found none)
      rw [if_neg none, wp_pure]
      show wp _ (_ >>= _) _ _ _
      rw [wp_bind, wp_get, wp_bind]
      apply fault_writeFirst
      intro written w₂ attempt
      cases written with
      | true => exact ⟨block, by simp [none], .found none searched free attempt⟩
      | false =>
          rw [if_neg (by simp), wp_bind]
          apply fault_retireBmtBlock
          intro page marked
          apply wp_mono _ (ih rfl)
          rintro done r' w' ⟨next, eq, chosen⟩
          refine ⟨next, eq, .after (searched.trans (searched_of_failed free attempt marked)) ?_⟩
          apply chosen.congr
          intro b
          apply unused_congr <;> rfl

/-- `write_bmt_to_flash`. -/
theorem fault_writeBmtToFlash (depth : ℕ) {dat oob : Bytes} :
    wp (FaultStep L) (writeBmtToFlash g dat oob depth)
      (fun done _ w' => TableWritten g L r w done w') r w := by
  by_cases zero : r.bmtBlockIndex = 0
  · apply wp_mono _ (fault_writeBmtToFlash_unplaced depth zero)
    rintro done r' w' ⟨block, rfl, chosen⟩
    apply TableWritten.placed _ chosen
    exact ⟨fun _ _ => .refl _ _, fun ne => absurd zero ne, fun b => by simp [zero]⟩
  cases depth with
  | zero => exact trivial
  | succ depth =>
      -- the block has failed; from here on the table has no block
      have again : ∀ w₁, Attempt r.bmtBlockIndex w false w₁ →
          wp (FaultStep L) (retireBmtBlock >>= fun _ => writeBmtToFlash g dat oob depth)
            (fun done _ w' => TableWritten g L r w done w') r w₁ := by
        intro w₁ attempt
        rw [wp_bind]
        apply fault_retireBmtBlock
        intro page marked
        apply wp_mono _ (fault_writeBmtToFlash_unplaced depth rfl)
        rintro done r' w' ⟨block, rfl, chosen⟩
        have found : Chosen g L r.withoutBmt _ block w' := chosen
        apply TableWritten.placed _ found
        constructor
        · intro b hb
          apply (attempt.others b hb).trans
          apply sameBlock_update
          rw [pageAddr_div_self]
          exact hb.symm
        · exact fun _ => blockBad_update marked
        · intro b
          simp [attempt.broken, zero]
      rw [writeBmtToFlash, wp_bind, prepareBmtBlock, wp_bind, wp_get, if_neg zero, wp_bind]
      apply fault_eraseBlock
      intro ok w₁ attempt _
      cases ok with
      | false => exact again w₁ attempt
      | true =>
          rw [if_pos rfl, wp_pure]
          show wp _ (_ >>= _) _ _ _
          rw [wp_bind, wp_get, wp_bind]
          apply fault_writeFirst
          intro written w₂ attempt'
          have both := attempt.trans attempt'
          cases written with
          | true => exact .inPlace zero fun b => both.notMem
          | false =>
              rw [if_neg (by simp)]
              exact again w₂ both

end Write

/-! ## Which blocks are left -/

section Left

variable {g : Geometry} {L : OobLayout} {r : Ram} {w w' w₁ w₂ : Faults} {badIndex mapIndex : ℕ}

/-- What has become of the blocks when the failed block has been replaced and the
table has no block. -/
structure Placing (g : Geometry) (L : OobLayout) (r : Ram) (mapIndex : ℕ) (w w₂ : Faults) :
    Prop where
  free : Free g L r w.pages mapIndex
  spared : mapIndex ∉ w₂.broken
  used : ∀ b, ¬ Free g L r w.pages b → b ≠ r.bmtBlockIndex →
    (BlockBad L w₂.pages b ↔ BlockBad L w.pages b) ∧ b ∉ w₂.broken
  others : ∀ b ≠ mapIndex, Free g L r w.pages b →
    ¬ BlockBad L w₂.pages b ∧ b ∉ w₂.broken ∨ BlockBad L w₂.pages b ∧ b ∈ w₂.broken

/-- When nothing has failed before. -/
theorem placing (fresh : w.broken = []) (ne : mapIndex ≠ 0) (chosen : Chosen g L r w mapIndex w₁)
    (gone : GivenUp L r.bmtBlockIndex w₁ w₂) : Placing g L r mapIndex w w₂ := by
  cases chosen with
  | none searched empty => exact absurd rfl ne
  | @found _ w₀ _ _ searched free attempt =>
      have same : ∀ b ≠ r.bmtBlockIndex, b ∈ w₂.broken ↔ b ∈ w₀.broken := by
        intro b hb
        rw [gone.broken, attempt.notMem]
        simp [hb]
      have bad : ∀ b ≠ r.bmtBlockIndex, b ≠ mapIndex →
          (BlockBad L w₂.pages b ↔ BlockBad L w₀.pages b) := fun b table other =>
        (gone.others b table).blockBad.trans (attempt.others b other).blockBad
      obtain ⟨before, spared⟩ := searched.before free
      rw [fresh] at spared
      refine ⟨before, fun broken => ?_, fun b used table => ?_, fun b other free' => ?_⟩
      · rw [same mapIndex free.unused.ne_bmt, spared] at broken
        exact List.not_mem_nil broken
      · obtain ⟨marks, failures⟩ := searched.frame b used
        have other : b ≠ mapIndex := by
          rintro rfl
          exact used before
        rw [fresh] at failures
        refine ⟨(bad b table other).trans marks, fun broken => ?_⟩
        rw [same b table, failures] at broken
        exact List.not_mem_nil broken
      · have table := free'.unused.ne_bmt
        rw [same b table, bad b table other]
        rcases searched.free b free' with ⟨still, spared⟩ | ⟨lost, broken⟩
        · rw [fresh] at spared
          exact .inl ⟨still.good, fun broken => List.not_mem_nil (spared.mp broken)⟩
        · refine .inr ⟨?_, broken⟩
          by_contra good
          exact lost ⟨free'.unused, good⟩

/-- If there is nothing to write the table to, the replacement was the last block. -/
theorem Placing.oneBlockLeft (h : Placing g L r mapIndex w w₂) (inv : DisjointTables g r)
    (room : r.bmt.HasRoom g badIndex) (updatable : Updatable g r badIndex)
    (gone : r.bmtBlockIndex ≠ 0 → r.bmtBlockIndex ∈ w₂.broken)
    (searched : Searched g L (r.remapped g badIndex mapIndex).withoutBmt w₂ w')
    (empty : ∀ b, ¬ Free g L (r.remapped g badIndex mapIndex).withoutBmt w'.pages b) :
    OneBlockLeft g L r w.pages badIndex w'.broken := by
  -- a block that could be taken for the table has failed
  have failed : ∀ b, Unused g (r.remapped g badIndex mapIndex) b → ¬ BlockBad L w₂.pages b →
      b ∈ w'.broken := by
    intro b unused good
    have free : Free g L (r.remapped g badIndex mapIndex).withoutBmt w₂.pages b :=
      ⟨(unused_withoutBmt.mp unused).1, good⟩
    rcases searched.free b free with ⟨still, -⟩ | ⟨-, broken⟩
    · exact absurd still (empty b)
    · exact broken
  have mapped := remap_mapped inv.toDisjointBmt room updatable mapIndex
  constructor
  · refine ⟨mapIndex, ⟨h.free, fun broken => ?_⟩, fun b hb => ?_⟩
    · have used : ¬ Free g L (r.remapped g badIndex mapIndex).withoutBmt w₂.pages mapIndex :=
        fun free => Bool.noConfusion (free.unused.unmapped.symm.trans mapped)
      exact h.spared ((searched.frame mapIndex used).2.mp broken)
    · by_contra other
      apply hb.2
      rcases h.others b other hb.1 with ⟨good, -⟩ | ⟨-, broken⟩
      · have unused := hb.1.unused
        exact failed b ⟨unused.pool, unused.ne_bmt, unused.ne_bbt,
          remap_unmapped room updatable (Ne.symm other) unused.unmapped⟩ good
      · exact searched.mono broken
  · by_cases zero : r.bmtBlockIndex = 0
    · exact .inl zero
    · exact .inr (searched.mono (gone zero))
  · intro pool
    by_contra neither
    obtain ⟨good, spared⟩ := not_or.mp neither
    have used := updatable_used updatable
    have mapped : r.bmt.isBlockMapped badIndex = true :=
      (updatable.resolve_left (not_lt.mpr pool.1)).2
    have table : badIndex ≠ r.bmtBlockIndex := by
      intro eq
      have apart := (inv.bmt_apart (eq ▸ pool.pos)).2.1
      rw [← eq, mapped] at apart
      exact Bool.noConfusion apart
    have bbt : badIndex ≠ r.bbtBlockIndex := by
      intro eq
      have apart := (inv.bbt_apart (eq ▸ pool.pos)).2
      rw [← eq, mapped] at apart
      exact Bool.noConfusion apart
    have other : mapIndex ≠ badIndex := by
      rintro rfl
      exact used h.free.unused
    apply spared
    apply failed badIndex ⟨pool, table, bbt, remap_releases inv.toDisjointBmt pool mapped other⟩
    exact fun bad => good ((h.used badIndex (fun free => used free.unused) table).1.mp bad)

/-- If there is a block for the table, the replacement was not the last one. -/
theorem Placing.not_oneBlockLeft {block : ℕ} (h : Placing g L r mapIndex w w₂)
    (inv : DisjointBmt g r) (room : r.bmt.HasRoom g badIndex) (updatable : Updatable g r badIndex)
    (bad : r.bmtBlockIndex ≠ 0 → BlockBad L w₂.pages r.bmtBlockIndex)
    (free : Free g L (r.remapped g badIndex mapIndex).withoutBmt w₂.pages block)
    (spared : block ∈ w'.broken → block ∈ w₂.broken) (left : mapIndex ∉ w'.broken) :
    ¬ OneBlockLeft g L r w.pages badIndex w'.broken := by
  intro one
  have table : block ≠ r.bmtBlockIndex := by
    rintro rfl
    exact free.good (bad free.unused.pool.pos)
  have unused : Unused g (r.remapped g badIndex mapIndex) block :=
    unused_withoutBmt.mpr ⟨free.unused, table⟩
  obtain ⟨other, ⟨rfl, pool⟩ | unused₀⟩ :=
    unused_remapped inv room h.free.unused updatable unused
  · -- the block is the one that is to be replaced
    obtain ⟨marks, whole⟩ := h.used block (fun free => updatable_used updatable free.unused) table
    rcases one.replaced pool with marked | broken
    · exact free.good (marks.mpr marked)
    · exact whole (spared broken)
  · have free₀ : Free g L r w.pages block := by
      by_contra used
      have marked : BlockBad L w.pages block := by
        by_contra good
        exact used ⟨unused₀, good⟩
      exact free.good ((h.used block used table).1.mpr marked)
    have whole : block ∉ w₂.broken := by
      rcases h.others block other free₀ with ⟨-, whole⟩ | ⟨marked, -⟩
      · exact whole
      · exact absurd marked free.good
    exact other (one.single.unique ⟨free₀, fun broken => whole (spared broken)⟩ ⟨h.free, left⟩)

theorem TableWritten.congr {r' : Ram} {done : Bool} (bmt : r'.bmt = r.bmt)
    (index : r'.bmtBlockIndex = r.bmtBlockIndex) (bbt : r'.bbtBlockIndex = r.bbtBlockIndex)
    (h : TableWritten g L r' w done w') : TableWritten g L r w done w' := by
  cases h with
  | inPlace ne broken => exact .inPlace (index ▸ ne) broken
  | placed gone chosen =>
      rw [index] at gone
      apply TableWritten.placed gone
      apply chosen.congr
      intro b
      apply unused_congr
      · exact bmt
      · rfl
      · exact bbt

/-- Whether the table has been written tells whether the replacement was the last
block. -/
theorem TableWritten.iff_oneBlockLeft {done : Bool} (fresh : w.broken = []) (ne : mapIndex ≠ 0)
    (chosen : Chosen g L r w mapIndex w₁) (inv : DisjointTables g r)
    (room : r.bmt.HasRoom g badIndex) (updatable : Updatable g r badIndex)
    (h : TableWritten g L (r.remapped g badIndex mapIndex) w₁ done w') :
    done = false ↔ OneBlockLeft g L r w.pages badIndex w'.broken := by
  cases h with
  | inPlace placed broken =>
      -- nothing has failed in the block of the table
      refine iff_of_false (by simp) fun one => ?_
      rcases one.table with zero | failed
      · exact placed zero
      · have start : GivenUp L 0 w₁ w₁ :=
          ⟨fun _ _ => .refl _ _, fun ne => absurd rfl ne, fun b => by simp⟩
        rw [broken] at failed
        cases chosen with
        | none searched empty => exact ne rfl
        | found _ searched free attempt =>
            have used : ¬ Free g L r w.pages r.bmtBlockIndex := fun free => free.unused.ne_bmt rfl
            rw [attempt.notMem, (searched.frame _ used).2, fresh] at failed
            exact List.not_mem_nil failed
  | @placed block w₂ _ gone chosen' =>
      have placing := placing fresh ne chosen gone
      have given : r.bmtBlockIndex ≠ 0 → r.bmtBlockIndex ∈ w₂.broken := fun ne =>
        (gone.broken _).mpr (.inr ⟨ne, rfl⟩)
      cases chosen' with
      | none searched empty =>
          refine iff_of_true (by simp) ?_
          exact placing.oneBlockLeft inv room updatable given searched empty
      | @found _ w₃ _ some searched free attempt =>
          refine iff_of_false (by simp [some]) ?_
          obtain ⟨before, same⟩ := searched.before free
          have mapped := remap_mapped inv.toDisjointBmt room updatable mapIndex
          have used : ¬ Free g L (r.remapped g badIndex mapIndex).withoutBmt w₂.pages mapIndex :=
            fun free => Bool.noConfusion (free.unused.unmapped.symm.trans mapped)
          apply placing.not_oneBlockLeft inv.toDisjointBmt room updatable gone.bad before
          · rw [attempt.notMem, same]
            exact id
          · rw [attempt.notMem, (searched.frame _ used).2]
            exact placing.spared

end Left

/-! ## `update_bmt` -/

section Update

variable {g : Geometry} {L : OobLayout} {r r' : Ram} {w : Faults} {offset : ℕ}

theorem tableKept_of_sameTables (same : SameTables r r') : TableKept g r r' := by
  refine ⟨by rw [same.bmt], by rw [same.bmt], fun index => ?_⟩
  simp only [Flash.getMappingBlockIndex, same.bmt, same.initBbt, same.pBbt]

/-- The edit shows: there is one more entry, or an entry names another block. -/
theorem not_tableKept_of_remapped {badIndex mapIndex : ℕ} (inv : DisjointBmt g r)
    (room : r.bmt.HasRoom g badIndex) (updatable : Updatable g r badIndex)
    (free : Unused g r mapIndex) (moved : BmtMoved g (r.remapped g badIndex mapIndex) r') :
    ¬ TableKept g r r' := by
  intro kept
  have bmt : r'.bmt = r.bmt.remap g badIndex mapIndex := moved.bmt
  rcases updatable with system | ⟨pool, mapped⟩
  · have count := kept.count
    rw [bmt, (remap_system r.bmt mapIndex system room).1] at count
    exact Nat.succ_ne_self _ count
  · obtain ⟨inside, found⟩ := indexOfMapped_live inv mapped pool
    have entries := ((r'.bmt.live_eq_iff r.bmt).mp kept.live).2
    have entry := entries (r.bmt.indexOfMapped g badIndex) (kept.count.symm ▸ inside)
    rw [bmt, (remap_pool r.bmt mapIndex pool).2, if_pos rfl] at entry
    have same := congrArg BmtEntry.mappedIndex entry
    rw [found] at same
    have same : mapIndex = badIndex := same
    exact Bool.noConfusion (mapped.symm.trans (same ▸ free.unmapped))

/-- `update_bmt`, when nothing has failed before. -/
theorem fault_updateBmt (depth : ℕ) {reason : UpdateReason} {dat oob : Option Bytes}
    (fresh : w.broken = []) (small : g.bmtBlockCount ≤ 255) (inv : DisjointTables g r)
    (updatable : Updatable g r (offset / eraseSize)) :
    wp (FaultStep L) (updateBmt g depth offset reason dat oob) (fun done r' w' =>
      (done = false → TableKept g r r') ↔
        ¬ OneBlockLeft g L r w.pages (offset / eraseSize) w'.broken) r w := by
  rw [updateBmt, wp_bind]
  apply wp_mono _ (wp_and (fault_replacementBlock depth)
    (wp_of_ensures (replacementBlock_ensures g depth offset reason dat oob)))
  rintro mapIndex r₁ w₁ ⟨chosen, same, unused⟩
  by_cases none : mapIndex = 0
  · subst none
    rw [if_pos rfl]
    refine iff_of_true (fun _ => tableKept_of_sameTables same) fun one => ?_
    -- every free block has failed
    cases chosen with
    | none searched empty =>
        obtain ⟨b, ⟨free, spared⟩, -⟩ := one.single
        rcases searched.free b free with ⟨still, -⟩ | ⟨-, broken⟩
        · exact empty b still
        · exact spared broken
    | found ne => exact ne rfl
  have free := unused none
  have room : r.bmt.HasRoom g (offset / eraseSize) :=
    hasRoom_of_unused inv.toDisjointBmt small free
  rw [if_neg none, wp_bind, wp_modify, wp_bind, fillBmtBuffers, wp_modify, wp_bind, wp_get, wp_bind]
  have bmt : r₁.bmt.remap g (offset / eraseSize) mapIndex =
      (r.remapped g (offset / eraseSize) mapIndex).bmt := by
    rw [same.bmt]
    rfl
  apply wp_mono _ (wp_and (fault_writeBmtToFlash depth)
    (wp_of_ensures (writeBmtToFlash_ensures g depth _ _)))
  rintro written r₂ w₂ ⟨stored, moved⟩
  replace stored : TableWritten g L (r.remapped g (offset / eraseSize) mapIndex) w₁ written w₂ := by
    apply stored.congr
    · exact bmt
    · exact same.bmtBlockIndex
    · exact same.bbtBlockIndex
  have last := stored.iff_oneBlockLeft fresh none chosen inv room updatable
  cases written with
  | false =>
      refine iff_of_false (fun kept => ?_) fun one => one (last.mp rfl)
      have remapped : BmtMoved g (r.remapped g (offset / eraseSize) mapIndex) r₂ := by
        refine ⟨moved.bmt.trans bmt, moved.initBbt.trans same.initBbt,
          moved.bbtBlockIndex.trans same.bbtBlockIndex, moved.pBbt.trans same.pBbt,
          moved.needBmt.trans same.needBmt, moved.needBbt.trans same.needBbt, ?_⟩
        rcases moved.moved with zero | eq | ⟨pool, apart, unmapped⟩
        · exact .inl zero
        · exact .inr (.inl (eq.trans same.bmtBlockIndex))
        · refine .inr (.inr ⟨pool, ?_, ?_⟩)
          · exact fun eq => apart (eq.trans same.bbtBlockIndex.symm)
          · exact bmt ▸ unmapped
      exact not_tableKept_of_remapped inv.toDisjointBmt room updatable free remapped (kept rfl)
  | true =>
      rw [if_pos rfl, wp_bind, markBlockBadBmt, wp_bind, wp_perform]
      rintro answer w₃ ⟨page, -, rfl⟩
      exact iff_of_true (by simp) fun one => by simpa using last.mpr one

/-- `write_bmt_to_flash`, whatever the checks answer: if the table has a block and nothing fails
in it, the table is written there. -/
theorem ledger_writeBmtToFlash (depth : ℕ) {dat oob : Bytes} {broken : List ℕ} :
    wp LedgerStep (writeBmtToFlash g dat oob depth) (fun done _ broken' =>
      done = false → r.bmtBlockIndex = 0 ∨ r.bmtBlockIndex ∈ broken') r broken := by
  by_cases zero : r.bmtBlockIndex = 0
  · exact wp_mono (fun _ _ _ _ _ => .inl zero) (wp_of_ensures (writeBmtToFlash_ensures g depth _ _))
  cases depth with
  | zero => exact trivial
  | succ depth =>
      -- once the block has failed, the rest does not matter
      have failed : ∀ (m : Drv Bool) (broken : List ℕ), r.bmtBlockIndex ∈ broken →
          wp LedgerStep m (fun done _ broken' =>
            done = false → r.bmtBlockIndex = 0 ∨ r.bmtBlockIndex ∈ broken') r broken :=
        fun m broken mem => wp_mono (fun _ _ _ mem _ => .inr mem) (ledger_grows m mem)
      rw [writeBmtToFlash, wp_bind, prepareBmtBlock, wp_bind, wp_get, if_neg zero, wp_bind,
        nandEraseBmt, wp_perform, blockOffset_div_erase]
      rintro erased _ rfl
      cases erased with
      | false => exact failed _ _ List.mem_cons_self
      | true =>
          rw [if_pos rfl, wp_pure]
          show wp _ (_ >>= _) _ _ _
          rw [wp_bind, wp_get, wp_bind, nandWritePageBmt, wp_perform]
          rintro written _ rfl
          cases written with
          | false =>
              exact failed _ _ (List.mem_cons.mpr (.inl (pageAddr_div_self r.bmtBlockIndex).symm))
          | true => exact fun done => Bool.noConfusion done

/-- `update_bmt`, whatever the checks answer. -/
theorem ledger_updateBmt (depth : ℕ) {reason : UpdateReason} {dat oob : Option Bytes}
    {broken : List ℕ} :
    wp LedgerStep (updateBmt g depth offset reason dat oob) (fun done r' broken' =>
      done = false → TableKept g r r' ∨ r.bmtBlockIndex = 0 ∨ r.bmtBlockIndex ∈ broken')
      r broken := by
  rw [updateBmt, wp_bind]
  apply wp_mono _ (wp_of_ensures (replacementBlock_ensures g depth offset reason dat oob))
  rintro mapIndex r₁ broken₁ ⟨same, -⟩
  by_cases none : mapIndex = 0
  · rw [if_pos none]
    exact fun _ => .inl (tableKept_of_sameTables same)
  rw [if_neg none, wp_bind, wp_modify, wp_bind, fillBmtBuffers, wp_modify, wp_bind, wp_get, wp_bind]
  apply wp_mono _ (ledger_writeBmtToFlash depth)
  intro written r₂ broken₂ placed
  cases written with
  | false =>
      intro _
      rw [← same.bmtBlockIndex]
      exact .inr (placed rfl)
  | true =>
      rw [if_pos rfl, wp_bind, markBlockBadBmt, wp_bind, wp_perform]
      exact fun _ _ _ done => Bool.noConfusion done

end Update

/-- A call of `update_bmt` that returns false leaves the table as it was, whatever the checks
answer, if the table has a block and nothing fails in it; and if checks tell the truth and
marks take effect, but for the calls in which the blocks that fail leave one free block. -/
theorem updateBmt_keeps_table_iff {g : Geometry} {env : Env} {r r' : Ram} {s s' : Spi}
    {depth offset : ℕ} {reason : UpdateReason} {dat oob : Option Bytes} {done : Bool}
    (small : g.bmtBlockCount ≤ 255) (reached : Reached g r)
    (updatable : Updatable g r (offset / eraseSize))
    (run : exec (nandMachine env) (updateBmt g depth offset reason dat oob) r s =
      some (done, r', s')) :
    let update := updateBmt g depth offset reason dat oob
    let broken := brokenBlocks env update r s
    let kept := done = false → TableKept g r r'
    (r.bmtBlockIndex ≠ 0 → r.bmtBlockIndex ∉ broken → kept) ∧
      (Keeps (nandMachine env) (Candid env) update r s →
        (kept ↔ ¬ OneBlockLeft g env.layout r s.chip.pages (offset / eraseSize) broken)) := by
  intro update broken kept
  constructor
  · intro ne whole failed
    rcases ledger_exec (ledger_updateBmt depth) run failed with same | zero | lost
    · exact same
    · exact absurd zero ne
    · exact absurd lost whole
  · intro candid
    have told := @fault_updateBmt g env.layout r ⟨s.chip.pages, []⟩ offset depth reason dat oob rfl
      small (reached.disjoint small) updatable
    exact fault_exec told candid run

/-! ## Two runs -/

/-- An erased chip on which the given blocks have a factory mark. -/
def factorySpi (marked : List ℕ) : Spi :=
  ⟨⟨fun p => if p / pagePerBlock ∈ marked then ⟨allOnes, fun _ => 0⟩ else .erased, 0⟩, .initial⟩

/-- The driver is started there and writes its tables out. -/
def savedRun (env : Env) (marked : List ℕ) : Option (Bool × Ram × Spi) :=
  (exec (nandMachine env) (startTables eightBlocks) Ram.initial (factorySpi marked)).bind fun out =>
    exec (nandMachine env) (writeBbtOrBmtToFlash eightBlocks 5) out.2.1 out.2.2

theorem factorySpi_holds_no_table (g : Geometry) (L : OobLayout) (marked : List ℕ) (block : ℕ) :
    ¬ HoldsBmt g L (factorySpi marked).chip.pages block ∧
      ¬ HoldsBbt g L (factorySpi marked).chip.pages block := by
  have ones : (firstPage (factorySpi marked).chip.pages block).data 0 = 0xff := by
    simp only [firstPage, factorySpi]
    split <;> rfl
  constructor
  · intro holds
    have signature := holds.2.1.1
    rw [ones] at signature
    exact absurd signature (by decide)
  · intro holds
    have signature := holds.2.1.1
    rw [ones] at signature
    exact absurd signature (by decide)

theorem savedRun_reached {env : Env} {marked : List ℕ} {done : Bool} {r : Ram} {s : Spi}
    (readable : ∀ t p, env.uncorrectable t p = false)
    (run : savedRun env marked = some (done, r, s)) : Reached eightBlocks r := by
  obtain ⟨⟨started, r₀, s₀⟩, start, save⟩ := Option.bind_eq_some_iff.mp run
  have none := factorySpi_holds_no_table eightBlocks env.layout marked
  apply Reached.save _ save
  exact .start (fun _ => r₀) readable rfl (fun b _ holds => absurd holds (none b).1)
    (fun b _ holds => absurd holds (none b).1) (fun b _ holds => absurd holds (none b).2) start

/-- The erasure of block 1 has failed. -/
def eraseFailed : Drv Bool := updateBmt eightBlocks 5 (blockOffset 1) .eraseFail none none

/-- With blocks 5 and 7 marked, the tables take the rest of the pool. The update is
refused, and nothing changes. -/
theorem updateBmt_keeps_table_full : ∃ r s r' s', savedRun faultless [5, 7] = some (true, r, s) ∧
    exec (nandMachine faultless) eraseFailed r s = some (false, r', s') ∧
    TableKept eightBlocks r r' := by
  obtain ⟨⟨done, r, s⟩, first⟩ : ∃ out, savedRun faultless [5, 7] = some out :=
    Option.isSome_iff_exists.mp (by decide +kernel)
  obtain ⟨⟨done', r', s'⟩, second⟩ : ∃ out, (savedRun faultless [5, 7]).bind (fun out =>
      exec (nandMachine faultless) eraseFailed out.2.1 out.2.2) = some out :=
    Option.isSome_iff_exists.mp (by decide +kernel)
  have told : (savedRun faultless [5, 7]).map (fun out => (out.1, out.2.1.bmtBlockIndex,
      out.2.1.bbtBlockIndex, decide (BlockBad faultless.layout out.2.2.chip.pages 5),
      decide (BlockBad faultless.layout out.2.2.chip.pages 7))) =
      some (true, 6, 4, true, true) := by decide +kernel
  have refused : (savedRun faultless [5, 7]).bind (fun out =>
      (exec (nandMachine faultless) eraseFailed out.2.1 out.2.2).map fun out => out.1) =
      some false := by decide +kernel
  have candid : ∀ out, savedRun faultless [5, 7] = some out →
      Keeps (nandMachine faultless) (Candid faultless) eraseFailed out.2.1 out.2.2 := by
    have all : ((savedRun faultless [5, 7]).map fun out => decide (Keeps (nandMachine faultless)
        (Candid faultless) eraseFailed out.2.1 out.2.2)) = some true := by decide +kernel
    intro out run
    rw [run] at all
    simpa using all
  rw [first] at second told refused
  simp only [Option.bind_some] at second
  simp only [Option.bind_some, second, Option.map_some, Option.some.injEq] at refused
  subst refused
  simp only [Option.map_some, Option.some.injEq, Prod.mk.injEq, decide_eq_true_eq] at told
  obtain ⟨rfl, table, bbt, five, seven⟩ := told
  refine ⟨r, s, r', s', first, second, ?_⟩
  obtain ⟨-, iff⟩ := updateBmt_keeps_table_iff (by decide)
    (savedRun_reached (fun _ _ => rfl) first) (.inl (by decide)) second
  apply (iff (candid _ first)).mpr _ rfl
  -- no block is free
  intro one
  obtain ⟨b, ⟨free, -⟩, -⟩ := one.single
  obtain ⟨low, high⟩ := free.unused.pool
  have low : 4 ≤ b := low
  have high : b < 8 := high
  interval_cases b
  · exact free.unused.ne_bbt bbt.symm
  · exact free.good five
  · exact free.unused.ne_bmt table.symm
  · exact free.good seven

/-- The sixth program or erase operation fails. -/
def sixthFails : Env :=
  { faultless with outcome := fun t => if t = 5 then .fail fun _ => .erased else .done }

/-- With block 7 marked one block is free. It replaces block 1, the block of the table
cannot be erased, and the update returns false with one more entry. -/
theorem updateBmt_changes_table : ∃ r s r' s', savedRun sixthFails [7] = some (true, r, s) ∧
    Reached eightBlocks r ∧
    exec (nandMachine sixthFails) eraseFailed r s = some (false, r', s') ∧
    ¬ TableKept eightBlocks r r' := by
  obtain ⟨⟨done, r, s⟩, first⟩ : ∃ out, savedRun sixthFails [7] = some out :=
    Option.isSome_iff_exists.mp (by decide +kernel)
  obtain ⟨⟨done', r', s'⟩, second⟩ : ∃ out, (savedRun sixthFails [7]).bind (fun out =>
      exec (nandMachine sixthFails) eraseFailed out.2.1 out.2.2) = some out :=
    Option.isSome_iff_exists.mp (by decide +kernel)
  have told : (savedRun sixthFails [7]).bind (fun out =>
      (exec (nandMachine sixthFails) eraseFailed out.2.1 out.2.2).map fun out' =>
        (out.1, out'.1, out.2.1.bmt.mappedCount, out'.2.1.bmt.mappedCount)) =
      some (true, false, 0, 1) := by decide +kernel
  have reached := savedRun_reached (fun _ _ => rfl) first
  rw [first] at second told
  simp only [Option.bind_some] at second
  simp only [Option.bind_some, second, Option.map_some, Option.some.injEq, Prod.mk.injEq] at told
  obtain ⟨rfl, rfl, before, after⟩ := told
  refine ⟨r, s, r', s', first, reached, second, fun kept => ?_⟩
  have count := kept.count
  rw [before, after] at count
  exact absurd count (by decide)

end En7512.Bmt
