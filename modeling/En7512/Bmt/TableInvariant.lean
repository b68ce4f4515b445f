/-
# What the tables in memory keep, whatever the flash does

The blocks of the pool are given out by `find_available_block` only, and it
never gives out a block that is mapped or holds a table. That is decided in
memory. So the table of the bad-block layer stays a disjoint remapping in every
run of `update_bmt`, with any answers of the flash: programs, erases and marks
may fail, and checks may be answered wrongly.
-/

import En7512.Bmt.Driver

namespace En7512.Bmt

open En7512.Logic En7512.Nand En7512.Logic.Routine

/-- The table is a disjoint remapping into the pool, apart from the block that
holds the table. -/
structure DisjointBmt (g : Geometry) (r : Ram) : Prop where
  count_le : r.bmt.mappedCount ≤ g.bmtBlockCount
  mapped_mem : ∀ i < r.bmt.mappedCount, g.InPool (r.bmt.table i).mappedIndex
  mapped_inj : ∀ i < r.bmt.mappedCount, ∀ j < r.bmt.mappedCount,
    (r.bmt.table i).mappedIndex = (r.bmt.table j).mappedIndex → i = j
  bad_lt : ∀ i < r.bmt.mappedCount, (r.bmt.table i).badIndex < g.systemBlockCount
  /-- Entries that are not in use name no block of the pool. -/
  rest_zero : ∀ i, r.bmt.mappedCount ≤ i → i < g.bmtBlockCount → (r.bmt.table i).mappedIndex = 0
  bmt_apart : r.bmtBlockIndex ≠ 0 → g.InPool r.bmtBlockIndex ∧
    r.bmt.isBlockMapped r.bmtBlockIndex = false ∧ r.bmtBlockIndex ≠ r.bbtBlockIndex

/-- The same, and apart from the block of the bad-block table. -/
structure DisjointTables (g : Geometry) (r : Ram) : Prop extends DisjointBmt g r where
  bbt_apart : r.bbtBlockIndex ≠ 0 → g.InPool r.bbtBlockIndex ∧
    r.bmt.isBlockMapped r.bbtBlockIndex = false

/-- The buffers are no part of the invariant. -/
theorem DisjointBmt.withBuffers {g : Geometry} {r : Ram} (inv : DisjointBmt g r)
    (dat oob : Bytes) : DisjointBmt g { r with datBuf := dat, oobBuf := oob } :=
  ⟨inv.count_le, inv.mapped_mem, inv.mapped_inj, inv.bad_lt, inv.rest_zero, inv.bmt_apart⟩

theorem DisjointTables.withBuffers {g : Geometry} {r : Ram} (inv : DisjointTables g r)
    (dat oob : Bytes) : DisjointTables g { r with datBuf := dat, oobBuf := oob } :=
  ⟨inv.toDisjointBmt.withBuffers dat oob, inv.bbt_apart⟩

/-- A block of the pool that no table uses. -/
structure Unused (g : Geometry) (r : Ram) (block : ℕ) : Prop where
  pool : g.InPool block
  ne_bmt : block ≠ r.bmtBlockIndex
  ne_bbt : block ≠ r.bbtBlockIndex
  unmapped : r.bmt.isBlockMapped block = false

/-- The variables that looking for a block and copying pages leave alone. -/
structure SameTables (r r' : Ram) : Prop where
  bmt : r'.bmt = r.bmt
  initBbt : r'.initBbt = r.initBbt
  bmtBlockIndex : r'.bmtBlockIndex = r.bmtBlockIndex
  bbtBlockIndex : r'.bbtBlockIndex = r.bbtBlockIndex
  pBbt : r'.pBbt = r.pBbt
  needBmt : r'.needWriteBmtToNand = r.needWriteBmtToNand
  needBbt : r'.needWriteBbtToNand = r.needWriteBbtToNand

namespace SameTables

theorem refl (r : Ram) : SameTables r r := ⟨rfl, rfl, rfl, rfl, rfl, rfl, rfl⟩

theorem trans {r r' r'' : Ram} (h : SameTables r r') (h' : SameTables r' r'') :
    SameTables r r'' :=
  ⟨h'.bmt.trans h.bmt, h'.initBbt.trans h.initBbt, h'.bmtBlockIndex.trans h.bmtBlockIndex,
    h'.bbtBlockIndex.trans h.bbtBlockIndex, h'.pBbt.trans h.pBbt, h'.needBmt.trans h.needBmt,
    h'.needBbt.trans h.needBbt⟩

theorem disjointBmt {g : Geometry} {r r' : Ram} (h : SameTables r r') (inv : DisjointBmt g r) :
    DisjointBmt g r' := by
  obtain ⟨hbmt, -, hbi, hbb, -⟩ := h
  constructor
  · rw [hbmt]; exact inv.count_le
  · rw [hbmt]; exact inv.mapped_mem
  · rw [hbmt]; exact inv.mapped_inj
  · rw [hbmt]; exact inv.bad_lt
  · rw [hbmt]; exact inv.rest_zero
  · rw [hbmt, hbi, hbb]; exact inv.bmt_apart

theorem disjoint {g : Geometry} {r r' : Ram} (h : SameTables r r') (inv : DisjointTables g r) :
    DisjointTables g r' := by
  refine ⟨h.disjointBmt inv.toDisjointBmt, ?_⟩
  rw [h.bmt, h.bbtBlockIndex]
  exact inv.bbt_apart

theorem unused {g : Geometry} {r r' : Ram} {block : ℕ} (h : SameTables r r')
    (free : Unused g r' block) : Unused g r block := by
  obtain ⟨hbmt, -, hbi, hbb, -⟩ := h
  exact ⟨free.pool, hbi ▸ free.ne_bmt, hbb ▸ free.ne_bbt, hbmt ▸ free.unmapped⟩

end SameTables

/-! ## What each function does to the variables -/

variable (g : Geometry) {r : Ram}

/-- A read changes the buffers only. -/
theorem nandReadPageBmt_ensures (page : ℕ) :
    Ensures (nandReadPageBmt page) r fun _ r' => SameTables r r' := by
  rw [nandReadPageBmt, ensures_bind, ensures_perform]
  rintro (_ | ⟨dat, oob⟩)
  · exact .refl r
  · exact ⟨rfl, rfl, rfl, rfl, rfl, rfl, rfl⟩

/-- Checks change no variable. -/
theorem blockMarkedBad_ensures (block : ℕ) :
    Ensures (blockMarkedBad block) r fun _ r' => r' = r := by
  rw [blockMarkedBad, ensures_bind, nandBlockBadBmt, ensures_perform]
  rintro (_ | _)
  · rw [if_neg (by simp), nandBlockBadBmt, ensures_perform]
    exact fun _ => rfl
  · rw [if_pos rfl]
    exact rfl

theorem markBlockBadBmt_ensures (offset : ℕ) (kind : BadKind) :
    Ensures (markBlockBadBmt offset kind) r fun _ r' => r' = r := by
  rw [markBlockBadBmt, ensures_bind, ensures_perform]
  exact fun _ => rfl

/-- Whatever the checks answer, marking changes no variable. -/
theorem markUnmarked_ensures (blocks : List ℕ) :
    Ensures (markUnmarked blocks) r fun _ r' => r' = r := by
  induction blocks with
  | nil => exact rfl
  | cons block blocks ih =>
      rw [markUnmarked, ensures_bind, nandBlockBadBmt, ensures_perform]
      intro marked
      cases marked with
      | true => exact ih
      | false =>
          rw [if_neg (by simp), ensures_bind]
          apply ensures_mono _ (markBlockBadBmt_ensures _ _)
          rintro _ _ rfl
          exact ih

/-- What is decided in memory does not depend on the checks: an available block is in no table. -/
theorem blockAvailable_ensures (block : ℕ) :
    Ensures (blockAvailable block) r fun available r' => r' = r ∧ (available = true →
      block ≠ r.bmtBlockIndex ∧ block ≠ r.bbtBlockIndex ∧ r.bmt.isBlockMapped block = false) := by
  rw [blockAvailable, ensures_bind, ensures_get]
  by_cases hbmt : block = r.bmtBlockIndex
  · rw [if_pos hbmt]
    exact ⟨rfl, by simp⟩
  rw [if_neg hbmt]
  by_cases hbbt : block = r.bbtBlockIndex
  · rw [if_pos hbbt]
    exact ⟨rfl, by simp⟩
  rw [if_neg hbbt, ensures_bind]
  refine ensures_mono (fun marked r' same => ?_) (blockMarkedBad_ensures block)
  subst same
  cases marked with
  | true => exact ⟨rfl, by simp⟩
  | false => exact ⟨rfl, fun h => ⟨hbmt, hbbt, by simpa using h⟩⟩

/-- The first loop changes no variable. -/
theorem erasePool_ensures (blocks : List ℕ) :
    Ensures (erasePool blocks) r fun _ r' => r' = r := by
  induction blocks generalizing r with
  | nil => exact rfl
  | cons block blocks ih =>
      rw [erasePool, ensures_bind]
      refine ensures_mono (fun available r' h => ?_) (blockAvailable_ensures block)
      obtain ⟨rfl, -⟩ := h
      cases available with
      | false => exact ih
      | true =>
          rw [if_pos rfl, ensures_bind, nandEraseBmt, ensures_perform]
          rintro (_ | _)
          · rw [if_neg (by simp), ensures_bind]
            refine ensures_mono (fun _ r'' same => ?_) (markBlockBadBmt_ensures _ _)
            subst same
            exact ih
          · exact ih

/-- The second loop gives out a block of the list that is in no table. -/
theorem scanPool_ensures (blocks : List ℕ) :
    Ensures (scanPool blocks) r fun block r' => r' = r ∧ (block ≠ 0 → block ∈ blocks ∧
      block ≠ r.bmtBlockIndex ∧ block ≠ r.bbtBlockIndex ∧ r.bmt.isBlockMapped block = false) := by
  induction blocks generalizing r with
  | nil => exact ⟨rfl, fun h => absurd rfl h⟩
  | cons block blocks ih =>
      rw [scanPool, ensures_bind]
      refine ensures_mono (fun available r' h => ?_) (blockAvailable_ensures block)
      obtain ⟨rfl, free⟩ := h
      cases available with
      | false =>
          refine ensures_mono (fun found r' h => ⟨h.1, fun ne => ?_⟩) ih
          exact ⟨List.mem_cons_of_mem _ (h.2 ne).1, (h.2 ne).2⟩
      | true => exact ⟨rfl, fun _ => ⟨List.mem_cons_self, free rfl⟩⟩

/-- After the first loop `pool_erased` is set, whether it has run or not. -/
theorem erasePoolOnce_ensures :
    Ensures (erasePoolOnce g) r fun _ r' => r' = { r with poolErased := true } := by
  rw [erasePoolOnce, ensures_bind, ensures_get]
  cases h : r.poolErased with
  | true =>
      rw [if_pos rfl, ← h]
      exact rfl
  | false =>
      rw [if_neg (by simp), ensures_bind]
      refine ensures_mono (fun _ r' same => ?_) (erasePool_ensures g.poolBlocks)
      subst same
      exact rfl

/-- `find_available_block` gives out unused blocks only. -/
theorem findAvailableBlock_ensures (startFromEnd : Bool) :
    Ensures (findAvailableBlock g startFromEnd) r fun block r' =>
      r' = { r with poolErased := true } ∧ (block ≠ 0 → Unused g r block) := by
  rw [findAvailableBlock, ensures_bind]
  refine ensures_mono (fun _ r' same => ?_) (erasePoolOnce_ensures g)
  subst same
  refine ensures_mono (fun block r' h => ⟨h.1, fun ne => ?_⟩) (scanPool_ensures _)
  obtain ⟨mem, free⟩ := h.2 ne
  have pool : g.InPool block := by
    cases startFromEnd <;> simpa using mem
  exact ⟨pool, free.1, free.2.1, free.2.2⟩

/-- Only `oob_buf` changes. -/
theorem setIndexOfSystemBlock_ensures (errorBlock : ℕ) :
    Ensures (setIndexOfSystemBlock g errorBlock) r fun _ r' => SameTables r r' := by
  rw [setIndexOfSystemBlock]
  split
  · exact ⟨rfl, rfl, rfl, rfl, rfl, rfl, rfl⟩
  · exact .refl r

/-- The copy loop changes the buffers only, however far it gets. -/
theorem copyPages_ensures (errorBlock toIndex : ℕ) (pages : List ℕ) :
    Ensures (copyPages g errorBlock toIndex pages) r fun _ r' => SameTables r r' := by
  induction pages generalizing r with
  | nil => exact .refl r
  | cons page pages ih =>
      rw [copyPages, ensures_bind]
      refine ensures_mono (fun _ r₁ read => ?_) (nandReadPageBmt_ensures _)
      rw [ensures_bind]
      refine ensures_mono (fun _ r₂ set => ?_) (setIndexOfSystemBlock_ensures g errorBlock)
      have same := read.trans set
      rw [ensures_bind, ensures_get, ensures_bind, nandWritePageBmt, ensures_perform]
      rintro (_ | _)
      · exact same
      · exact ensures_mono (fun _ _ rest => same.trans rest) ih

theorem writeErrorPage_ensures (errorBlock toIndex errorPage : ℕ) (dat oob : Option Bytes) :
    Ensures (writeErrorPage g errorBlock toIndex errorPage dat oob) r
      fun _ r' => SameTables r r' := by
  rcases dat with _ | dat
  · exact trivial
  rcases oob with _ | oob
  · exact trivial
  rw [writeErrorPage, ensures_bind, ensures_modify, ensures_bind]
  refine ensures_mono (fun _ r' set => ?_) (setIndexOfSystemBlock_ensures g errorBlock)
  rw [ensures_bind, ensures_get, nandWritePageBmt, ensures_perform]
  exact fun _ => ⟨set.bmt, set.initBbt, set.bmtBlockIndex, set.bbtBlockIndex, set.pBbt,
    set.needBmt, set.needBbt⟩

/-- One attempt changes the buffers only. -/
theorem migrateTo_ensures (toIndex offset : ℕ) (dat oob : Option Bytes) :
    Ensures (migrateTo g toIndex offset dat oob) r fun _ r' => SameTables r r' := by
  rw [migrateTo, ensures_bind]
  refine ensures_mono (fun copied r' copy => ?_) (copyPages_ensures g _ toIndex _)
  cases copied with
  | true => exact ensures_mono (fun _ _ h => copy.trans h) (writeErrorPage_ensures g ..)
  | false => exact copy

/-- However often a block fails on the way, the one that is given back was unused at the start. -/
theorem migrateFromBad_ensures (depth offset : ℕ) (dat oob : Option Bytes) :
    Ensures (migrateFromBad g offset dat oob depth) r fun block r' =>
      SameTables r r' ∧ (block ≠ 0 → Unused g r block) := by
  induction depth generalizing r with
  | zero => exact trivial
  | succ depth ih =>
      rw [migrateFromBad, ensures_bind]
      refine ensures_mono (fun toIndex r₁ h => ?_) (findAvailableBlock_ensures g false)
      obtain ⟨rfl, free⟩ := h
      have found : SameTables r { r with poolErased := true } := ⟨rfl, rfl, rfl, rfl, rfl, rfl, rfl⟩
      by_cases none : toIndex = 0
      · rw [if_pos none]
        exact ⟨found, fun ne => absurd rfl ne⟩
      rw [if_neg none, ensures_bind]
      refine ensures_mono (fun written r₂ tried => ?_) (migrateTo_ensures g toIndex ..)
      have same := found.trans tried
      cases written with
      | true => exact ⟨same, fun _ => free none⟩
      | false =>
          rw [if_neg (by simp), ensures_bind]
          refine ensures_mono (fun _ r₄ h => ?_) (markBlockBadBmt_ensures _ _)
          subst h
          exact ensures_mono (fun _ _ h => ⟨same.trans h.1, fun ne => same.unused (h.2 ne)⟩) ih

/-- For either reason, the block that is to stand in was unused. -/
theorem replacementBlock_ensures (depth offset : ℕ) (reason : UpdateReason)
    (dat oob : Option Bytes) :
    Ensures (replacementBlock g depth offset reason dat oob) r fun block r' =>
      SameTables r r' ∧ (block ≠ 0 → Unused g r block) := by
  rw [replacementBlock]
  split
  · exact migrateFromBad_ensures g depth offset dat oob
  · refine ensures_mono (fun block r' h => ⟨?_, h.2⟩) (findAvailableBlock_ensures g false)
    rw [h.1]
    exact ⟨rfl, rfl, rfl, rfl, rfl, rfl, rfl⟩

/-- What writing the BMT may do to the variables: only its own block changes, to
none or to an unused one. -/
structure BmtMoved (g : Geometry) (r r' : Ram) : Prop where
  bmt : r'.bmt = r.bmt
  initBbt : r'.initBbt = r.initBbt
  bbtBlockIndex : r'.bbtBlockIndex = r.bbtBlockIndex
  pBbt : r'.pBbt = r.pBbt
  needBmt : r'.needWriteBmtToNand = r.needWriteBmtToNand
  needBbt : r'.needWriteBbtToNand = r.needWriteBbtToNand
  moved : r'.bmtBlockIndex = 0 ∨ r'.bmtBlockIndex = r.bmtBlockIndex ∨
    g.InPool r'.bmtBlockIndex ∧ r'.bmtBlockIndex ≠ r.bbtBlockIndex ∧
      r.bmt.isBlockMapped r'.bmtBlockIndex = false

namespace BmtMoved

variable {g}

theorem refl (r : Ram) : BmtMoved g r r := ⟨rfl, rfl, rfl, rfl, rfl, rfl, .inr (.inl rfl)⟩

theorem trans {r r' r'' : Ram} (h : BmtMoved g r r') (h' : BmtMoved g r' r'') :
    BmtMoved g r r'' := by
  refine ⟨h'.bmt.trans h.bmt, h'.initBbt.trans h.initBbt,
    h'.bbtBlockIndex.trans h.bbtBlockIndex, h'.pBbt.trans h.pBbt, h'.needBmt.trans h.needBmt,
    h'.needBbt.trans h.needBbt, ?_⟩
  rcases h'.moved with zero | same | ⟨pool, apart, free⟩
  · exact .inl zero
  · rw [same]
    exact h.moved
  · exact .inr (.inr ⟨pool, h.bbtBlockIndex ▸ apart, h.bmt ▸ free⟩)

theorem disjointBmt {r r' : Ram} (h : BmtMoved g r r') (inv : DisjointBmt g r) :
    DisjointBmt g r' := by
  constructor
  · rw [h.bmt]; exact inv.count_le
  · rw [h.bmt]; exact inv.mapped_mem
  · rw [h.bmt]; exact inv.mapped_inj
  · rw [h.bmt]; exact inv.bad_lt
  · rw [h.bmt]; exact inv.rest_zero
  · intro ne
    rw [h.bmt, h.bbtBlockIndex]
    rcases h.moved with zero | same | ⟨pool, apart, free⟩
    · exact absurd zero ne
    · rw [same] at ne ⊢
      exact inv.bmt_apart ne
    · exact ⟨pool, free, apart⟩

theorem disjoint {r r' : Ram} (h : BmtMoved g r r') (inv : DisjointTables g r) :
    DisjointTables g r' := by
  refine ⟨h.disjointBmt inv.toDisjointBmt, ?_⟩
  rw [h.bmt, h.bbtBlockIndex]
  exact inv.bbt_apart

end BmtMoved

/-- The table keeps its block, or takes an unused one. -/
theorem prepareBmtBlock_ensures :
    Ensures (prepareBmtBlock g) r fun _ r' => BmtMoved g r r' := by
  rw [prepareBmtBlock, ensures_bind, ensures_get]
  split
  · rw [ensures_bind]
    refine ensures_mono (fun block r' h => ?_) (findAvailableBlock_ensures g true)
    obtain ⟨rfl, free⟩ := h
    rw [ensures_bind, ensures_modify]
    have moved : BmtMoved g r { r with poolErased := true, bmtBlockIndex := block } := by
      refine ⟨rfl, rfl, rfl, rfl, rfl, rfl, ?_⟩
      by_cases none : block = 0
      · exact .inl none
      · exact .inr (.inr ⟨(free none).pool, (free none).ne_bbt, (free none).unmapped⟩)
    split <;> exact moved
  · rw [ensures_bind, nandEraseBmt, ensures_perform]
    rintro (_ | _) <;> exact .refl r

/-- The table gives up its block. -/
theorem retireBmtBlock_ensures :
    Ensures retireBmtBlock r fun _ r' => r' = { r with bmtBlockIndex := 0 } := by
  rw [retireBmtBlock, ensures_bind, ensures_get, ensures_bind]
  refine ensures_mono (fun _ r' same => ?_) (markBlockBadBmt_ensures _ _)
  subst same
  exact rfl

/-- However many blocks fail, the table ends in its own block, in an unused one, or in none. -/
theorem writeBmtToFlash_ensures (depth : ℕ) (dat oob : Bytes) :
    Ensures (writeBmtToFlash g dat oob depth) r fun _ r' => BmtMoved g r r' := by
  induction depth generalizing r with
  | zero => exact trivial
  | succ depth ih =>
      have again : ∀ {r₁ : Ram}, BmtMoved g r r₁ →
          Ensures (retireBmtBlock >>= fun _ => writeBmtToFlash g dat oob depth) r₁
            fun _ r' => BmtMoved g r r' := by
        intro r₁ moved
        rw [ensures_bind]
        refine ensures_mono (fun _ r₂ h => ?_) retireBmtBlock_ensures
        subst h
        have retired : BmtMoved g r₁ { r₁ with bmtBlockIndex := 0 } :=
          ⟨rfl, rfl, rfl, rfl, rfl, rfl, .inl rfl⟩
        exact ensures_mono (fun _ _ h => (moved.trans retired).trans h) ih
      rw [writeBmtToFlash, ensures_bind]
      refine ensures_mono (fun state r₁ moved => ?_) (prepareBmtBlock_ensures g)
      cases state with
      | unavailable => exact moved
      | eraseFailed => exact again moved
      | ready =>
          simp only
          rw [ensures_bind, ensures_get, ensures_bind, nandWritePageBmt, ensures_perform]
          rintro (_ | _)
          · exact again moved
          · exact moved

/-! ## One update -/

section Remap

variable {g} {bmt : BmtStruct} {badIndex mapIndex : ℕ}

/-- The search of a mapped block ends at an entry that names it. -/
theorem indexOfMapped_spec (bmt : BmtStruct) (block : ℕ)
    (mapped : ∃ i < g.bmtBlockCount, (bmt.table i).mappedIndex = block) :
    bmt.indexOfMapped g block < g.bmtBlockCount ∧
      (bmt.table (bmt.indexOfMapped g block)).mappedIndex = block := by
  obtain ⟨i, hi, eq⟩ := mapped
  rw [BmtStruct.indexOfMapped]
  cases h : (List.range g.bmtBlockCount).find? fun i => (bmt.table i).mappedIndex = block with
  | none =>
      rw [List.find?_eq_none] at h
      exact absurd eq (by simpa using h i (List.mem_range.mpr hi))
  | some j =>
      refine ⟨List.mem_range.mp (List.mem_of_find?_eq_some h), ?_⟩
      simpa using List.find?_some h

/-- A failed pool block that is mapped has its entry among the live ones. -/
theorem indexOfMapped_live {r : Ram} (inv : DisjointBmt g r) {block : ℕ}
    (mapped : r.bmt.isBlockMapped block = true) (pool : g.InPool block) :
    r.bmt.indexOfMapped g block < r.bmt.mappedCount ∧
      (r.bmt.table (r.bmt.indexOfMapped g block)).mappedIndex = block := by
  obtain ⟨e, he, eq⟩ := (r.bmt.isBlockMapped_iff).mp mapped
  obtain ⟨i, hi, rfl⟩ := (r.bmt.mem_live).mp he
  obtain ⟨inside, found⟩ := indexOfMapped_spec r.bmt block
    ⟨i, lt_of_lt_of_le hi inv.count_le, eq⟩
  refine ⟨?_, found⟩
  by_contra beyond
  have zero := inv.rest_zero _ (not_lt.mp beyond) inside
  exact pool.pos (found.symm.trans zero)

/-- A block that is not mapped is in no entry that counts. -/
theorem isBlockMapped_eq_false_iff (bmt : BmtStruct) (block : ℕ) :
    bmt.isBlockMapped block = false ↔
      ∀ i < bmt.mappedCount, (bmt.table i).mappedIndex ≠ block := by
  rw [← Bool.not_eq_true, bmt.isBlockMapped_iff]
  simp only [bmt.mem_live, not_exists, not_and]
  exact ⟨fun h i hi => h _ ⟨i, hi, rfl⟩, fun h e ⟨i, hi, eq⟩ => eq ▸ h i hi⟩

/-- While a block of the pool is unused, the table has room for one more entry. -/
theorem count_lt_of_unused {r : Ram} (inv : DisjointBmt g r) {block : ℕ}
    (free : Unused g r block) : r.bmt.mappedCount < g.bmtBlockCount := by
  have split := g.system_add_pool
  have unmapped := (isBlockMapped_eq_false_iff r.bmt block).mp free.unmapped
  have maps : Set.MapsTo (fun i => (r.bmt.table i).mappedIndex)
      (Finset.range r.bmt.mappedCount : Set ℕ)
      ((Finset.Ico g.systemBlockCount g.totalBlockCount).erase block : Set ℕ) := by
    intro i hi
    have hi : i < r.bmt.mappedCount := by simpa using hi
    simp only [Finset.coe_erase, Finset.coe_Ico, Set.mem_sdiff, Set.mem_Ico, Set.mem_singleton_iff]
    exact ⟨inv.mapped_mem i hi, unmapped i hi⟩
  have inj : Set.InjOn (fun i => (r.bmt.table i).mappedIndex)
      (Finset.range r.bmt.mappedCount : Set ℕ) := by
    intro i hi j hj eq
    exact inv.mapped_inj i (by simpa using hi) j (by simpa using hj) eq
  have card := Finset.card_le_card_of_injOn _ maps inj
  rw [Finset.card_range, Finset.card_erase_of_mem (Finset.mem_Ico.mpr free.pool),
    Nat.card_Ico] at card
  have pos := g.pool_pos
  omega

/-- The blocks `update_bmt` is called for: a system block, or a block of the pool
that is mapped. -/
def Updatable (g : Geometry) (r : Ram) (block : ℕ) : Prop :=
  block < g.systemBlockCount ∨ g.InPool block ∧ r.bmt.isBlockMapped block = true

/-- The counter of the table has room for the entry that an update for the block
adds. -/
def BmtStruct.HasRoom (g : Geometry) (bmt : BmtStruct) (block : ℕ) : Prop :=
  block < g.systemBlockCount → bmt.mappedCount < 255

instance (bmt : BmtStruct) (block : ℕ) : Decidable (bmt.HasRoom g block) :=
  inferInstanceAs (Decidable (_ → _))

/-- In a pool of at most 255 blocks there is room as long as a block is unused. -/
theorem hasRoom_of_unused {r : Ram} (inv : DisjointBmt g r) (small : g.bmtBlockCount ≤ 255)
    (free : Unused g r mapIndex) : r.bmt.HasRoom g badIndex := fun _ => by
  have few := count_lt_of_unused inv free
  omega

/-- The table after an update for a system block: one more entry. -/
theorem remap_system (bmt : BmtStruct) (mapIndex : ℕ) (system : badIndex < g.systemBlockCount)
    (room : bmt.HasRoom g badIndex) :
    (bmt.remap g badIndex mapIndex).mappedCount = bmt.mappedCount + 1 ∧
      ∀ i, (bmt.remap g badIndex mapIndex).table i =
        if i = bmt.mappedCount then ⟨badIndex, mapIndex⟩ else bmt.table i := by
  have room := room system
  rw [BmtStruct.remap, if_neg (not_le.mpr system)]
  exact ⟨Nat.mod_eq_of_lt (by omega), fun i => Function.update_apply ..⟩

/-- The table after an update for a pool block: its entry names the new block. -/
theorem remap_pool (bmt : BmtStruct) (mapIndex : ℕ) (pool : g.InPool badIndex) :
    (bmt.remap g badIndex mapIndex).mappedCount = bmt.mappedCount ∧
      ∀ i, (bmt.remap g badIndex mapIndex).table i =
        if i = bmt.indexOfMapped g badIndex then ⟨(bmt.table i).badIndex, mapIndex⟩
        else bmt.table i := by
  rw [BmtStruct.remap, if_pos pool.1]
  refine ⟨rfl, fun i => ?_⟩
  simp only [Function.update_apply]
  split
  · next h => rw [h]
  · rfl

/-- The counter is a `u8` before and after. -/
theorem remap_counted {bmt : BmtStruct} (counted : bmt.mappedCount < 256) (mapIndex : ℕ) :
    (bmt.remap g badIndex mapIndex).mappedCount < 256 := by
  rw [BmtStruct.remap]
  split
  · exact counted
  · exact Nat.mod_lt _ (by norm_num)

/-- A block that is neither mapped nor the new one is not mapped afterwards. -/
theorem remap_unmapped {r : Ram} (room : r.bmt.HasRoom g badIndex)
    (updatable : Updatable g r badIndex) {block : ℕ}
    (other : mapIndex ≠ block) (unmapped : r.bmt.isBlockMapped block = false) :
    (r.bmt.remap g badIndex mapIndex).isBlockMapped block = false := by
  rw [isBlockMapped_eq_false_iff] at unmapped ⊢
  rcases updatable with system | ⟨pool, -⟩
  · obtain ⟨count, entry⟩ := remap_system r.bmt mapIndex system room
    intro i hi
    rw [count] at hi
    rw [entry]
    split
    · exact other
    · exact unmapped i (by omega)
  · obtain ⟨count, entry⟩ := remap_pool r.bmt mapIndex pool
    intro i hi
    rw [count] at hi
    rw [entry]
    split
    · exact other
    · exact unmapped i hi

/-- One more entry, or one entry replaced, keeps the table a disjoint remapping. -/
theorem remap_disjointBmt {r : Ram} (inv : DisjointBmt g r) (room : r.bmt.HasRoom g badIndex)
    (free : Unused g r mapIndex) (updatable : Updatable g r badIndex) :
    DisjointBmt g { r with bmt := r.bmt.remap g badIndex mapIndex } := by
  have few := count_lt_of_unused inv free
  have unmapped := (isBlockMapped_eq_false_iff r.bmt mapIndex).mp free.unmapped
  have apart : r.bmtBlockIndex ≠ 0 → g.InPool r.bmtBlockIndex ∧
      (r.bmt.remap g badIndex mapIndex).isBlockMapped r.bmtBlockIndex = false ∧
      r.bmtBlockIndex ≠ r.bbtBlockIndex := fun ne =>
    ⟨(inv.bmt_apart ne).1, remap_unmapped room updatable free.ne_bmt
      (inv.bmt_apart ne).2.1, (inv.bmt_apart ne).2.2⟩
  rcases updatable with system | ⟨pool, mapped⟩
  · obtain ⟨count, entry⟩ := remap_system r.bmt mapIndex system room
    refine ⟨?_, ?_, ?_, ?_, ?_, apart⟩
    · simp only [count]; omega
    · intro i hi
      simp only [count, entry] at hi ⊢
      split
      · exact free.pool
      · exact inv.mapped_mem i (by omega)
    · intro i hi j hj
      simp only [count, entry] at hi hj ⊢
      split <;> split
      · omega
      · exact fun eq => absurd eq.symm (unmapped j (by omega))
      · exact fun eq => absurd eq (unmapped i (by omega))
      · exact inv.mapped_inj i (by omega) j (by omega)
    · intro i hi
      simp only [count, entry] at hi ⊢
      split
      · exact system
      · exact inv.bad_lt i (by omega)
    · intro i hi bound
      simp only [count, entry] at hi ⊢
      rw [if_neg (by omega)]
      exact inv.rest_zero i (by omega) bound
  · obtain ⟨live, -⟩ := indexOfMapped_live inv mapped pool
    obtain ⟨count, entry⟩ := remap_pool r.bmt mapIndex pool
    refine ⟨?_, ?_, ?_, ?_, ?_, apart⟩
    · simp only [count]; exact inv.count_le
    · intro i hi
      simp only [count, entry] at hi ⊢
      split
      · exact free.pool
      · exact inv.mapped_mem i hi
    · intro i hi j hj
      simp only [count, entry] at hi hj ⊢
      split <;> split
      · omega
      · exact fun eq => absurd eq.symm (unmapped j hj)
      · exact fun eq => absurd eq (unmapped i hi)
      · exact inv.mapped_inj i hi j hj
    · intro i hi
      simp only [count, entry] at hi ⊢
      split <;> exact inv.bad_lt i hi
    · intro i hi bound
      simp only [count, entry] at hi ⊢
      rw [if_neg (by omega)]
      exact inv.rest_zero i hi bound

/-- An update keeps the tables disjoint. -/
theorem remap_disjoint {r : Ram} (inv : DisjointTables g r) (room : r.bmt.HasRoom g badIndex)
    (free : Unused g r mapIndex) (updatable : Updatable g r badIndex) :
    DisjointTables g { r with bmt := r.bmt.remap g badIndex mapIndex } :=
  ⟨remap_disjointBmt inv.toDisjointBmt room free updatable, fun ne =>
    ⟨(inv.bbt_apart ne).1, remap_unmapped room updatable free.ne_bbt (inv.bbt_apart ne).2⟩⟩

end Remap

/-- `update_bmt` keeps the tables disjoint, whatever the flash answers and
whether or not it succeeds. -/
theorem updateBmt_disjoint (small : g.bmtBlockCount ≤ 255) (inv : DisjointTables g r)
    (depth offset : ℕ) (reason : UpdateReason) (dat oob : Option Bytes)
    (updatable : Updatable g r (offset / eraseSize)) :
    Ensures (updateBmt g depth offset reason dat oob) r fun _ r' => DisjointTables g r' := by
  rw [updateBmt, ensures_bind]
  refine ensures_mono (fun mapIndex r₁ h => ?_)
    (replacementBlock_ensures g depth offset reason dat oob)
  obtain ⟨same, free⟩ := h
  by_cases none : mapIndex = 0
  · rw [if_pos none]
    exact same.disjoint inv
  rw [if_neg none, ensures_bind, ensures_modify, ensures_bind, fillBmtBuffers, ensures_modify,
    ensures_bind, ensures_get, ensures_bind]
  have free₁ : Unused g r₁ mapIndex := by
    have unused := free none
    exact ⟨unused.pool, same.bmtBlockIndex ▸ unused.ne_bmt, same.bbtBlockIndex ▸ unused.ne_bbt,
      same.bmt ▸ unused.unmapped⟩
  have updatable₁ : Updatable g r₁ (offset / eraseSize) := by
    rw [Updatable, same.bmt]
    exact updatable
  have room : r₁.bmt.HasRoom g (offset / eraseSize) :=
    hasRoom_of_unused (same.disjointBmt inv.toDisjointBmt) small free₁
  have remapped := remap_disjoint (same.disjoint inv) room free₁ updatable₁
  refine ensures_mono (fun written r₂ moved => ?_) (writeBmtToFlash_ensures g depth _ _)
  have done : DisjointTables g r₂ := moved.disjoint (remapped.withBuffers _ _)
  cases written with
  | false => exact done
  | true =>
      rw [if_pos rfl, ensures_bind]
      refine ensures_mono (fun _ r₃ h => ?_) (markBlockBadBmt_ensures _ _)
      subst h
      exact done

/-! ## Writing the tables out -/

/-- The bad-block table takes an unused block only. -/
theorem writeBbtToFlash_disjoint (inv : DisjointTables g r) (depth : ℕ) (dat oob : Bytes) :
    Ensures (writeBbtToFlash g dat oob depth) r fun _ r' => DisjointTables g r' := by
  induction depth generalizing r with
  | zero => exact trivial
  | succ depth ih =>
      rw [writeBbtToFlash, ensures_bind]
      refine ensures_mono (fun block r₁ h => ?_) (findAvailableBlock_ensures g false)
      obtain ⟨rfl, free⟩ := h
      have placed : ∀ block, (block ≠ 0 → Unused g r block) →
          DisjointTables g { r with poolErased := true, bbtBlockIndex := block } := by
        intro block free
        refine ⟨⟨inv.count_le, inv.mapped_mem, inv.mapped_inj, inv.bad_lt, inv.rest_zero,
          fun ne => ⟨(inv.bmt_apart ne).1, (inv.bmt_apart ne).2.1, fun eq => ?_⟩⟩,
          fun ne => ⟨(free ne).pool, (free ne).unmapped⟩⟩
        have eq : r.bmtBlockIndex = block := eq
        exact (free (eq ▸ ne)).ne_bmt eq.symm
      rw [ensures_bind, ensures_modify]
      by_cases none : block = 0
      · rw [if_pos none]
        exact placed block free
      rw [if_neg none, ensures_bind, nandWritePageBmt, ensures_perform]
      rintro (_ | _)
      · rw [if_neg (by simp), ensures_bind]
        refine ensures_mono (fun _ r₂ h => ?_) (markBlockBadBmt_ensures _ _)
        subst h
        rw [ensures_bind, ensures_modify]
        exact ih (placed 0 fun h => absurd rfl h)
      · exact placed block free

/-- `write_bbt_or_bmt_to_flash` keeps the tables disjoint. -/
theorem writeBbtOrBmtToFlash_disjoint (inv : DisjointTables g r) (depth : ℕ) :
    Ensures (writeBbtOrBmtToFlash g depth) r fun _ r' => DisjointTables g r' := by
  have first : Ensures (writeBmtIfNeeded g depth) r fun _ r' => DisjointTables g r' := by
    rw [writeBmtIfNeeded, ensures_bind, ensures_get]
    split
    · rw [ensures_bind, fillBmtBuffers, ensures_modify, ensures_bind, ensures_get]
      exact ensures_mono (fun _ _ moved => moved.disjoint (inv.withBuffers _ _))
        (writeBmtToFlash_ensures g depth _ _)
    · exact inv
  rw [writeBbtOrBmtToFlash, ensures_bind]
  refine ensures_mono (fun written r₁ inv₁ => ?_) first
  split
  · rw [writeBbtIfNeeded, ensures_bind, ensures_get]
    split
    · rw [ensures_bind, fillBbtBuffers, ensures_modify, ensures_bind, ensures_get]
      exact writeBbtToFlash_disjoint g (inv₁.withBuffers _ _) depth _ _
    · exact inv₁
  · exact inv₁

end En7512.Bmt
