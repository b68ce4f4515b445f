/-
# Where an update writes

Which blocks the layer marks, erases and programs is decided in memory: those that are
unused, that of the table, and the one that is replaced. So every other block is left alone,
whatever the flash does. That is said here of the operations that are asked for, and holds on
every device on which an operation changes its own block only.
-/

import En7512.Bmt.Consistency

namespace En7512.Bmt

open En7512.Logic En7512.Nand En7512.Logic.Routine

/-- The operation changes nothing in the block. -/
def Elsewhere (b : ℕ) : NandOp → Prop
  | .markBadblock offset _ => offset / eraseSize ≠ b
  | .eraseBlock block => block ≠ b
  | .writePage page _ _ _ _ _ => page / pagePerBlock ≠ b
  | _ => True

section Functions

variable {g : Geometry} {r : Ram} {b : ℕ}

/-- A mark goes to the block it is addressed to. -/
theorem elsewhere_markBlock {block : ℕ} (other : block ≠ b) (kind : BadKind) :
    asks (Elsewhere b) (markBlockBadBmt (blockOffset block) kind) (fun _ r' => r' = r) r := by
  rw [markBlockBadBmt, asks_bind, asks_perform, Elsewhere, blockOffset_div_erase]
  exact ⟨other, fun _ => rfl⟩

theorem elsewhere_blockAvailable (block : ℕ) :
    asks (Elsewhere b) (blockAvailable block) (fun available r' => r' = r ∧ (available = true →
      block ≠ r.bmtBlockIndex ∧ block ≠ r.bbtBlockIndex ∧ r.bmt.isBlockMapped block = false)) r := by
  have asked : asks (Elsewhere b) (blockAvailable block) (fun _ _ => True) r := by
    rw [blockAvailable, asks_bind, asks_get]
    by_cases bmt : block = r.bmtBlockIndex
    · rw [if_pos bmt]
      trivial
    by_cases bbt : block = r.bbtBlockIndex
    · rw [if_neg bmt, if_pos bbt]
      trivial
    rw [if_neg bmt, if_neg bbt, asks_bind, blockMarkedBad, asks_bind, nandBlockBadBmt, asks_perform]
    refine ⟨trivial, fun marked => ?_⟩
    cases marked with
    | true => trivial
    | false =>
        rw [if_neg (by simp), nandBlockBadBmt, asks_perform]
        refine ⟨trivial, fun marked => ?_⟩
        cases marked <;> trivial
  exact asks_mono (fun _ _ told => told.2) (asks_and_ensures asked (blockAvailable_ensures block))

/-- The first loop erases and marks unused blocks. -/
theorem elsewhere_erasePool (used : ¬ Unused g r b) (blocks : List ℕ)
    (pool : ∀ c ∈ blocks, g.InPool c) :
    asks (Elsewhere b) (erasePool blocks) (fun _ r' => r' = r) r := by
  induction blocks with
  | nil => exact rfl
  | cons block blocks ih =>
      have rest := ih fun c hc => pool c (List.mem_cons_of_mem block hc)
      rw [erasePool, asks_bind]
      apply asks_mono _ (elsewhere_blockAvailable block)
      rintro available r' ⟨rfl, free⟩
      cases available with
      | false => exact rest
      | true =>
          obtain ⟨bmt, bbt, unmapped⟩ := free rfl
          have other : block ≠ b := by
            rintro rfl
            exact used ⟨pool _ List.mem_cons_self, bmt, bbt, unmapped⟩
          rw [if_pos rfl, asks_bind, nandEraseBmt, asks_perform, blockOffset_div_erase]
          refine ⟨other, fun erased => ?_⟩
          cases erased with
          | true => exact rest
          | false =>
              rw [if_neg (by simp), asks_bind]
              apply asks_mono _ (elsewhere_markBlock other _)
              rintro _ _ rfl
              exact rest

theorem elsewhere_scanPool (blocks : List ℕ) :
    asks (Elsewhere b) (scanPool blocks) (fun _ _ => True) r := by
  induction blocks with
  | nil => trivial
  | cons block blocks ih =>
      rw [scanPool, asks_bind]
      apply asks_mono _ (elsewhere_blockAvailable block)
      rintro available r' ⟨rfl, -⟩
      cases available with
      | false => exact ih
      | true => trivial

/-- Looking for a block leaves the blocks in use alone. -/
theorem elsewhere_findAvailableBlock (used : ¬ Unused g r b) (startFromEnd : Bool) :
    asks (Elsewhere b) (findAvailableBlock g startFromEnd) (fun block r' =>
      r' = { r with poolErased := true } ∧ (block ≠ 0 → Unused g r block)) r := by
  have asked : asks (Elsewhere b) (findAvailableBlock g startFromEnd) (fun _ _ => True) r := by
    rw [findAvailableBlock, asks_bind, erasePoolOnce, asks_bind, asks_get]
    split
    · exact elsewhere_scanPool _
    · rw [asks_bind]
      apply asks_mono _ (elsewhere_erasePool used g.poolBlocks fun c => g.mem_poolBlocks.mp)
      exact fun _ _ _ => elsewhere_scanPool _
  exact asks_mono (fun _ _ told => told.2)
    (asks_and_ensures asked (findAvailableBlock_ensures g startFromEnd))

/-- The copy loop writes to the new block. -/
theorem elsewhere_copyPages {errorBlock toIndex : ℕ} (other : toIndex ≠ b) (pages : List ℕ)
    (inside : ∀ p ∈ pages, p < pagePerBlock) :
    asks (Elsewhere b) (copyPages g errorBlock toIndex pages) (fun _ _ => True) r := by
  induction pages generalizing r with
  | nil => trivial
  | cons page pages ih =>
      have read (r₀ : Ram) : asks (Elsewhere b) (nandReadPageBmt (pageAddr errorBlock + page))
          (fun _ _ => True) r₀ := by
        rw [nandReadPageBmt, asks_bind, asks_perform]
        refine ⟨trivial, fun answer => ?_⟩
        cases answer <;> trivial
      have set (r₀ : Ram) : asks (Elsewhere b) (setIndexOfSystemBlock g errorBlock)
          (fun _ _ => True) r₀ := by
        rw [setIndexOfSystemBlock]
        split <;> trivial
      rw [copyPages, asks_bind]
      apply asks_mono _ (read r)
      intro _ r₁ _
      rw [asks_bind]
      apply asks_mono _ (set r₁)
      intro _ r₂ _
      rw [asks_bind, asks_get, asks_bind, nandWritePageBmt, asks_perform, Elsewhere,
        pageAddr_div toIndex (inside page List.mem_cons_self)]
      refine ⟨other, fun written => ?_⟩
      cases written with
      | false => trivial
      | true => exact ih fun p hp => inside p (List.mem_cons_of_mem page hp)

/-- One attempt writes to the new block. -/
theorem elsewhere_migrateTo {toIndex : ℕ} (other : toIndex ≠ b) (offset : ℕ)
    (dat oob : Option Bytes) :
    asks (Elsewhere b) (migrateTo g toIndex offset dat oob) (fun _ r' => SameTables r r') r := by
  have inside : offset / pageSize % pagePerBlock < pagePerBlock := Nat.mod_lt _ (by decide)
  have asked : asks (Elsewhere b) (migrateTo g toIndex offset dat oob) (fun _ _ => True) r := by
    rw [migrateTo, asks_bind]
    apply asks_mono _ (elsewhere_copyPages other _ fun p hp => (List.mem_range.mp hp).trans inside)
    intro done r₁ _
    cases done with
    | false => trivial
    | true =>
        rw [if_pos rfl]
        rcases dat with _ | dat
        · trivial
        rcases oob with _ | oob
        · trivial
        rw [writeErrorPage, asks_bind, asks_modify, asks_bind, setIndexOfSystemBlock]
        split <;>
        · refine ⟨?_, fun _ => trivial⟩
          show (pageAddr toIndex + _) / pagePerBlock ≠ b
          rw [pageAddr_div toIndex inside]
          exact other
  exact asks_mono (fun _ _ told => told.2)
    (asks_and_ensures asked (migrateTo_ensures g toIndex offset dat oob))

/-- Moving a block, and looking for a new one. -/
theorem elsewhere_migrateFromBad (used : ¬ Unused g r b) (depth offset : ℕ)
    (dat oob : Option Bytes) :
    asks (Elsewhere b) (migrateFromBad g offset dat oob depth) (fun _ _ => True) r := by
  induction depth generalizing r with
  | zero => trivial
  | succ depth ih =>
      rw [migrateFromBad, asks_bind]
      apply asks_mono _ (elsewhere_findAvailableBlock used false)
      rintro toIndex r₁ ⟨rfl, unused⟩
      split
      · trivial
      · next ne =>
        have other : toIndex ≠ b := by
          rintro rfl
          exact used (unused ne)
        rw [asks_bind]
        apply asks_mono _ (elsewhere_migrateTo other offset dat oob)
        intro written r₂ same
        cases written with
        | true => trivial
        | false =>
            rw [if_neg (by simp), asks_bind]
            apply asks_mono _ (elsewhere_markBlock other _)
            rintro _ _ rfl
            apply ih
            intro unused₂
            have unused₁ := same.unused unused₂
            exact used ⟨unused₁.pool, unused₁.ne_bmt, unused₁.ne_bbt, unused₁.unmapped⟩

theorem elsewhere_replacementBlock (used : ¬ Unused g r b) (depth offset : ℕ)
    (reason : UpdateReason) (dat oob : Option Bytes) :
    asks (Elsewhere b) (replacementBlock g depth offset reason dat oob)
      (fun block r' => SameTables r r' ∧ (block ≠ 0 → Unused g r block)) r := by
  have asked : asks (Elsewhere b) (replacementBlock g depth offset reason dat oob)
      (fun _ _ => True) r := by
    rw [replacementBlock]
    split
    · exact elsewhere_migrateFromBad used depth offset dat oob
    · exact asks_mono (fun _ _ _ => trivial) (elsewhere_findAvailableBlock used false)
  exact asks_mono (fun _ _ told => told.2)
    (asks_and_ensures asked (replacementBlock_ensures g depth offset reason dat oob))

/-- The table takes an unused block, or erases its own. -/
theorem elsewhere_prepareBmtBlock (used : ¬ Unused g r.withoutBmt b)
    (other : r.bmtBlockIndex ≠ 0 → b ≠ r.bmtBlockIndex) :
    asks (Elsewhere b) (prepareBmtBlock g) (fun state r' =>
      (state ≠ .unavailable → r'.bmtBlockIndex ≠ b) ∧ BmtMoved g r r') r := by
  refine asks_and_ensures ?_ (prepareBmtBlock_ensures g)
  rw [prepareBmtBlock, asks_bind, asks_get]
  by_cases zero : r.bmtBlockIndex = 0
  · rw [if_pos zero, asks_bind]
    have used' : ¬ Unused g r b := fun unused => used ((unused_withoutBmt.mp unused).1)
    apply asks_mono _ (elsewhere_findAvailableBlock used' true)
    rintro block r₁ ⟨-, unused⟩
    rw [asks_bind, asks_modify]
    split
    · exact fun ready => absurd rfl ready
    · next ne =>
      rintro - rfl
      exact used' (unused ne)
  · rw [if_neg zero, asks_bind, nandEraseBmt, asks_perform, blockOffset_div_erase]
    refine ⟨(other zero).symm, fun erased => ?_⟩
    cases erased <;> exact fun _ => (other zero).symm

/-- `write_bmt_to_flash`. -/
theorem elsewhere_writeBmtToFlash (depth : ℕ) (dat oob : Bytes)
    (used : ¬ Unused g r.withoutBmt b) (other : r.bmtBlockIndex ≠ 0 → b ≠ r.bmtBlockIndex) :
    asks (Elsewhere b) (writeBmtToFlash g dat oob depth) (fun _ r' => BmtMoved g r r') r := by
  have asked : asks (Elsewhere b) (writeBmtToFlash g dat oob depth) (fun _ _ => True) r := by
    induction depth generalizing r with
    | zero => trivial
    | succ depth ih =>
        -- the table gives up its block, and takes another one that is not `b`
        have again : ∀ {r₁ : Ram}, ¬ Unused g r₁.withoutBmt b → r₁.bmtBlockIndex ≠ b →
            asks (Elsewhere b) (retireBmtBlock >>= fun _ => writeBmtToFlash g dat oob depth)
              (fun _ _ => True) r₁ := by
          intro r₁ used₁ apart
          rw [asks_bind, retireBmtBlock, asks_bind, asks_get, asks_bind]
          apply asks_mono _ (elsewhere_markBlock apart _)
          rintro _ _ rfl
          rw [asks_modify]
          exact ih used₁ fun ne => absurd rfl ne
        rw [writeBmtToFlash, asks_bind]
        apply asks_mono _ (elsewhere_prepareBmtBlock used other)
        rintro state r₁ ⟨apart, moved⟩
        have used₁ : ¬ Unused g r₁.withoutBmt b := fun unused => used ((moved.unused_iff b).mp unused)
        cases state with
        | unavailable => trivial
        | eraseFailed => exact again used₁ (apart (by decide))
        | ready =>
            show asks _ (_ >>= _) _ _
            rw [asks_bind, asks_get, asks_bind, nandWritePageBmt, asks_perform, Elsewhere,
              pageAddr_div_self]
            refine ⟨apart (by decide), fun written => ?_⟩
            cases written with
            | true => trivial
            | false => exact again used₁ (apart (by decide))
  exact asks_mono (fun _ _ told => told.2)
    (asks_and_ensures asked (writeBmtToFlash_ensures g depth dat oob))

/-- `update_bmt` works on unused blocks, on that of the table and on the one it replaces. -/
theorem elsewhere_updateBmt (depth : ℕ) {offset : ℕ} {reason : UpdateReason}
    {dat oob : Option Bytes} (small : g.bmtBlockCount ≤ 255) (disjoint : DisjointBmt g r)
    (updatable : Updatable g r (offset / eraseSize)) (used : Updatable g r b)
    (other : b ≠ offset / eraseSize) :
    asks (Elsewhere b) (updateBmt g depth offset reason dat oob) (fun _ _ => True) r := by
  have unused := updatable_used used
  rw [updateBmt, asks_bind]
  apply asks_mono _ (elsewhere_replacementBlock unused depth offset reason dat oob)
  rintro mapIndex r₁ ⟨same, free⟩
  split
  · trivial
  next ne =>
  have free := free ne
  have room : r.bmt.HasRoom g (offset / eraseSize) := hasRoom_of_unused disjoint small free
  have apart : r.bmtBlockIndex ≠ 0 → b ≠ r.bmtBlockIndex := by
    rintro ne rfl
    rcases used with system | ⟨-, mapped⟩
    · exact absurd (disjoint.bmt_apart ne).1.1 (not_le.mpr system)
    · exact Bool.noConfusion (mapped.symm.trans (disjoint.bmt_apart ne).2.1)
  -- the block is not given up by the new table
  have still : ¬ Unused g (r.remapped g (offset / eraseSize) mapIndex).withoutBmt b := by
    intro now
    have here : b ≠ (r.remapped g (offset / eraseSize) mapIndex).bmtBlockIndex := by
      by_cases zero : r.bmtBlockIndex = 0
      · exact fun eq => now.pool.pos (eq.trans zero)
      · exact apart zero
    obtain ⟨-, ⟨eq, -⟩ | before⟩ :=
      unused_remapped disjoint room free updatable (unused_withoutBmt.mpr ⟨now, here⟩)
    · exact other eq
    · exact unused before
  rw [asks_bind, asks_modify, asks_bind, fillBmtBuffers, asks_modify, asks_bind, asks_get, asks_bind]
  apply asks_mono _ (elsewhere_writeBmtToFlash depth _ _ _ _)
  · intro written r₂ _
    cases written with
    | false => trivial
    | true =>
        rw [if_pos rfl, asks_bind, markBlockBadBmt, asks_bind, asks_perform]
        exact ⟨other.symm, fun _ => trivial⟩
  · intro now
    apply still
    apply (unused_congr _ _ _ b).mp now
    · show r₁.bmt.remap g (offset / eraseSize) mapIndex = _
      rw [same.bmt]
      rfl
    · rfl
    · exact same.bbtBlockIndex
  · intro placed
    have index : r₁.bmtBlockIndex = r.bmtBlockIndex := same.bmtBlockIndex
    show b ≠ r₁.bmtBlockIndex
    rw [index]
    exact apart (index ▸ placed)

end Functions

end En7512.Bmt
