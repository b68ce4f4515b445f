/-
# The table in memory and the table on the flash

`Consistent` is what holds between any two calls of the layer: the table in
memory is a disjoint remapping, the only table image on the flash is in the
block of the table and holds the table in memory, and free blocks are blank.
Updating the table and writing the tables out keep it.
-/

import En7512.Bmt.Boot
import En7512.Bmt.Update

namespace En7512.Bmt

open En7512.Logic En7512.Nand En7512.Logic.Routine

/-- The tables in memory and the flash agree. -/
structure Consistent (g : Geometry) (L : OobLayout) (r : Ram) (f : Flash) : Prop where
  disjoint : DisjointBmt g r
  counted : r.bmt.mappedCount < 256
  mirrored : ∀ b, g.InPool b → HoldsBmt g L f.pages b →
    b = r.bmtBlockIndex ∧ imageLive (firstPage f.pages b).data = r.bmt.live
  good : r.bmtBlockIndex ≠ 0 → ¬ BlockBad L f.pages r.bmtBlockIndex
  ready : r.poolErased = true → Ready g L r f

/-- No block has begun to point back. -/
def Quiet (g : Geometry) (L : OobLayout) (pages pages' : ℕ → Page) : Prop :=
  ∀ b, ¬ PointsBack g L pages b → ¬ PointsBack g L pages' b

section Images

variable {g : Geometry} {L : OobLayout} {pages pages' : ℕ → Page} {b : ℕ}

theorem imageLive_congr {dat dat' : Bytes} (same : ∀ i < pageSize, dat i = dat' i) :
    imageLive dat = imageLive dat' := by
  have blank : BmtStruct := ⟨fun _ => ⟨0, 0⟩, 0, 0, 0⟩
  rw [← live_load blank dat, ← live_load blank dat', blank.load_congr same]

theorem imagePage_data (dat : Bytes) : ∀ i < pageSize, (imagePage L dat).data i = dat i := by
  intro i hi
  simp only [imagePage, programmed, Page.erased_and, Page.erased_data]
  exact overlay_page_of_lt _ _ hi

theorem imagePage_oob (dat : Bytes) : (imagePage L dat).oob = allOnes := by
  simp only [imagePage, programmed, Page.erased_and, Page.erased_oob, OobLayout.scatter_ones]

theorem imagePage_good (dat : Bytes) (page : firstPage pages b = imagePage L dat) :
    ¬ BlockBad L pages b := by
  simp only [BlockBad, page, Page.Marked, imagePage_oob]
  simp

/-- The image of a disjoint table is found, and says what the table says. -/
theorem holdsBmt_of_image {r : Ram} (disjoint : DisjointBmt g r) (counted : r.bmt.mappedCount < 256)
    (page : firstPage pages b = imagePage L (fillNandBmtBuffer g r.bmt allOnes)) :
    HoldsBmt g L pages b ∧ imageLive (firstPage pages b).data = r.bmt.live := by
  have split := g.system_add_pool
  have sound : r.bmt.Sound g := by
    refine ⟨disjoint.count_le, counted, fun e he => ?_,
      fun e he => ?_⟩
    · obtain ⟨i, hi, rfl⟩ := r.bmt.mem_live.mp he
      have := disjoint.bad_lt i hi
      omega
    · obtain ⟨i, hi, rfl⟩ := r.bmt.mem_live.mp he
      exact disjoint.mapped_mem i hi
  have same := imagePage_data (L := L) (fillNandBmtBuffer g r.bmt allOnes)
  rw [← page] at same
  refine ⟨⟨imagePage_good _ page, (IsBmtImage.congr same).mpr (isBmtImage_fill sound _)⟩, ?_⟩
  rw [imageLive_congr same, ← live_load r.bmt, live_load_fill sound]

theorem Blank.not_holdsBmt (blank : Blank pages b) : ¬ HoldsBmt g L pages b := fun holds => by
  have first := holds.2.1.1
  rw [blank.firstPage] at first
  exact absurd first (by decide)

/-- Where nothing has been written there is an image only if there was one. -/
theorem Settled.holdsBmt (h : Settled L pages pages' b) (holds : HoldsBmt g L pages' b) :
    HoldsBmt g L pages b ∧ firstPage pages' b = firstPage pages b := by
  rcases h with same | blank | bad
  · have first := same.firstPage
    refine ⟨?_, first⟩
    simpa only [HoldsBmt, same.blockBad, first] using holds
  · exact absurd holds blank.not_holdsBmt
  · exact absurd bad holds.1

theorem pointsBack_congr (same : firstPage pages' b = firstPage pages b) :
    PointsBack g L pages' b ↔ PointsBack g L pages b := by
  simp only [PointsBack, BlockBad, same]

/-- A first page whose index is blank points nowhere. -/
theorem not_pointsBack_of_blank (blank : (firstPage pages b).oob = allOnes) :
    ¬ PointsBack g L pages b := by
  rintro ⟨-, index⟩
  have total := g.totalBlockCount_le
  have split := g.system_add_pool
  have ones : pageIndex L (firstPage pages b) = 65535 := by
    rw [pageIndex, blank]
    show (0xff : UInt8).toNat * 256 + (0xff : UInt8).toNat = 65535
    decide
  omega

/-- A b on which nothing has been programmed points back only if it did before. -/
theorem Settled.not_pointsBack (settled : Settled L pages pages' b)
    (before : ¬ PointsBack g L pages b) : ¬ PointsBack g L pages' b := by
  rcases settled with same | blank | bad
  · rwa [pointsBack_congr same.firstPage]
  · apply not_pointsBack_of_blank
    rw [blank.firstPage]
    rfl
  · exact fun points => points.1 bad

end Images

section Steps

variable {g : Geometry} {L : OobLayout} {r r' : Ram} {f f' : Flash} {offset : ℕ}
  {reason : UpdateReason} {dat oob : Option Bytes} {block : ℕ}

/-- The first page of the new block stores the first page that has been moved. -/
theorem Migrated.first {before after : ℕ → Page} {d o : Bytes}
    (h : Migrated g L before after offset d o block) :
    ∀ i < pageSize, (firstPage after block).data i = firstData before offset (some d) i := by
  intro i hi
  simp only [firstData]
  split
  · next zero =>
      have stored := h.failing.data i hi
      rw [zero] at stored
      exact stored
  · next ne => exact (h.copied 0 (Nat.pos_of_ne_zero ne)).data i hi

/-- Looking for a new block and moving to it puts no image on the flash. -/
theorem Replaced.holdsBmt (h : Replaced g L r offset reason dat oob f block f')
    (noImage : reason = .writeFail → ¬ IsBmtImage g (firstData f.pages offset dat)) {b : ℕ}
    (pool : g.InPool b) (holds : HoldsBmt g L f'.pages b) :
    HoldsBmt g L f.pages b ∧ firstPage f'.pages b = firstPage f.pages b := by
  by_cases hb : b = block
  · subst hb
    have ne := pool.pos
    by_cases write : reason = .writeFail
    · obtain ⟨-, d, o, hd, -, moved⟩ := h.moved write ne
      have image := (IsBmtImage.congr moved.first).mp holds.2
      rw [← hd] at image
      exact absurd image (noImage write)
    · exact (h.fresh write ne).1.holdsBmt holds
  · exact (h.change.settled b hb).holdsBmt holds

/-- Writing the table puts no other image on the flash, and the old one is gone. -/
theorem BmtWritten.holdsBmt {done : Bool} {d : Bytes} (h : BmtWritten g L r d f done r' f') {b : ℕ}
    (pool : g.InPool b) (other : b ≠ r'.bmtBlockIndex) (holds : HoldsBmt g L f'.pages b) :
    b ≠ r.bmtBlockIndex ∧ HoldsBmt g L f.pages b ∧ firstPage f'.pages b = firstPage f.pages b := by
  refine ⟨?_, (h.change.settled b other).holdsBmt holds⟩
  rintro rfl
  exact holds.1 (h.given_up pool.pos fun eq => other eq.symm)

/-- Writing the table makes no block point back. -/
theorem BmtWritten.quiet {done : Bool} {d : Bytes} (h : BmtWritten g L r d f done r' f') :
    Quiet g L f.pages f'.pages := by
  intro b before
  by_cases image : b = r'.bmtBlockIndex
  · subst image
    cases done with
    | true =>
        apply not_pointsBack_of_blank
        rw [(h.image rfl).2.2]
        exact imagePage_oob d
    | false =>
        -- there is no such block
        have same := h.change.same r'.bmtBlockIndex fun free => free.unused.pool.pos (h.gone rfl)
        rwa [pointsBack_congr same.firstPage]
  · exact (h.change.settled b image).not_pointsBack before

/-- The mark on the failed block touches no other block. -/
theorem sameBlock_mark {pages : ℕ → Page} {page : Page} {b : ℕ} (other : b ≠ offset / eraseSize) :
    SameBlock pages (Function.update pages (offset / pageSize) page) b := by
  apply sameBlock_update
  rw [page_div_block]
  exact other.symm

/-- An image that is there after the mark was there before. -/
theorem holdsBmt_of_mark {pages : ℕ → Page} {page : Page} {kind : BadKind}
    (marked : page.Marked L kind) {b : ℕ}
    (holds : HoldsBmt g L (Function.update pages (offset / pageSize) page) b) :
    HoldsBmt g L pages b ∧
      firstPage (Function.update pages (offset / pageSize) page) b = firstPage pages b := by
  by_cases here : pageAddr b = offset / pageSize
  · rw [← here] at holds
    exact absurd (blockBad_update marked) holds.1
  · have first : firstPage (Function.update pages (offset / pageSize) page) b = firstPage pages b :=
      Function.update_of_ne here _ _
    refine ⟨?_, first⟩
    simpa only [HoldsBmt, BlockBad, first] using holds

/-- The first page of the block of an offset. -/
theorem page_eq_pageAddr (first : offset / pageSize % pagePerBlock = 0) :
    offset / pageSize = pageAddr (offset / eraseSize) := by
  have split := Nat.div_add_mod (offset / pageSize) pagePerBlock
  rw [first, page_div_block, Nat.add_zero, Nat.mul_comm] at split
  exact split.symm

/-- The mark keeps the free blocks ready: a marked block is not free, and one whose
mark is elsewhere still counts as failed. -/
theorem Ready.mark {page : Page} {kind : BadKind} (ready : Ready g L r f)
    (marked : page.Marked L kind)
    (failing : Free g L r f.pages (offset / eraseSize) → offset / eraseSize ∈ f.failed) :
    Ready g L r ⟨Function.update f.pages (offset / pageSize) page, afterMark offset f.failed⟩ := by
  intro b free out
  by_cases hb : b = offset / eraseSize
  · subst hb
    by_cases first : offset / pageSize % pagePerBlock = 0
    · have bad := free.good
      rw [page_eq_pageAddr first] at bad
      exact absurd (blockBad_update marked) bad
    · have other : pageAddr (offset / eraseSize) ≠ offset / pageSize := by
        intro eq
        apply first
        rw [← eq]
        exact Nat.mul_mod_left _ pagePerBlock
      have same : firstPage (Function.update f.pages (offset / pageSize) page)
          (offset / eraseSize) =
          firstPage f.pages (offset / eraseSize) := Function.update_of_ne other _ _
      have free' : Free g L r f.pages (offset / eraseSize) :=
        ⟨free.unused, by simpa only [BlockBad, same] using free.good⟩
      simp only [afterMark, if_neg first] at out
      exact absurd (failing free') out
  · have same : SameBlock f.pages (Function.update f.pages (offset / pageSize) page) b :=
      sameBlock_mark hb
    refine same.blank (ready b (free.of_same same) fun mem => out ?_)
    show b ∈ afterMark offset f.failed
    rw [afterMark]
    split
    · exact ⟨mem, hb⟩
    · exact mem

theorem updatable_not_free {b : ℕ} (updatable : Updatable g r b) {pages : ℕ → Page} :
    ¬ Free g L r pages b := fun free => updatable_used updatable free.unused

/-- The block of the table carries no data. -/
theorem table_not_updatable (disjoint : DisjointBmt g r) (ne : r.bmtBlockIndex ≠ 0) :
    ¬ Updatable g r r.bmtBlockIndex := by
  have apart := disjoint.bmt_apart ne
  rintro (system | ⟨-, mapped⟩)
  · exact absurd apart.1.1 (not_le.mpr system)
  · exact Bool.noConfusion (mapped.symm.trans apart.2.1)

/-- The other blocks that carry data are not free after a remap. -/
theorem updatable_remapped (disjoint : DisjointBmt g r) {badIndex mapIndex b : ℕ}
    (room : r.bmt.HasRoom g badIndex) (free : Unused g r mapIndex)
    (updatable : Updatable g r badIndex)
    (used : Updatable g r b) (other : b ≠ badIndex) :
    ¬ Unused g (r.remapped g badIndex mapIndex).withoutBmt b := by
  intro now
  have apart : b ≠ (r.remapped g badIndex mapIndex).bmtBlockIndex := by
    rintro rfl
    exact table_not_updatable disjoint now.pool.pos used
  obtain ⟨-, ⟨rfl, -⟩ | unused⟩ := unused_remapped disjoint room free updatable
    (unused_withoutBmt.mpr ⟨now, apart⟩)
  · exact other rfl
  · exact updatable_used used unused

section Updated

variable (before : Consistent g L r f) (room : r.bmt.HasRoom g (offset / eraseSize))
  (updatable : Updatable g r (offset / eraseSize))

include before in
theorem remapped_counted {r₂ : Ram}
    (moved : BmtMoved g (r.remapped g (offset / eraseSize) block) r₂) :
    r₂.bmt.mappedCount < 256 := by
  rw [moved.bmt]
  exact remap_counted before.counted block

include before room updatable in
/-- The table in memory after an update that has succeeded. -/
theorem UpdateResult.disjoint (h : UpdateResult g L r offset reason dat oob f true r' f') :
    DisjointBmt g r' ∧ r'.bmt.mappedCount < 256 := by
  cases h with
  | done ne replaced tables written marked =>
      have remapped := remap_disjointBmt before.disjoint room (replaced.free ne).unused
        updatable
      exact ⟨tables.disjointBmt remapped, remapped_counted before tables⟩

include before room updatable in
/-- An update that has succeeded leaves the other blocks that carry data alone. -/
theorem UpdateResult.same (h : UpdateResult g L r offset reason dat oob f true r' f') {b : ℕ}
    (used : Updatable g r b) (other : b ≠ offset / eraseSize) : SameBlock f.pages f'.pages b := by
  cases h with
  | @done block r' f₁ f₂ page ne replaced tables written marked =>
      have still := updatable_remapped before.disjoint room (replaced.free ne).unused updatable used
        other
      have moving := replaced.change.same b (updatable_not_free used)
      have writing := written.change.same b fun free => still free.unused
      exact (moving.trans writing).trans (sameBlock_mark other)

include before room updatable in
/-- The image is on the flash after an update that has succeeded. -/
theorem UpdateResult.stored
    (failing : g.InPool (offset / eraseSize) → offset / eraseSize ∈ f.failed)
    (h : UpdateResult g L r offset reason dat oob f true r' f') :
    g.InPool r'.bmtBlockIndex ∧ HoldsBmt g L f'.pages r'.bmtBlockIndex ∧
      imageLive (firstPage f'.pages r'.bmtBlockIndex).data = r'.bmt.live := by
  obtain ⟨disjoint, counted⟩ := h.disjoint before room updatable
  cases h with
  | @done block r' f₁ f₂ page ne replaced tables written marked =>
      obtain ⟨nonzero, spared, image⟩ := written.image rfl
      have sameBmt : r'.bmt = r.bmt.remap g (offset / eraseSize) block := tables.bmt
      rw [remapImage, ← sameBmt] at image
      obtain ⟨holds, live⟩ := holdsBmt_of_image disjoint counted image
      have pool := (disjoint.bmt_apart nonzero).1
      -- the failed block is not the new block of the table
      have apart : r'.bmtBlockIndex ≠ offset / eraseSize := by
        intro eq
        rw [eq] at pool spared
        have out₁ : offset / eraseSize ∉ f₁.failed ∨ offset / eraseSize ∈ f₁.failed := em' _
        rcases out₁ with out₁ | in₁
        · have bad := replaced.change.failed_left _ (failing pool) out₁
          have same := written.change.same (offset / eraseSize) fun free => free.good bad
          rw [eq] at holds
          exact holds.1 (same.blockBad.mpr bad)
        · have bad := written.change.failed_left _ in₁ spared
          rw [eq] at holds
          exact holds.1 bad
      have same : SameBlock f₂.pages (Function.update f₂.pages (offset / pageSize) page)
          r'.bmtBlockIndex := sameBlock_mark apart
      refine ⟨pool, ?_, ?_⟩
      · simpa only [HoldsBmt, same.blockBad, same.firstPage] using holds
      · rw [same.firstPage]
        exact live

/-- The free blocks are ready after an update that has succeeded. -/
theorem UpdateResult.ready
    (failing : g.InPool (offset / eraseSize) → offset / eraseSize ∈ f.failed)
    (h : UpdateResult g L r offset reason dat oob f true r' f') (erased : r'.poolErased = true) :
    Ready g L r' f' := by
  cases h with
  | @done block r' f₁ f₂ page ne replaced tables written marked =>
      refine (written.ready erased).mark marked fun free => ?_
      have pool' := free.unused.pool
      by_contra out
      by_cases in₁ : offset / eraseSize ∈ f₁.failed
      · exact free.good (written.change.failed_left _ in₁ out)
      · have bad := replaced.change.failed_left _ (failing pool') in₁
        have same := written.change.same (offset / eraseSize) fun free => free.good bad
        exact free.good (same.blockBad.mpr bad)

include before room updatable in
/-- An update that has succeeded leaves a consistent state, if there is no other image. -/
theorem UpdateResult.consistent_of_single
    (failing : g.InPool (offset / eraseSize) → offset / eraseSize ∈ f.failed)
    (h : UpdateResult g L r offset reason dat oob f true r' f')
    (single : ∀ b, g.InPool b → HoldsBmt g L f'.pages b → b = r'.bmtBlockIndex) :
    Consistent g L r' f' := by
  obtain ⟨disjoint, counted⟩ := h.disjoint before room updatable
  obtain ⟨pool, holds, live⟩ := h.stored before room updatable failing
  refine ⟨disjoint, counted, fun b hb there => ?_, fun _ => holds.1, h.ready failing⟩
  obtain rfl := single b hb there
  exact ⟨rfl, live⟩

include before room updatable in
/-- What `update_bmt` makes of a consistent state: a consistent state, with the
table on the flash if it succeeds. -/
theorem UpdateResult.consistent {done : Bool}
    (failing : g.InPool (offset / eraseSize) → offset / eraseSize ∈ f.failed)
    (noImage : reason = .writeFail → ¬ IsBmtImage g (firstData f.pages offset dat))
    (h : UpdateResult g L r offset reason dat oob f done r' f') :
    Consistent g L r' f' ∧
      (done = true → g.InPool r'.bmtBlockIndex ∧ HoldsBmt g L f'.pages r'.bmtBlockIndex) := by
  -- an image that is left comes from the state before, so it was in the block of the table
  have gone : ∀ {block f₁ f₂ done} {d : Bytes} {r₂ : Ram},
      Replaced g L r offset reason dat oob f block f₁ →
      BmtWritten g L (r.remapped g (offset / eraseSize) block) d f₁ done r₂ f₂ → ∀ b, g.InPool b →
      b ≠ r₂.bmtBlockIndex → ¬ HoldsBmt g L f₂.pages b := by
    intro block f₁ f₂ done d r₂ replaced written b pool other holds
    obtain ⟨ne, holds₁, -⟩ := written.holdsBmt pool other holds
    obtain ⟨holds₀, -⟩ := replaced.holdsBmt noImage pool holds₁
    exact ne (before.mirrored b pool holds₀).1
  cases done with
  | true =>
      obtain ⟨pool, holds, -⟩ := h.stored before room updatable failing
      refine ⟨h.consistent_of_single before room updatable failing fun b hb there => ?_,
        fun _ => ⟨pool, holds⟩⟩
      cases h with
      | done ne replaced tables written marked =>
          by_contra other
          exact gone replaced written b hb other (holdsBmt_of_mark marked there).1
  | false =>
      refine ⟨?_, by simp⟩
      cases h with
      | refused tables replaced =>
          refine ⟨tables.disjointBmt before.disjoint, tables.bmt ▸ before.counted,
            fun b pool holds => ?_, fun ne => ?_, fun _ b free out => ?_⟩
          · obtain ⟨holds₀, first⟩ := replaced.holdsBmt noImage pool holds
            rw [tables.bmt, tables.bmtBlockIndex, first]
            exact before.mirrored b pool holds₀
          · rw [tables.bmtBlockIndex] at ne ⊢
            have same := replaced.change.same r.bmtBlockIndex fun free => free.unused.ne_bmt rfl
            exact fun bad => before.good ne (same.blockBad.mp bad)
          · exact replaced.ready b free.unused.pool.pos
              ((free_congr tables.unused_iff b).mp free) out
      | unwritten ne replaced tables written =>
          have remapped := remap_disjointBmt before.disjoint room (replaced.free ne).unused
            updatable
          have index := written.gone rfl
          refine ⟨tables.disjointBmt remapped, remapped_counted before tables,
            fun b pool holds => ?_, fun ne => absurd index ne, written.ready⟩
          exact absurd holds (gone replaced written b pool (index ▸ pool.pos))

end Updated

end Steps

/-! ## Writing the tables out -/

/-- The blocks that no search for a free block touches: those that carry data, and
those that carry a mark. -/
def Spared (g : Geometry) (L : OobLayout) (r : Ram) (pages : ℕ → Page) (b : ℕ) : Prop :=
  Updatable g r b ∨ BlockBad L pages b

/-- What writing the tables out makes of a consistent state. -/
structure Saved (g : Geometry) (L : OobLayout) (r : Ram) (f : Flash) (done : Bool) (r' : Ram)
    (f' : Flash) : Prop where
  consistent : Consistent g L r' f'
  bmt : r'.bmt = r.bmt
  initBbt : r'.initBbt = r.initBbt
  same : ∀ b, Spared g L r f.pages b → SameBlock f.pages f'.pages b
  bbt : r'.bbtBlockIndex = r.bbtBlockIndex ∨ r'.bbtBlockIndex = 0 ∨
    g.InPool r'.bbtBlockIndex ∧ ¬ BlockBad L f.pages r'.bbtBlockIndex
  stored : done = true →
    (r.needWriteBmtToNand = true ∨
      g.InPool r.bmtBlockIndex ∧ HoldsBmt g L f.pages r.bmtBlockIndex) →
    g.InPool r'.bmtBlockIndex ∧ HoldsBmt g L f'.pages r'.bmtBlockIndex

section Save

variable {g : Geometry} {L : OobLayout} {leftover : Leftover} {kept : (ℕ → Page) → Prop}
  {r r' : Ram} {f f' : Flash}

theorem Spared.not_free {b : ℕ} {pages : ℕ → Page} (spared : Spared g L r pages b) :
    ¬ Free g L r pages b := fun free =>
  spared.elim (fun used => updatable_not_free used free) free.good

theorem updatable_congr (bmt : r'.bmt = r.bmt) {b : ℕ} :
    Updatable g r' b ↔ Updatable g r b := by
  simp only [Updatable, bmt]

theorem flash_writeBmtIfNeeded (consistent : Consistent g L r f)
    (depth : ℕ) (anything_kept : ∀ pages, kept pages) :
    along (FlashStep L leftover) (fun f' => kept f'.pages) (writeBmtIfNeeded g depth)
      (fun done r' f' => Saved g L r f done r' f' ∧ BmtMoved g r r' ∧ Quiet g L f.pages f'.pages)
      r f := by
  rw [writeBmtIfNeeded]
  apply along_bind
  rw [along_get]
  cases need : r.needWriteBmtToNand with
  | false =>
      rw [if_neg (by simp)]
      refine ⟨⟨consistent, rfl, rfl, fun _ _ => .refl _ _, .inl rfl, fun _ stored => ?_⟩, .refl r,
        fun _ quiet => quiet⟩
      exact stored.resolve_left (by simp [need])
  | true =>
      rw [if_pos rfl]
      apply along_bind
      rw [fillBmtBuffers, along_modify]
      apply along_bind
      rw [along_get]
      have current := fun ne => consistent.disjoint.current consistent.good ne
      have buffers : ∀ b, Unused g { r with
          datBuf := fillNandBmtBuffer g r.bmt allOnes, oobBuf := allOnes }.withoutBmt b ↔
          Unused g r.withoutBmt b := by
        intro b
        apply unused_congr <;> rfl
      refine along_mono (fun done r₁ f₁ h => ?_) (along_and_ensures (flash_writeBmtToFlash depth
        (fun erased => (consistent.ready erased).congr fun b => by apply unused_congr <;> rfl)
        (fun ne => (free_congr buffers _).mpr (current ne)) fun _ _ => anything_kept _)
        (writeBmtToFlash_ensures g depth _ _))
      obtain ⟨written, moved⟩ := h
      have disjoint := moved.disjointBmt (consistent.disjoint.withBuffers _ _)
      have bmt : r₁.bmt = r.bmt := moved.bmt
      have others : ∀ b, g.InPool b → b ≠ r₁.bmtBlockIndex → ¬ HoldsBmt g L f₁.pages b := by
        intro b pool other holds
        obtain ⟨ne, holds₀, -⟩ := written.holdsBmt pool other holds
        exact ne (consistent.mirrored b pool holds₀).1
      have image : done = true → HoldsBmt g L f₁.pages r₁.bmtBlockIndex ∧
          imageLive (firstPage f₁.pages r₁.bmtBlockIndex).data = r₁.bmt.live := by
        intro ok
        have page := (written.image ok).2.2
        rw [← bmt] at page
        exact holdsBmt_of_image disjoint (bmt ▸ consistent.counted) page
      refine ⟨⟨⟨disjoint, bmt ▸ consistent.counted, fun b pool holds => ?_, fun ne => ?_,
        written.ready⟩, moved.bmt, moved.initBbt, fun b hb => ?_, .inl moved.bbtBlockIndex,
        fun ok _ => ⟨(disjoint.bmt_apart (written.image ok).1).1, (image ok).1⟩⟩, ?_⟩
      · by_cases hb : b = r₁.bmtBlockIndex
        · subst hb
          cases done with
          | true => exact ⟨rfl, (image rfl).2⟩
          | false => exact absurd (written.gone rfl) pool.pos
        · exact absurd holds (others b pool hb)
      · cases done with
        | true => exact (image rfl).1.1
        | false => exact absurd (written.gone rfl) ne
      · have spared : Spared g L r.withoutBmt f.pages b := hb
        exact written.change.same b fun free =>
          spared.not_free ⟨(buffers b).mp free.unused, free.good⟩
      · exact ⟨⟨moved.bmt, moved.initBbt, moved.bbtBlockIndex, moved.pBbt, moved.needBmt,
          moved.needBbt, moved.moved⟩, written.quiet⟩

/-- `write_bbt_or_bmt_to_flash`. The bad-block table may be written when it has no
block yet. -/
theorem flash_writeBbtOrBmtToFlash (consistent : Consistent g L r f)
    (unwritten : r.needWriteBbtToNand = true → r.bbtBlockIndex = 0) (depth : ℕ)
    (anything_kept : ∀ pages, kept pages) :
    along (FlashStep L leftover) (fun f' => kept f'.pages) (writeBbtOrBmtToFlash g depth)
      (fun done r' f' => Saved g L r f done r' f' ∧ Quiet g L f.pages f'.pages) r f := by
  rw [writeBbtOrBmtToFlash]
  apply along_bind
  refine along_mono (fun written r₁ f₁ h => ?_)
    (flash_writeBmtIfNeeded consistent depth anything_kept)
  obtain ⟨saved, moved, quiet⟩ := h
  cases written with
  | false =>
      exact ⟨⟨saved.consistent, saved.bmt, saved.initBbt, saved.same, saved.bbt, by simp⟩, quiet⟩
  | true =>
      rw [if_pos rfl, writeBbtIfNeeded]
      apply along_bind
      rw [along_get]
      cases need : r₁.needWriteBbtToNand with
      | false => exact ⟨saved, quiet⟩
      | true =>
          have zero : r₁.bbtBlockIndex = 0 :=
            moved.bbtBlockIndex.trans (unwritten (moved.needBbt.symm.trans need))
          rw [if_pos rfl]
          apply along_bind
          rw [fillBbtBuffers, along_modify]
          apply along_bind
          rw [along_get]
          have ready : r₁.poolErased = true → Ready g L { r₁ with
              datBuf := fillNandBbtBuffer r₁.initBbt allOnes, oobBuf := allOnes } f₁ :=
            fun erased => (saved.consistent.ready erased).congr fun b => by
              apply unused_congr <;> rfl
          refine along_mono (fun done r₂ f₂ h => ?_)
            (flash_writeBbtToFlash depth zero ready anything_kept)
          have change : PoolChange g L r₁ f₁ f₂ {r₂.bbtBlockIndex} := h.change.congr fun b => by
            apply unused_congr <;> rfl
          have bmt : r₂.bmt = r₁.bmt := h.bmt
          have index : r₂.bmtBlockIndex = r₁.bmtBlockIndex := h.bmtBlockIndex
          -- the block of the table is not a free one
          have table : SameBlock f₁.pages f₂.pages r₁.bmtBlockIndex :=
            change.same _ fun free => free.unused.ne_bmt rfl
          have later : ∀ b, Spared g L r f.pages b → Spared g L r₁ f₁.pages b := fun b spared =>
            spared.imp (updatable_congr saved.bmt).mpr
              fun bad => (saved.same b (.inr bad)).blockBad.mpr bad
          have placed : r₂.bbtBlockIndex = 0 ∨ Free g L r₁ f₁.pages r₂.bbtBlockIndex ∧
              firstPage f₂.pages r₂.bbtBlockIndex =
                imagePage L (fillNandBbtBuffer r₁.initBbt allOnes) := by
            cases done with
            | false => exact .inl (h.gone rfl)
            | true =>
                obtain ⟨free, page⟩ := h.image rfl
                refine .inr ⟨⟨?_, free.good⟩, page⟩
                have unused := free.unused
                exact ⟨unused.pool, unused.ne_bmt, unused.ne_bbt, unused.unmapped⟩
          have noBmt : ∀ b, g.InPool b → HoldsBmt g L f₂.pages b →
              HoldsBmt g L f₁.pages b ∧ firstPage f₂.pages b = firstPage f₁.pages b := by
            intro b pool holds
            by_cases hb : b = r₂.bbtBlockIndex
            · subst hb
              obtain ⟨-, page⟩ := placed.resolve_left pool.pos
              have signature := holds.2.1.1
              rw [page, imagePage_data _ 0 (by decide), fillNandBbtBuffer_of_lt _ _ (by norm_num)
                (by norm_num)] at signature
              have other : physBbt r₁.initBbt 0 = 0x52 := rfl
              exact absurd (other.symm.trans signature) (by decide)
            · exact (change.settled b hb).holdsBmt holds
          refine ⟨⟨⟨?_, bmt ▸ saved.consistent.counted, fun b pool holds => ?_, fun ne => ?_,
              fun _ => h.ready⟩,
            bmt.trans saved.bmt, h.initBbt.trans saved.initBbt, fun b hb => ?_, .inr ?_,
            fun _ stored => ?_⟩, fun b before => ?_⟩
          · have inv := saved.consistent.disjoint
            refine ⟨?_, ?_, ?_, ?_, ?_, ?_⟩
            · rw [bmt]; exact inv.count_le
            · rw [bmt]; exact inv.mapped_mem
            · rw [bmt]; exact inv.mapped_inj
            · rw [bmt]; exact inv.bad_lt
            · rw [bmt]; exact inv.rest_zero
            · intro ne
              rw [bmt, index]
              rw [index] at ne
              refine ⟨(inv.bmt_apart ne).1, (inv.bmt_apart ne).2.1, fun eq => ?_⟩
              rcases placed with none | ⟨free, -⟩
              · exact ne (eq.trans none)
              · exact free.unused.ne_bmt eq.symm
          · obtain ⟨holds₁, first⟩ := noBmt b pool holds
            rw [bmt, index, first]
            exact saved.consistent.mirrored b pool holds₁
          · rw [index] at ne ⊢
            exact fun bad => saved.consistent.good ne (table.blockBad.mp bad)
          · exact (saved.same b hb).trans (change.same b (later b hb).not_free)
          · rcases placed with none | ⟨free, -⟩
            · exact .inl none
            · refine .inr ⟨free.unused.pool, fun bad => ?_⟩
              exact (later _ (.inr bad)).not_free free
          · obtain ⟨pool, holds⟩ := saved.stored rfl stored
            rw [index]
            refine ⟨pool, ?_⟩
            simpa only [HoldsBmt, table.blockBad, table.firstPage] using holds
          · have before₁ := quiet b before
            by_cases hb : b = r₂.bbtBlockIndex
            · rcases placed with none | ⟨-, page⟩
              · have same := change.same b fun free => free.unused.pool.pos (hb.trans none)
                rwa [pointsBack_congr same.firstPage]
              · apply not_pointsBack_of_blank
                rw [hb, page]
                exact imagePage_oob _
            · exact (change.settled b hb).not_pointsBack before₁

end Save

end En7512.Bmt
