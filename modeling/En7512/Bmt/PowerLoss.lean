/-
# Power loss in the middle of an update

`update_bmt` moves a failed block, erases the image of the table, programs the new one and
marks the failed block. The power may go between any two of these calls, or in the middle of
one that then leaves its page half done. The flash that is found afterwards tells a table to
`init_bmt`, by its image if there is one, else by the numbers in the spare areas of the pool.

For a system block that is moved for the first time this is the table from before the call or
the one from after it, and a moved block is complete in the latter case. `AfterCut` says so of
the flash at every cut. It rests on two facts: the old image is there until the block has been
moved, and from then on the new block carries the number of the old one.
-/

import En7512.Bmt.BackPointers
import En7512.Bmt.Preservation
import En7512.Flash.Numbering

namespace En7512.Bmt

open En7512.Logic En7512.Nand En7512.Logic.Routine

/-! ## Operations that are cut short -/

/-- The page when the operation on it has completed. -/
def completed (L : OobLayout) : NandOp → Page → Page
  | .writePage _ dataOffset dat dataLen oob oobLen, old =>
      programmed L old dataOffset dat dataLen oob oobLen
  | .eraseBlock _, _ => .erased
  | _, old => old

/-- A first page that tells start-up nothing: it is marked, or is no image and carries no
number of a system block. -/
def Silent (g : Geometry) (L : OobLayout) (p : Page) : Prop :=
  (p.Marked L .raw ∨ p.Marked L .generateLater) ∨
    ¬ IsBmtImage g p.data ∧ g.systemBlockCount ≤ pageIndex L p

/-- An operation that fails or is cut short leaves the page as it was, or completes, or leaves
a page that tells nothing. -/
def Inert (g : Geometry) (L : OobLayout) (leftover : Leftover) : Prop :=
  ∀ op old new, leftover op old new → new = old ∨ new = completed L op old ∨ Silent g L new

/-- The list has these entries, each of them once. -/
structure Lists (list entries : List BmtEntry) : Prop where
  nodup : list.Nodup
  mem : ∀ e, e ∈ list ↔ e ∈ entries

/-- What start-up reads from the flash: every image holds the entries, and if there is none
the pool tells them. -/
structure Tells (g : Geometry) (L : OobLayout) (pages : ℕ → Page) (entries : List BmtEntry) :
    Prop where
  images : ∀ b, g.InPool b → HoldsBmt g L pages b →
    Lists (imageLive (firstPage pages b).data) entries
  pointers : (∀ b, g.InPool b → ¬ HoldsBmt g L pages b) →
    ∀ e, e ∈ backPointers g L pages g.poolBlocks ↔ e ∈ entries

/-- The block was unused and has taken the place of the failed one; after a failed write it
has what was moved. -/
structure Arrived (g : Geometry) (L : OobLayout) (r : Ram) (offset : ℕ) (reason : UpdateReason)
    (dat oob : Option Bytes) (pages pages' : ℕ → Page) (block : ℕ) : Prop where
  unused : Unused g r block
  moved : reason = .writeFail → ∃ d o, dat = some d ∧ oob = some o ∧
    Migrated g L pages pages' offset d o block

/-- The flash at a cut. -/
inductive AfterCut (g : Geometry) (L : OobLayout) (r : Ram) (offset : ℕ) (reason : UpdateReason)
    (dat oob : Option Bytes) (pages pages' : ℕ → Page) : Prop
  /-- It tells the table from before the call. -/
  | before (told : Tells g L pages' r.bmt.live)
      (same : ∀ b, Updatable g r b → SameBlock pages pages' b)
  /-- It tells the table from after the call. -/
  | after {m : ℕ} (arrived : Arrived g L r offset reason dat oob pages pages' m)
      (told : Tells g L pages' (r.bmt.remap g (offset / eraseSize) m).live)
      (same : ∀ b, b ≠ offset / eraseSize → Updatable g r b → SameBlock pages pages' b)

section Silence

variable {g : Geometry} {L : OobLayout} {pages pages' : ℕ → Page} {b : ℕ}

theorem Silent.not_holdsBmt (silent : Silent g L (firstPage pages b)) :
    ¬ HoldsBmt g L pages b := by
  rintro ⟨good, image⟩
  rcases silent with marked | ⟨none, -⟩
  · exact good marked
  · exact none image

theorem Silent.not_pointsBack (silent : Silent g L (firstPage pages b)) :
    ¬ PointsBack g L pages b := by
  rintro ⟨good, index⟩
  rcases silent with marked | ⟨-, large⟩
  · exact good marked
  · exact absurd index (not_lt.mpr large)

theorem silent_erased (g : Geometry) (L : OobLayout) : Silent g L .erased := by
  have total := g.totalBlockCount_le
  have split := g.system_add_pool
  refine .inr ⟨fun image => ?_, ?_⟩
  · exact absurd image.1.1 (by decide)
  · have ones : pageIndex L .erased = 65535 := by
      show (0xff : UInt8).toNat * 256 + (0xff : UInt8).toNat = 65535
      decide
    omega

theorem silent_marked {p : Page} {kind : BadKind} (marked : p.Marked L kind) : Silent g L p := by
  cases kind with
  | raw => exact .inl (.inl marked)
  | generateLater => exact .inl (.inr marked)

/-- The first page of a block that is erased for use: it is as it was, or tells nothing. -/
theorem Residue.same_or_silent {quiet : Leftover} (inert : Inert g L quiet) {old new : Page}
    (h : Residue L quiet b old new) : new = old ∨ Silent g L new := by
  cases h with
  | same eq => exact .inl eq
  | erased eq => exact .inr (eq ▸ silent_erased g L)
  | marked kind marked => exact .inr (silent_marked marked)
  | scrap source origin left =>
      rcases inert _ _ _ left with rfl | rfl | silent
      · rcases origin with rfl | rfl
        · exact .inl rfl
        · exact .inr (silent_erased g L)
      · exact .inr (silent_erased g L)
      · exact .inr silent

/-- The first page of the block the image is programmed on: it has the image, or tells
nothing. -/
theorem ImageAttempt.image_or_silent {quiet : Leftover} (inert : Inert g L quiet) {dat : Bytes}
    {new : Page} (h : ImageAttempt L quiet dat b new) :
    new = imagePage L dat ∨ Silent g L new := by
  rcases h with eq | left
  · exact .inl eq
  · rcases inert _ _ _ left with rfl | rfl | silent
    · exact .inr (silent_erased g L)
    · exact .inl rfl
    · exact .inr silent

/-- The first page of the block that is moved to is no image. -/
theorem FirstAttempt.no_image {quiet : Leftover} (inert : Inert g L quiet) {errorBlock : ℕ}
    {dat : Bytes} (none : ¬ IsBmtImage g dat)
    (h : FirstAttempt g L quiet errorBlock dat b (firstPage pages b)) :
    ¬ HoldsBmt g L pages b := by
  obtain ⟨buf, oob, same, -, written⟩ := h
  have stored : ∀ i < pageSize,
      (programmed L .erased 0 buf pageSize oob oobBufferSize).data i = dat i := by
    intro i hi
    simp only [programmed, Page.erased_and, Page.erased_data]
    rw [overlay_page_of_lt _ _ hi, same i hi]
  have copy : firstPage pages b = programmed L .erased 0 buf pageSize oob oobBufferSize →
      ¬ HoldsBmt g L pages b := by
    rintro eq ⟨-, image⟩
    rw [eq] at image
    exact none ((IsBmtImage.congr stored).mp image)
  rcases written with eq | left
  · exact copy eq
  · rcases inert _ _ _ left with eq | eq | silent
    · have silent := silent_erased g L
      rw [← eq] at silent
      exact silent.not_holdsBmt
    · exact copy eq
    · exact silent.not_holdsBmt

end Silence

/-! ## The flash at a cut -/

/-- An image of a disjoint table lists its entries. -/
theorem lists_live {g : Geometry} {r : Ram} {list : List BmtEntry} (disjoint : DisjointBmt g r)
    (eq : list = r.bmt.live) : Lists list r.bmt.live := by
  subst eq
  refine ⟨List.Nodup.of_map (·.mappedIndex) ?_, fun _ => Iff.rfl⟩
  exact r.bmt.nodup_mapped_iff.mpr disjoint.mapped_inj

section Cut

variable {g : Geometry} {L : OobLayout} {quiet : Leftover} {r r' : Ram} {f f₁ f' : Flash}
  {offset m : ℕ} {reason : UpdateReason} {dat oob : Option Bytes} {pages' : ℕ → Page}

/-- What is asked of the state before the update. The failed block is a system block that has
not been moved yet, the table is on the flash and the pool tells it. -/
structure Recoverable (g : Geometry) (L : OobLayout) (r : Ram) (pages : ℕ → Page) (offset : ℕ)
    (reason : UpdateReason) (dat oob : Option Bytes) : Prop where
  system : offset / eraseSize < g.systemBlockCount
  unkeyed : ∀ e ∈ r.bmt.live, e.badIndex ≠ offset / eraseSize
  room : r.bmt.HasRoom g (offset / eraseSize)
  keyed : r.bmt.Keyed
  pool : g.InPool r.bmtBlockIndex
  stored : HoldsBmt g L pages r.bmtBlockIndex
  recorded : Recorded g L r pages ∅
  /-- The data that is moved does not look like an image. -/
  noImage : ¬ IsBmtImage g (firstData pages offset dat)
  /-- The first page of the new block will carry the number. -/
  tellable : reason = .writeFail → ∀ o, oob = some o →
    Tellable g L r pages offset (offset / eraseSize) o

variable (inert : Inert g L quiet) (before : Consistent g L r f)
  (ask : Recoverable g L r f.pages offset reason dat oob)

theorem Recoverable.stands {pages : ℕ → Page}
    (ask : Recoverable g L r pages offset reason dat oob) :
    StandsFor g r (offset / eraseSize) (offset / eraseSize) := .itself ask.system ask.unkeyed

theorem Recoverable.not_unused {pages : ℕ → Page}
    (ask : Recoverable g L r pages offset reason dat oob) {r₁ : Ram} :
    ¬ Unused g r₁ (offset / eraseSize) := fun unused =>
  absurd ask.system (not_lt.mpr unused.pool.1)

include before ask in
/-- Before the first call. -/
theorem cut_start : AfterCut g L r offset reason dat oob f.pages f.pages := by
  refine .before ⟨fun b pool holds => ?_, fun absent => ?_⟩ fun _ _ => .refl _ _
  · exact lists_live before.disjoint (before.mirrored b pool holds).2
  · exact absurd ask.stored (absent _ ask.pool)

include inert before ask in
/-- While the block is being moved the old image is there, and no other one. -/
theorem cut_moving (h : MigrateMid g L quiet r offset dat f.pages pages') :
    AfterCut g L r offset reason dat oob f.pages pages' := by
  obtain ⟨toIndex, mid⟩ := h
  have table : SameBlock f.pages pages' r.bmtBlockIndex :=
    mid.same _ fun free => free.unused.ne_bmt rfl
  refine .before ⟨fun b pool holds => ?_, fun absent => ?_⟩
    fun b used => mid.same b (updatable_not_free used)
  · rcases mid.residue b with residue | ⟨rfl, attempt⟩
    · rcases residue.same_or_silent inert with same | silent
      · have old : HoldsBmt g L f.pages b := by
          simpa only [HoldsBmt, BlockBad, same] using holds
        rw [same]
        exact lists_live before.disjoint (before.mirrored b pool old).2
      · exact absurd holds silent.not_holdsBmt
    · exact absurd holds (attempt.no_image inert ask.noImage)
  · apply absurd _ (absent _ ask.pool)
    simpa only [HoldsBmt, table.blockBad, table.firstPage] using ask.stored

include before ask in
/-- What the pool tells once there is a new block: after a failed write that block carries
the number as well. -/
theorem Replaced.mem_backPointers (fits : 4 ≤ g.mtdOobsize) (ne : m ≠ 0)
    (replaced : Replaced g L r offset reason dat oob f m f₁) (e : BmtEntry) :
    e ∈ backPointers g L f₁.pages g.poolBlocks ↔
      reason = .writeFail ∧ e = ⟨offset / eraseSize, m⟩ ∨ e ∈ r.bmt.live := by
  have unused := (replaced.free ne).unused
  have fresh := ask.recorded.not_pointsBack (Set.notMem_empty m) unused.pool unused.unmapped
  rw [← ask.recorded e (Set.notMem_empty _)]
  by_cases new : e.mappedIndex = m
  · have quiet : e ∉ backPointers g L f.pages g.poolBlocks := fun told =>
      fresh (new ▸ (Bmt.mem_backPointers.mp told).2.1)
    simp only [quiet, or_false]
    by_cases write : reason = .writeFail
    · obtain ⟨-, d, o, -, ho, moved⟩ := replaced.moved write ne
      obtain ⟨dat', oob', stored, names⟩ :=
        moved.names fits before.disjoint (ask.tellable write o ho)
      obtain ⟨points, index⟩ := stored.pointsBack ask.system names
      rw [Bmt.mem_backPointers, new, index]
      simp only [unused.pool, points, write, true_and]
      constructor
      · intro eq
        rw [eq, ← new]
      · rintro rfl
        rfl
    · have still := (replaced.fresh write ne).1.not_pointsBack fresh
      rw [Bmt.mem_backPointers, new]
      simp only [still, write, false_and, and_false]
  · have other : ¬ (reason = .writeFail ∧ e = ⟨offset / eraseSize, m⟩) := fun eq =>
      new (congrArg BmtEntry.mappedIndex eq.2)
    simp only [other, false_or]
    by_cases pool : g.InPool e.mappedIndex
    swap
    · rw [Bmt.mem_backPointers, Bmt.mem_backPointers]
      simp only [pool, false_and]
    cases mapped : r.bmt.isBlockMapped e.mappedIndex with
    | true =>
        have same := replaced.change.same e.mappedIndex fun free =>
          Bool.noConfusion (mapped.symm.trans free.unused.unmapped)
        exact mem_backPointers_congr same.firstPage
    | false =>
        have none := ask.recorded.not_pointsBack (Set.notMem_empty _) pool mapped
        have still := (replaced.change.settled _ new).not_pointsBack none
        rw [Bmt.mem_backPointers, Bmt.mem_backPointers]
        exact iff_of_false (fun told => still told.2.1) fun told => none told.2.1

include before ask in
/-- The entries after the update: those from before and the new one. -/
theorem mem_live_updated (e : BmtEntry) :
    e ∈ (r.bmt.remap g (offset / eraseSize) m).live ↔
      e = ⟨offset / eraseSize, m⟩ ∨ e ∈ r.bmt.live := by
  rw [mem_live_remap before.disjoint ask.room ask.stands]
  apply or_congr_right
  apply and_iff_left_of_imp
  intro he eq
  have pool := (live_pool before.disjoint he).1
  exact absurd ask.system (not_lt.mpr (eq ▸ pool))

/-- A block that has moved stays so while the table is written. -/
theorem Replaced.arrived (ne : m ≠ 0)
    (replaced : Replaced g L r offset reason dat oob f m f₁)
    (same : SameBlock f₁.pages pages' m) :
    Arrived g L r offset reason dat oob f.pages pages' m := by
  refine ⟨(replaced.free ne).unused, fun write => ?_⟩
  obtain ⟨-, d, o, hd, ho, moved⟩ := replaced.moved write ne
  exact ⟨d, o, hd, ho, moved.of_sameBlock same⟩

include before ask in
/-- While the table is written the blocks that carry data are left alone. -/
theorem Replaced.same_while_writing (ne : m ≠ 0)
    (replaced : Replaced g L r offset reason dat oob f m f₁) {image : Bytes}
    (mid : BmtMid g L quiet (r.remapped g (offset / eraseSize) m) image f₁.pages pages') {b : ℕ}
    (used : Updatable g r b) : SameBlock f.pages pages' b := by
  apply (replaced.change.same b (updatable_not_free used)).trans
  apply mid.same
  intro free
  by_cases here : b = offset / eraseSize
  · exact ask.not_unused (here ▸ free.unused)
  · exact updatable_remapped before.disjoint ask.room (replaced.free ne).unused (.inl ask.system)
      used here free.unused

include inert before ask in
/-- While the table is written there is the old image or the new one, or the pool tells the
table. -/
theorem cut_writing (fits : 4 ≤ g.mtdOobsize) (ne : m ≠ 0)
    (replaced : Replaced g L r offset reason dat oob f m f₁)
    (h : TableMid g L quiet (r.remapped g (offset / eraseSize) m)
      (remapImage g r (offset / eraseSize) m) f₁.pages pages') :
    AfterCut g L r offset reason dat oob f.pages pages' := by
  have free := replaced.free ne
  have updatable : Updatable g r (offset / eraseSize) := .inl ask.system
  have disjoint := remap_disjointBmt before.disjoint ask.room free.unused updatable
  have counted : (r.remapped g (offset / eraseSize) m).bmt.mappedCount < 256 :=
    remap_counted before.counted m
  have live := fun e => mem_live_updated (m := m) before ask e
  have same := fun b used => replaced.same_while_writing before ask ne h.mid (b := b) used
  have fate : ∀ b, firstPage pages' b = firstPage f₁.pages b ∨
      Silent g L (firstPage pages' b) ∨
      firstPage pages' b = imagePage L (remapImage g r (offset / eraseSize) m) := by
    intro b
    rcases h.mid.residue b with residue | attempt
    · exact (residue.same_or_silent inert).imp_right .inl
    · exact .inr (attempt.image_or_silent inert).symm
  have newImage : ∀ b,
      firstPage pages' b = imagePage L (remapImage g r (offset / eraseSize) m) →
      HoldsBmt g L pages' b ∧ imageLive (firstPage pages' b).data =
        (r.bmt.remap g (offset / eraseSize) m).live :=
    fun b page => holdsBmt_of_image disjoint counted page
  have oldImage : ∀ b, g.InPool b → firstPage pages' b = firstPage f₁.pages b →
      HoldsBmt g L pages' b → b = r.bmtBlockIndex ∧
        imageLive (firstPage pages' b).data = r.bmt.live := by
    intro b pool eq holds
    have holds₁ : HoldsBmt g L f₁.pages b := by
      simpa only [HoldsBmt, BlockBad, eq] using holds
    obtain ⟨holds₀, first⟩ := replaced.holdsBmt (fun _ => ask.noImage) pool holds₁
    rw [eq, first]
    exact before.mirrored b pool holds₀
  -- the blocks of the new table are left alone
  have kept : ∀ e, e = ⟨offset / eraseSize, m⟩ ∨ e ∈ r.bmt.live →
      SameBlock f₁.pages pages' e.mappedIndex := by
    intro e he
    apply h.mid.same
    intro free'
    have mapped := (BmtStruct.isBlockMapped_iff _).mpr ⟨e, (live e).mpr he, rfl⟩
    exact Bool.noConfusion (mapped.symm.trans free'.unused.unmapped)
  have arrived := replaced.arrived ne (kept ⟨offset / eraseSize, m⟩ (.inl rfl))
  by_cases new : ∃ b, g.InPool b ∧
      firstPage pages' b = imagePage L (remapImage g r (offset / eraseSize) m)
  · -- the old image is gone
    obtain ⟨b₀, pool₀, page₀⟩ := new
    have only : ∀ b, g.InPool b → HoldsBmt g L pages' b →
        firstPage pages' b = imagePage L (remapImage g r (offset / eraseSize) m) := by
      intro b pool holds
      rcases fate b with eq | silent | page
      · obtain ⟨rfl, -⟩ := oldImage b pool eq holds
        rcases h.single with bad | others
        · exact absurd bad holds.1
        · by_cases here : b₀ = r.bmtBlockIndex
          · rwa [← here]
          · -- the new image would have been there before it was written
            have eq₀ := (others b₀ here).firstPage
            exact absurd (oldImage b₀ pool₀ eq₀ (newImage b₀ page₀).1).1 here
      · exact absurd holds silent.not_holdsBmt
      · exact page
    refine .after arrived ⟨fun b pool holds => ?_, fun absent => ?_⟩
      fun b _ used => same b used
    · exact lists_live disjoint (newImage b (only b pool holds)).2
    · exact absurd (newImage b₀ page₀).1 (absent b₀ pool₀)
  · by_cases old : ∃ b, g.InPool b ∧ HoldsBmt g L pages' b
    · -- only the old image is there
      obtain ⟨b₀, pool₀, holds₀⟩ := old
      refine .before ⟨fun b pool holds => ?_, fun absent => ?_⟩ same
      · rcases fate b with eq | silent | page
        · exact lists_live before.disjoint (oldImage b pool eq holds).2
        · exact absurd holds silent.not_holdsBmt
        · exact absurd ⟨b, pool, page⟩ new
      · exact absurd holds₀ (absent b₀ pool₀)
    · -- there is no image: the pool tells the table
      have none : ∀ b, g.InPool b → ¬ HoldsBmt g L pages' b := fun b pool holds =>
        old ⟨b, pool, holds⟩
      have told : ∀ e, e ∈ backPointers g L pages' g.poolBlocks ↔
          reason = .writeFail ∧ e = ⟨offset / eraseSize, m⟩ ∨ e ∈ r.bmt.live := by
        intro e
        rw [← replaced.mem_backPointers before ask fits ne]
        constructor
        · intro he
          obtain ⟨pool, points, -⟩ := Bmt.mem_backPointers.mp he
          rcases fate e.mappedIndex with eq | silent | page
          · exact (mem_backPointers_congr eq).mp he
          · exact absurd points silent.not_pointsBack
          · exact absurd ⟨_, pool, page⟩ new
        · intro he
          have entry := (replaced.mem_backPointers before ask fits ne e).mp he
          exact (mem_backPointers_congr (kept e (entry.imp_left And.right)).firstPage).mpr he
      by_cases write : reason = .writeFail
      · refine .after arrived ⟨fun b pool holds => absurd holds (none b pool), fun _ e => ?_⟩
          fun b _ used => same b used
        rw [told, live]
        simp only [write, true_and]
      · refine .before ⟨fun b pool holds => absurd holds (none b pool), fun _ e => ?_⟩ same
        rw [told]
        simp only [write, false_and, false_or]

include before ask in
/-- After the last call. -/
theorem cut_ending (failing : g.InPool (offset / eraseSize) → offset / eraseSize ∈ f.failed)
    (h : UpdateResult g L r offset reason dat oob f true r' f') :
    AfterCut g L r offset reason dat oob f.pages f'.pages := by
  have updatable : Updatable g r (offset / eraseSize) := .inl ask.system
  have consistent := (h.consistent before ask.room updatable failing fun _ => ask.noImage).1
  have stored := h.stored before ask.room updatable failing
  have same := fun b used other => h.same (b := b) before ask.room updatable used other
  cases h with
  | @done m r' f₁ f₂ page ne replaced tables written marked =>
      have bmt : r'.bmt = r.bmt.remap g (offset / eraseSize) m := tables.bmt
      have mapped := remap_mapped before.disjoint ask.room updatable m
      have free := replaced.free ne
      have apart : m ≠ offset / eraseSize := by
        rintro rfl
        exact ask.not_unused free.unused
      have kept : SameBlock f₁.pages (Function.update f₂.pages (offset / pageSize) page) m := by
        apply SameBlock.trans _ (sameBlock_mark apart)
        apply written.change.same
        exact fun free' => Bool.noConfusion (mapped.symm.trans free'.unused.unmapped)
      refine .after (replaced.arrived ne kept) ⟨fun b pool holds => ?_, fun absent => ?_⟩
        fun b other used => same b used other
      · rw [← bmt]
        exact lists_live consistent.disjoint (consistent.mirrored b pool holds).2
      · exact absurd stored.2.1 (absent _ stored.1)

include inert before ask in
/-- `update_bmt` for such a block: the flash between any two of its calls. -/
theorem flash_updateBmt_cut (depth : ℕ) (fits : 4 ≤ g.mtdOobsize) :
    along (FlashStep L quiet)
      (fun f' => AfterCut g L r offset reason dat oob f.pages f'.pages)
      (updateBmt g depth offset reason dat oob) (fun _ _ _ => True) r f := by
  have updatable : Updatable g r (offset / eraseSize) := .inl ask.system
  have failing : g.InPool (offset / eraseSize) → offset / eraseSize ∈ f.failed := fun pool =>
    absurd ask.system (not_lt.mpr pool.1)
  apply along_mono (fun _ _ _ _ => trivial)
  apply flash_updateBmt_of_writing depth before.disjoint ask.room before.ready before.good
    updatable failing
  · exact fun pages' h => cut_moving inert before ask h
  · intro m f₁ r₂ ne replaced bmt index bbt ready current
    have written := wp_of_along (@flash_writeBmtToFlash g L quiet (fun _ => True) r₂ f₁
      (remapImage g r (offset / eraseSize) m) depth (fun _ => ready) current fun _ _ => trivial)
    apply along_mono _ (along_and (flash_writeBmtToFlash_placed depth (fun _ => ready)
      (current (index ▸ ask.pool.pos)) fun pages' h => cut_writing inert before ask fits ne
        replaced ⟨PoolMid.congr (fun b => ?_) h.mid, ?_⟩) written)
    · exact fun _ _ _ h => h.2
    · apply unused_congr
      · exact bmt
      · rfl
      · exact bbt
    · have single := h.single
      rw [index] at single
      exact single
  · exact fun r' f' h => cut_ending before ask failing h

end Cut

/-! ## Starting again -/

section Boot

variable {g : Geometry} {env : Env} {entries : List BmtEntry}

/-- `init_bmt` returns and finds the table that the flash tells. It programs nothing but first
pages of the bad blocks of the table. -/
theorem initBmt_of_tells (small : g.bmtBlockCount ≤ 255)
    (readable : ∀ t p, env.uncorrectable t p = false) {cold : Spi}
    (none : cold.cache.pageNum = none) (told : Tells g env.layout cold.chip.pages entries)
    (r₀ : Ram) :
    ∃ r' s', exec (nandMachine env) (initBmt g) r₀ cold = some ((), r', s') ∧
      Lists r'.bmt.live entries ∧
      ∀ p ∉ firstPagesOf (entries.map (·.badIndex)), s'.chip.pages p = cold.chip.pages p := by
  obtain ⟨⟨⟩, r', s', run⟩ :=
    exists_exec_of_returns (nandMachine env) (returns_initBmt g) r₀ cold
  obtain ⟨d', after, started⟩ := doubt_exec readable (doubts_of_cold none)
    (doubt_initBmt (fun _ => (length_backPointers _).trans small)
      fun _ _ => Set.notMem_empty _) run
  have lists : Lists r'.bmt.live entries := by
    cases started.source with
    | loaded pool holds bmt _ =>
        rw [bmt, live_load]
        exact told.images _ pool holds
    | rebuilt absent _ bmt _ =>
        rw [live_of_rebuilt bmt]
        exact ⟨nodup_backPointers, told.pointers absent⟩
  refine ⟨r', s', run, lists, fun p hp => ?_⟩
  rw [after.pages]
  apply started.touched.pages
  rintro ⟨c, hc, eq⟩
  obtain ⟨e, he, key⟩ := List.mem_map.mp hc
  exact hp ⟨c, List.mem_map.mpr ⟨e, (lists.mem e).mp he, key⟩, eq⟩

/-- A lookup depends on the entries of the block only. -/
theorem getMappingBlockIndexByBmt_congr {bmt bmt' : BmtStruct} (keyed : bmt.Keyed) {b : ℕ}
    (system : b < g.systemBlockCount)
    (same : ∀ e : BmtEntry, e.badIndex = b → (e ∈ bmt'.live ↔ e ∈ bmt.live)) :
    getMappingBlockIndexByBmt g bmt' b = getMappingBlockIndexByBmt g bmt b := by
  rcases Flash.getMappingBlockIndexByBmt_cases bmt system with ⟨none, eq⟩ | ⟨e, live, found, eq⟩
  · rcases Flash.getMappingBlockIndexByBmt_cases bmt' system with ⟨-, eq'⟩ | ⟨e', live', found', -⟩
    · rw [eq, eq']
    · have key := (bmt'.lookup_some found').2
      exact absurd key (bmt.lookup_eq_none.mp none e' ((same e' key).mp live'))
  · have key := (bmt.lookup_some found).2
    rcases Flash.getMappingBlockIndexByBmt_cases bmt' system with
      ⟨none', -⟩ | ⟨e', live', found', eq'⟩
    · exact absurd key (bmt'.lookup_eq_none.mp none' e ((same e key).mpr live))
    · have key' := (bmt'.lookup_some found').2
      have one := keyed e live e' ((same e' key').mp live') (key.trans key'.symm)
      rw [eq, eq', one]

end Boot

/-- What start-up finds after the cut. The other system blocks are where they were, with the
same pages. The block that failed is where it was, with the same pages, or in a block that was
unused and has what was moved. -/
structure Survives (g : Geometry) (L : OobLayout) (r : Ram) (offset : ℕ) (reason : UpdateReason)
    (dat oob : Option Bytes) (pages pages' : ℕ → Page) (bmt : BmtStruct) : Prop where
  others : ∀ b < g.systemBlockCount, b ≠ offset / eraseSize →
    getMappingBlockIndexByBmt g bmt b = getMappingBlockIndexByBmt g r.bmt b ∧
      SameBlock pages pages' (getMappingBlockIndexByBmt g r.bmt b)
  failed : getMappingBlockIndexByBmt g bmt (offset / eraseSize) = offset / eraseSize ∧
      SameBlock pages pages' (offset / eraseSize) ∨
    ∃ m, getMappingBlockIndexByBmt g bmt (offset / eraseSize) = m ∧
      Arrived g L r offset reason dat oob pages pages' m
  once : (bmt.live.map (·.badIndex)).Nodup

section Survive

variable {g : Geometry} {L : OobLayout} {r : Ram} {f : Flash} {offset : ℕ} {reason : UpdateReason}
  {dat oob : Option Bytes} {pages' pages'' : ℕ → Page} {bmt : BmtStruct}

/-- A table that lists the entries of a keyed one names no system block twice. -/
theorem Lists.once {bmt' : BmtStruct} (lists : Lists bmt.live bmt'.live) (keyed : bmt'.Keyed) :
    (bmt.live.map (·.badIndex)).Nodup := by
  apply List.Nodup.map_on _ lists.nodup
  intro e he e' he' key
  exact keyed e ((lists.mem e).mp he) e' ((lists.mem e').mp he') key

/-- A block that is no bad block of the table is as it was. -/
theorem sameBlock_of_unmarked {entries : List BmtEntry} {b : ℕ}
    (kept : ∀ p ∉ firstPagesOf (entries.map (·.badIndex)), pages'' p = pages' p)
    (unkeyed : ∀ e ∈ entries, e.badIndex ≠ b) : SameBlock pages' pages'' b := by
  intro p hp
  apply kept
  rintro ⟨c, hc, rfl⟩
  obtain ⟨e, he, rfl⟩ := List.mem_map.mp hc
  rw [pageAddr_div_self] at hp
  exact unkeyed e he hp

variable (before : Consistent g L r f) (ask : Recoverable g L r f.pages offset reason dat oob)

include before ask in
/-- The blocks that carry the other system blocks are left alone by the update and by
start-up. -/
theorem Recoverable.others {entries : List BmtEntry} (lists : Lists bmt.live entries)
    (told : ∀ e : BmtEntry, e.badIndex ≠ offset / eraseSize → (e ∈ entries ↔ e ∈ r.bmt.live))
    (system : SystemKeys g entries)
    (same : ∀ b, b ≠ offset / eraseSize → Updatable g r b → SameBlock f.pages pages' b)
    (kept : ∀ p ∉ firstPagesOf (entries.map (·.badIndex)), pages'' p = pages' p) {b : ℕ}
    (inside : b < g.systemBlockCount) (other : b ≠ offset / eraseSize) :
    getMappingBlockIndexByBmt g bmt b = getMappingBlockIndexByBmt g r.bmt b ∧
      SameBlock f.pages pages'' (getMappingBlockIndexByBmt g r.bmt b) := by
  refine ⟨getMappingBlockIndexByBmt_congr ask.keyed inside fun e key => ?_, ?_⟩
  · rw [lists.mem, told e (key ▸ other)]
  · rcases Flash.getMappingBlockIndexByBmt_cases r.bmt inside with ⟨none, eq⟩ | ⟨e, live, -, eq⟩
    · rw [eq]
      apply (same b other (.inl inside)).trans (sameBlock_of_unmarked kept _)
      intro e he key
      have old := (told e (key ▸ other)).mp he
      exact r.bmt.lookup_eq_none.mp none e old key
    · have pool := live_pool before.disjoint live
      have mapped := r.bmt.isBlockMapped_iff.mpr ⟨e, live, rfl⟩
      have apart : e.mappedIndex ≠ offset / eraseSize := fun eq =>
        absurd ask.system (not_lt.mpr (eq ▸ pool.1))
      rw [eq]
      apply (same _ apart (.inr ⟨pool, mapped⟩)).trans (sameBlock_of_unmarked kept _)
      exact fun e' he' key => absurd (key ▸ system e' he') (not_lt.mpr pool.1)

include before in
theorem Consistent.systemKeys : SystemKeys g r.bmt.live := by
  intro e he
  obtain ⟨i, hi, rfl⟩ := r.bmt.mem_live.mp he
  exact before.disjoint.bad_lt i hi

include before ask in
/-- Start-up on the flash of a cut. -/
theorem AfterCut.survives (small : g.bmtBlockCount ≤ 255) {env : Env} (layout : env.layout = L)
    (readable : ∀ t p, env.uncorrectable t p = false) {cold : Spi}
    (cut : AfterCut g L r offset reason dat oob f.pages cold.chip.pages)
    (none : cold.cache.pageNum = none) (r₀ : Ram) :
    ∃ r' s', exec (nandMachine env) (initBmt g) r₀ cold = some ((), r', s') ∧
      Survives g L r offset reason dat oob f.pages s'.chip.pages r'.bmt := by
  subst layout
  cases cut with
  | before told same =>
      obtain ⟨r', s', run, lists, kept⟩ := initBmt_of_tells small readable none told r₀
      refine ⟨r', s', run, fun b inside other => ?_, .inl ⟨?_, ?_⟩, lists.once ask.keyed⟩
      · exact ask.others before lists (fun _ _ => Iff.rfl) before.systemKeys
          (fun b _ used => same b used) kept inside other
      · rw [getMappingBlockIndexByBmt_congr ask.keyed ask.system fun e _ => lists.mem e]
        rcases Flash.getMappingBlockIndexByBmt_cases r.bmt ask.system with
          ⟨-, eq⟩ | ⟨e, live, found, -⟩
        · exact eq
        · exact absurd (r.bmt.lookup_some found).2 (ask.unkeyed e live)
      · exact (same _ (.inl ask.system)).trans (sameBlock_of_unmarked kept ask.unkeyed)
  | @after m arrived told same =>
      obtain ⟨r', s', run, lists, kept⟩ := initBmt_of_tells small readable none told r₀
      have live := fun e => mem_live_updated (m := m) before ask e
      have system : SystemKeys g (r.bmt.remap g (offset / eraseSize) m).live := by
        intro e he
        rcases (live e).mp he with rfl | old
        · exact ask.system
        · exact before.systemKeys e old
      have keyed := ask.keyed.remap before.disjoint ask.room ask.stands m
      have pool := arrived.unused.pool
      have stays : SameBlock cold.chip.pages s'.chip.pages m := by
        apply sameBlock_of_unmarked kept
        exact fun e he key => absurd (key ▸ system e he) (not_lt.mpr pool.1)
      refine ⟨r', s', run, fun b inside other => ?_, .inr ⟨m, ?_, arrived.unused, fun write => ?_⟩,
        lists.once keyed⟩
      · apply ask.others before lists _ system same kept inside other
        intro e key
        rw [live, or_iff_right]
        rintro rfl
        exact key rfl
      · rw [getMappingBlockIndexByBmt_congr keyed ask.system fun e _ => lists.mem e]
        rcases Flash.getMappingBlockIndexByBmt_cases (r.bmt.remap g (offset / eraseSize) m)
            ask.system with ⟨none, -⟩ | ⟨e, he, found, eq⟩
        · have missing := (BmtStruct.lookup_eq_none _).mp none
          exact absurd rfl (missing ⟨offset / eraseSize, m⟩ ((live _).mpr (.inl rfl)))
        · have key := (BmtStruct.lookup_some _ found).2
          rcases (live e).mp he with rfl | old
          · exact eq
          · exact absurd key (ask.unkeyed e old)
      · obtain ⟨d, o, hd, ho, moved⟩ := arrived.moved write
        exact ⟨d, o, hd, ho, moved.of_sameBlock stays⟩

end Survive

/-- On an erased chip the first page of block 1 has failed. -/
def firstMoved : Option (Bool × Ram × Watch) :=
  checkedRun faultless (fun _ => false)
    (updateBmt eightBlocks 5 (blockOffset 1) .writeFail (some allOnes) (some allOnes)) started.2.1
    ⟨started.2.2, some (192, .broken), [1]⟩

/-- Then the erasure of block 2 fails. -/
def secondUpdate : Drv Bool := updateBmt eightBlocks 5 (blockOffset 2) .eraseFail none none

/-- The pool of the erased chip tells the empty table. -/
theorem startedDevice_recorded (out : Set ℕ) :
    Recorded eightBlocks faultless.layout startedDevice.ram startedDevice.spi.chip.pages out := by
  have chip : startedDevice.spi.chip = blankSpi.chip := rfl
  have empty : startedDevice.ram.bmt.live = [] := rfl
  intro e _
  rw [chip, empty]
  refine iff_of_false (fun told => ?_) List.not_mem_nil
  have blank : (firstPage blankSpi.chip.pages e.mappedIndex).oob = allOnes := rfl
  exact not_pointsBack_of_blank blank (mem_backPointers.mp told).2.1

/-- After the first update the second one may be cut. -/
theorem firstMoved_recoverable : ∃ r w, r.bmt.live = [⟨1, 4⟩] ∧
    Life eightBlocks faultless anything (watchedDevice r w) ∧
    Recoverable eightBlocks faultless.layout r w.spi.chip.pages (blockOffset 2) .eraseFail
      none none ∧
    Keeps (checkMachine faultless) (fun op w => passes faultless (fun _ => false) op w = true)
      secondUpdate r ⟨w.spi, w.held, 2 :: w.failed⟩ ∧ w.held.Describes faultless w.spi := by
  have told : firstMoved.map (fun out => (out.1, out.2.1.bmt.live, out.2.1.bmt.mappedCount,
      decide (Keeps (checkMachine faultless)
        (fun op w => passes faultless (fun _ => false) op w = true) secondUpdate out.2.1
        ⟨out.2.2.spi, out.2.2.held, 2 :: out.2.2.failed⟩))) =
      some (true, [⟨1, 4⟩], 1, true) := by decide +kernel
  obtain ⟨⟨done, r, w⟩, run, same⟩ := Option.map_eq_some_iff.mp told
  simp only [Prod.mk.injEq, decide_eq_true_eq] at same
  obtain ⟨rfl, live, count, keeps⟩ := same
  have held : Held.Describes faultless (some (192, .broken)) started.2.2 := rfl
  obtain ⟨careful, describes⟩ := @carefulRun_of_checked _ faultless anything (fun _ _ => rfl) _
    (fun _ _ _ _ => trivial) _ _ _ _ _ _ held run
  rw [← startedDevice_failing] at careful
  have ones : ∀ offset : ℕ, offset / pageSize % pagePerBlock = 0 → ∀ pages,
      ¬ IsBmtImage eightBlocks (firstData pages offset (some allOnes)) := by
    intro offset first pages image
    rw [firstData, if_pos first] at image
    exact absurd image.1.1 (by decide)
  have update : UpdateRun eightBlocks faultless anything startedDevice 5 (blockOffset 1)
      .writeFail (some allOnes) (some allOnes) true (watchedDevice r w) :=
    ⟨.inl (by decide), fun _ => by decide, fun _ => ones _ (by decide) _, careful⟩
  have started := startedDevice_life anything
  have before := started.consistent fun _ _ => rfl
  obtain ⟨pool, stored⟩ := (update.consistent (fun _ _ => rfl) before).2 rfl
  have unkeyed : ∀ e ∈ startedDevice.ram.bmt.live, e.badIndex ≠ 1 := by
    intro e he
    exact absurd he List.not_mem_nil
  have tellable : Tellable eightBlocks faultless.layout startedDevice.ram
      (startedDevice.failing 1).flash.pages (blockOffset 1) 1 allOnes :=
    ⟨.itself (by decide) unkeyed, .inl (by decide),
      fun _ => ⟨rfl, rfl, fun pool => absurd pool.1 (by decide)⟩,
      fun other => absurd rfl other⟩
  have keyed : startedDevice.ram.bmt.Keyed := fun e he => absurd he List.not_mem_nil
  obtain ⟨recorded, keyed'⟩ := (update.result (fun _ _ => rfl) before).recorded (by decide)
    (before.failing 1) (fun _ => by decide) tellable (startedDevice_recorded _) keyed
  refine ⟨r, w, live, .step started (.update update), ⟨by decide, ?_, fun _ => ?_, keyed', pool,
    stored, recorded, ?_, by simp⟩, keeps, describes⟩
  · rw [live]
    decide
  · rw [count]
    decide
  · intro image
    rw [firstData, if_pos (by decide)] at image
    exact absurd image.1.1 (by decide)

end En7512.Bmt
