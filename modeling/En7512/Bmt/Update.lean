/-
# Updating the table on the flash

`write_bmt_to_flash` erases the block of the table, or takes a new one, and
programs the image; a block that fails is marked and given up for another one.
`update_bmt` puts a new block in the place of a failed one and does this before
it marks the failed block. The results are over `FlashStep`: what the flash
holds when the function returns, and what it may hold in between.
-/

import En7512.Bmt.Migration

namespace En7512.Bmt

open En7512.Logic En7512.Nand En7512.Logic.Routine

/-- The page that holds an image: the spare area stays erased. -/
def imagePage (L : OobLayout) (dat : Bytes) : Page :=
  programmed L .erased 0 dat pageSize allOnes oobBufferSize

/-- The variables, as if the table had no block. The block of the table is as good
as any free one for writing the table to. -/
def Ram.withoutBmt (r : Ram) : Ram := { r with bmtBlockIndex := 0 }

/-- The first page of a block once it has been programmed with the image, or the
program has failed. -/
def ImageAttempt (L : OobLayout) (leftover : Leftover) (dat : Bytes) (block : ℕ) (new : Page) :
    Prop :=
  new = imagePage L dat ∨
    leftover (.writePage (pageAddr block) 0 dat pageSize allOnes oobBufferSize) .erased new

/-- The flash while the table is being written. -/
def BmtMid (g : Geometry) (L : OobLayout) (leftover : Leftover) (r : Ram) (dat : Bytes)
    (pages pages' : ℕ → Page) : Prop :=
  PoolMid g L leftover r.withoutBmt pages pages' (ImageAttempt L leftover dat)

/-- The flash after it. -/
structure BmtWritten (g : Geometry) (L : OobLayout) (r : Ram) (dat : Bytes) (f : Flash)
    (done : Bool) (r' : Ram) (f' : Flash) : Prop where
  change : PoolChange g L r.withoutBmt f f' {r'.bmtBlockIndex}
  ready : r'.poolErased = true → Ready g L r' f'
  image : done = true → r'.bmtBlockIndex ≠ 0 ∧ r'.bmtBlockIndex ∉ f'.failed ∧
    firstPage f'.pages r'.bmtBlockIndex = imagePage L dat
  gone : done = false → r'.bmtBlockIndex = 0
  /-- A block that has been given up is marked. -/
  given_up : r.bmtBlockIndex ≠ 0 → r'.bmtBlockIndex ≠ r.bmtBlockIndex →
    BlockBad L f'.pages r.bmtBlockIndex

/-- The flash when there is a block to write to, or none. -/
inductive Prepared (g : Geometry) (L : OobLayout) (leftover : Leftover) (r : Ram) (f : Flash) :
    BmtBlock → Ram → Flash → Prop
  | unavailable {r' : Ram} {f' : Flash} (none : r.bmtBlockIndex = 0)
      (index : r'.bmtBlockIndex = 0) (change : PoolChange g L r.withoutBmt f f' ∅)
      (ready : Ready g L r' f') : Prepared g L leftover r f .unavailable r' f'
  | ready {r' : Ram} {f' : Flash} (ne : r'.bmtBlockIndex ≠ 0)
      (free : Free g L r.withoutBmt f'.pages r'.bmtBlockIndex)
      (blank : r'.bmtBlockIndex ∉ f'.failed → Blank f'.pages r'.bmtBlockIndex)
      (change : PoolChange g L r.withoutBmt f f' ∅)
      (ready : r'.poolErased = true → Ready g L r' f')
      (stays : r.bmtBlockIndex ≠ 0 → r'.bmtBlockIndex = r.bmtBlockIndex) :
      Prepared g L leftover r f .ready r' f'
  | eraseFailed {f' : Flash} (ne : r.bmtBlockIndex ≠ 0)
      (free : Free g L r.withoutBmt f.pages r.bmtBlockIndex)
      (others : ∀ p, p / pagePerBlock ≠ r.bmtBlockIndex → f'.pages p = f.pages p)
      (failed : f'.failed = insert r.bmtBlockIndex f.failed) :
      Prepared g L leftover r f .eraseFailed r f'

section Write

variable {g : Geometry} {L : OobLayout} {leftover : Leftover} {kept : (ℕ → Page) → Prop}
  {r r' : Ram} {f f' : Flash} {dat : Bytes}

theorem unused_congr (bmt : r'.bmt = r.bmt) (index : r'.bmtBlockIndex = r.bmtBlockIndex)
    (bbt : r'.bbtBlockIndex = r.bbtBlockIndex) (b : ℕ) : Unused g r' b ↔ Unused g r b := by
  constructor
  · exact fun h => ⟨h.pool, index ▸ h.ne_bmt, bbt ▸ h.ne_bbt, bmt ▸ h.unmapped⟩
  · exact fun h => ⟨h.pool, index.symm ▸ h.ne_bmt, bbt.symm ▸ h.ne_bbt, bmt.symm ▸ h.unmapped⟩

theorem unused_withoutBmt {b : ℕ} :
    Unused g r b ↔ Unused g r.withoutBmt b ∧ b ≠ r.bmtBlockIndex :=
  ⟨fun h => ⟨⟨h.pool, h.pool.pos, h.ne_bbt, h.unmapped⟩, h.ne_bmt⟩,
    fun h => ⟨h.1.pool, h.2, h.1.ne_bbt, h.1.unmapped⟩⟩

theorem unused_of_index_zero (zero : r.bmtBlockIndex = 0) (b : ℕ) :
    Unused g r b ↔ Unused g r.withoutBmt b := by
  rw [unused_withoutBmt, zero]
  exact and_iff_left_of_imp fun h => h.pool.pos

theorem BmtMoved.unused_iff (moved : BmtMoved g r r') (b : ℕ) :
    Unused g r'.withoutBmt b ↔ Unused g r.withoutBmt b := by
  apply unused_congr
  · exact moved.bmt
  · rfl
  · exact moved.bbtBlockIndex

/-- The flash once the image is on a free block. -/
structure ImageWritten (g : Geometry) (L : OobLayout) (r : Ram) (dat : Bytes) (block : ℕ)
    (f f' : Flash) : Prop where
  change : PoolChange g L r f f' {block}
  others : ∀ b ≠ block, SameBlock f.pages f'.pages b
  failed : f'.failed = f.failed
  spared : block ∉ f.failed
  page : firstPage f'.pages block = imagePage L dat

/-- Programming the image on a free block. -/
theorem flash_writeImage {block : ℕ} {r₀ : Ram} {post : Bool → Ram → Flash → Prop}
    (free : Free g L r₀ f.pages block) (blank : block ∉ f.failed → Blank f.pages block)
    (mid : ∀ pages', PoolMid g L leftover r₀ f.pages pages' (ImageAttempt L leftover dat) →
      kept pages')
    (done : ∀ f', ImageWritten g L r₀ dat block f f' → post true r f')
    (fail : ∀ f', (∀ p, p / pagePerBlock ≠ block → f'.pages p = f.pages p) →
      f'.failed = insert block f.failed → post false r f') :
    along (FlashStep L leftover) (fun f' => kept f'.pages)
      (nandWritePageBmt (pageAddr block) dat allOnes) post r f := by
  have others : ∀ new, ∀ p, p / pagePerBlock ≠ block →
      Function.update f.pages (pageAddr block) new p = f.pages p := by
    intro new p hp
    apply Function.update_of_ne
    rintro rfl
    exact hp (pageAddr_div_self block)
  have otherBlocks : ∀ new, ∀ b ≠ block,
      SameBlock f.pages (Function.update f.pages (pageAddr block) new) b :=
    fun new b hb p hp => others new p fun eq => hb (hp.symm.trans eq)
  have writing : ∀ new, ImageAttempt L leftover dat block new →
      kept (Function.update f.pages (pageAddr block) new) := by
    intro new attempt
    refine mid _ ⟨fun b hb => otherBlocks new b fun eq => hb (eq ▸ free), fun b => ?_⟩
    by_cases hb : b = block
    · subst hb
      right
      simpa only [firstPage, Function.update_self] using attempt
    · exact .inl (.same (otherBlocks new b hb).firstPage)
  have page : block ∉ f.failed → f.pages (pageAddr block) = .erased :=
    fun spared => (blank spared).firstPage
  apply flash_writePage
  · intro spared
    rw [pageAddr_div_self] at spared
    rw [page spared]
    refine ⟨writing _ (.inl rfl), done _ ⟨⟨fun b hb => ?_, fun b hb => ?_, subset_rfl,
      fun _ h h' => absurd h h'⟩, otherBlocks _, rfl, spared, Function.update_self ..⟩⟩
    · exact otherBlocks _ b fun eq => hb (eq ▸ free)
    · exact .inl (otherBlocks _ b hb)
  · intro spared left leaves
    rw [pageAddr_div_self] at spared ⊢
    rw [page spared] at leaves
    exact ⟨writing _ (.inr leaves), fail _ (others left) rfl⟩

theorem flash_prepareBmtBlock (ready : r.poolErased = true → Ready g L r f)
    (current : r.bmtBlockIndex ≠ 0 → Free g L r.withoutBmt f.pages r.bmtBlockIndex)
    (mid : ∀ pages', PoolMid g L leftover r.withoutBmt f.pages pages' idle → kept pages') :
    along (FlashStep L leftover) (fun f' => kept f'.pages) (prepareBmtBlock g)
      (Prepared g L leftover r f) r f := by
  rw [prepareBmtBlock]
  apply along_bind
  rw [along_get]
  by_cases zero : r.bmtBlockIndex = 0
  · have same := unused_of_index_zero (g := g) zero
    rw [if_pos zero]
    apply along_bind
    refine along_mono (fun block r₁ f₁ h => ?_)
      (flash_findAvailableBlock true ready fun pages' h => mid _ (h.congr same))
    obtain ⟨rfl, change, ready₁, found⟩ := h
    replace change := change.congr same
    apply along_bind
    rw [along_modify]
    by_cases none : block = 0
    · subst none
      rw [if_pos rfl]
      exact .unavailable zero rfl change
        (ready₁.congr fun b => (same b).trans (by apply unused_congr <;> rfl))
    · rw [if_neg none]
      have free := found none
      refine .ready none ⟨?_, free.good⟩ (fun out => ready₁ block free out)
        change (fun _ b hb out => ready₁ b ⟨(same b).mpr ?_, hb.good⟩ out) fun ne => absurd zero ne
      · have unused := (same block).mp free.unused
        exact ⟨unused.pool, unused.ne_bmt, unused.ne_bbt, unused.unmapped⟩
      · have unused := (unused_withoutBmt.mp hb.unused).1
        exact ⟨unused.pool, unused.ne_bmt, unused.ne_bbt, unused.unmapped⟩
  · have free := current zero
    rw [if_neg zero]
    apply along_bind
    rw [nandEraseBmt, blockOffset_div_erase, along_perform]
    rintro erased f₁ (⟨rfl, rfl⟩ | ⟨rfl, left, leaves, rfl⟩)
    · have change := poolChange_erased free
      refine ⟨mid _ change.mid, ?_⟩
      rw [if_pos rfl]
      refine .ready zero ⟨free.unused, ?_⟩ (fun _ p hp => if_pos hp) change (fun h b hb out => ?_)
        fun _ => rfl
      · exact Blank.good fun p hp => if_pos hp
      · have other := (unused_withoutBmt.mp hb.unused).2
        have same : SameBlock f.pages
            (fun p => if p / pagePerBlock = r.bmtBlockIndex then .erased else f.pages p) b :=
          fun p hp => if_neg fun eq => other (hp.symm.trans eq)
        exact same.blank (ready h b (hb.of_same same) out)
    · refine ⟨mid _ (poolMid_scrap free leaves), ?_⟩
      rw [if_neg (by simp)]
      exact .eraseFailed zero free (fun p hp => if_neg hp) rfl

/-- Giving up the block of the table. -/
theorem flash_retireBmtBlock {post : Unit → Ram → Flash → Prop}
    (h : ∀ (page : Page) (kind : BadKind), page.Marked L kind →
      kept (Function.update f.pages (pageAddr r.bmtBlockIndex) page) ∧
        post () r.withoutBmt ⟨Function.update f.pages (pageAddr r.bmtBlockIndex) page,
          f.failed \ {r.bmtBlockIndex}⟩) :
    along (FlashStep L leftover) (fun f' => kept f'.pages) retireBmtBlock post r f := by
  rw [retireBmtBlock]
  apply along_bind
  rw [along_get]
  apply along_bind
  exact flash_markBlock fun page marked => h page _ marked

/-- `write_bmt_to_flash`, with a blank spare area. -/
theorem flash_writeBmtToFlash (depth : ℕ) (ready : r.poolErased = true → Ready g L r f)
    (current : r.bmtBlockIndex ≠ 0 → Free g L r.withoutBmt f.pages r.bmtBlockIndex)
    (mid : ∀ pages', BmtMid g L leftover r dat f.pages pages' → kept pages') :
    along (FlashStep L leftover) (fun f' => kept f'.pages) (writeBmtToFlash g dat allOnes depth)
      (BmtWritten g L r dat f) r f := by
  induction depth generalizing r f with
  | zero => exact trivial
  | succ depth ih =>
      have scraps : ∀ pages', PoolMid g L leftover r.withoutBmt f.pages pages' idle → kept pages' :=
        fun pages' h => mid _ (h.mono fun _ _ => False.elim)
      -- a block has failed: it is marked, and the search starts again
      have again : ∀ {r₁ : Ram} {f₁ f₂ : Flash}, BmtMoved g r r₁ → r₁.bmtBlockIndex ≠ 0 →
          PoolChange g L r.withoutBmt f f₁ ∅ →
          Free g L r.withoutBmt f₁.pages r₁.bmtBlockIndex →
          (r₁.poolErased = true → Ready g L r₁ f₁) →
          (r.bmtBlockIndex ≠ 0 → r₁.bmtBlockIndex = r.bmtBlockIndex) →
          (∀ p, p / pagePerBlock ≠ r₁.bmtBlockIndex → f₂.pages p = f₁.pages p) →
          f₂.failed = insert r₁.bmtBlockIndex f₁.failed →
          along (FlashStep L leftover) (fun f' => kept f'.pages)
            (retireBmtBlock >>= fun _ => writeBmtToFlash g dat allOnes depth)
            (BmtWritten g L r dat f) r₁ f₂ := by
        intro r₁ f₁ f₂ moved ne change free ready₁ stays others failed
        apply along_bind
        refine flash_retireBmtBlock fun page kind marked => ?_
        rw [failed]
        have change₂ := poolChange_marked free others marked
        have all := change.trans change₂
        have bad : BlockBad L (Function.update f₂.pages (pageAddr r₁.bmtBlockIndex) page)
            r₁.bmtBlockIndex := blockBad_update marked
        have same : ∀ b, Unused g r₁.withoutBmt.withoutBmt b ↔ Unused g r.withoutBmt b :=
          moved.unused_iff
        refine ⟨scraps _ all.mid, ?_⟩
        refine along_mono (fun done r' f' h => ?_) (ih (fun erased b hb out => ?_)
          (fun h => absurd rfl h) fun pages' h => mid _ (all.trans_mid (h.congr same)))
        · have later := h.change.congr same
          refine ⟨all.trans later, h.ready, h.image, h.gone, fun ne' _ => ?_⟩
          rw [← stays ne']
          exact (later.same _ fun free => free.good bad).blockBad.mpr bad
        · -- free blocks other than the one given up are as they were
          have other : b ≠ r₁.bmtBlockIndex := by
            rintro rfl
            exact hb.good bad
          have unused := (same b).mp hb.unused
          rcases change₂.settled b (Set.notMem_empty b) with same₂ | blank | bad₂
          · have free₁ : Free g L r₁ f₁.pages b :=
              ⟨unused_withoutBmt.mpr ⟨(moved.unused_iff b).mpr unused, other⟩,
                fun h => hb.good (same₂.blockBad.mpr h)⟩
            refine same₂.blank (ready₁ erased b free₁ fun mem => ?_)
            exact out ⟨.inr mem, other⟩
          · exact blank
          · exact absurd bad₂ hb.good
      rw [writeBmtToFlash]
      apply along_bind
      refine along_mono (fun state r₁ f₁ h => ?_) (along_and_ensures
        (flash_prepareBmtBlock ready current scraps) (prepareBmtBlock_ensures g))
      obtain ⟨prepared, moved⟩ := h
      cases prepared with
      | unavailable none index change ready₁ =>
          refine ⟨?_, fun _ => ready₁, by simp, fun _ => index, fun ne => absurd none ne⟩
          exact ⟨change.same, fun b _ => change.settled b (Set.notMem_empty b), change.failed_sub,
            change.failed_left⟩
      | eraseFailed ne free others failed =>
          exact again moved ne (.refl f) free ready (fun _ => rfl) others failed
      | ready ne free blank change ready₁ stays =>
          simp only
          apply along_bind
          rw [along_get]
          apply along_bind
          apply flash_writeImage free blank fun pages' h => mid _ (change.trans_mid h)
          · intro f₂ written
            rw [if_pos rfl]
            refine ⟨change.trans written.change, fun erased b hb out => ?_,
              fun _ => ⟨ne, written.failed ▸ written.spared, written.page⟩, by simp,
              fun ne' other => absurd (stays ne') other⟩
            have same := written.others b hb.unused.ne_bmt
            exact same.blank (ready₁ erased b (hb.of_same same) (written.failed ▸ out))
          · intro f₂ others failed
            rw [if_neg (by simp)]
            exact again moved ne change free ready₁ stays others failed

/-- The flash while the table is being written from a block that it has. The image is not
put on another block before that one is marked. -/
structure TableMid (g : Geometry) (L : OobLayout) (leftover : Leftover) (r : Ram) (dat : Bytes)
    (pages pages' : ℕ → Page) : Prop where
  mid : BmtMid g L leftover r dat pages pages'
  single : BlockBad L pages' r.bmtBlockIndex ∨
    ∀ b ≠ r.bmtBlockIndex, SameBlock pages pages' b

/-- Work on the block of the table alone. -/
theorem tableMid_of_others {pages pages' : ℕ → Page}
    (free : Free g L r.withoutBmt pages r.bmtBlockIndex)
    (others : ∀ p, p / pagePerBlock ≠ r.bmtBlockIndex → pages' p = pages p)
    (first : Residue L leftover r.bmtBlockIndex (firstPage pages r.bmtBlockIndex)
        (firstPage pages' r.bmtBlockIndex) ∨
      ImageAttempt L leftover dat r.bmtBlockIndex (firstPage pages' r.bmtBlockIndex)) :
    TableMid g L leftover r dat pages pages' := by
  have same : ∀ b ≠ r.bmtBlockIndex, SameBlock pages pages' b :=
    fun b hb p hp => others p fun eq => hb (hp.symm.trans eq)
  refine ⟨⟨fun b hb => same b fun eq => hb (eq ▸ free), fun b => ?_⟩, .inr same⟩
  by_cases hb : b = r.bmtBlockIndex
  · subst hb
    exact first
  · exact .inl (.same (same b hb).firstPage)

/-- `write_bmt_to_flash` from a block that the table has: what the flash may be in
between. -/
theorem flash_writeBmtToFlash_placed (depth : ℕ) (ready : r.poolErased = true → Ready g L r f)
    (free : Free g L r.withoutBmt f.pages r.bmtBlockIndex)
    (mid : ∀ pages', TableMid g L leftover r dat f.pages pages' → kept pages') :
    along (FlashStep L leftover) (fun f' => kept f'.pages) (writeBmtToFlash g dat allOnes depth)
      (fun _ _ _ => True) r f := by
  cases depth with
  | zero => exact trivial
  | succ depth =>
      have ne : r.bmtBlockIndex ≠ 0 := free.unused.pool.pos
      -- the block has failed: it is marked, and from here on the table has no block
      have again : ∀ f₁ : Flash, (∀ p, p / pagePerBlock ≠ r.bmtBlockIndex →
          f₁.pages p = f.pages p) → f₁.failed = insert r.bmtBlockIndex f.failed →
          along (FlashStep L leftover) (fun f' => kept f'.pages)
            (retireBmtBlock >>= fun _ => writeBmtToFlash g dat allOnes depth)
            (fun _ _ _ => True) r f₁ := by
        intro f₁ others failed
        apply along_bind
        refine flash_retireBmtBlock fun page kind marked => ?_
        rw [failed]
        have change := poolChange_marked free others marked
        have bad : BlockBad L (Function.update f₁.pages (pageAddr r.bmtBlockIndex) page)
            r.bmtBlockIndex := blockBad_update marked
        refine ⟨mid _ ⟨change.mid, .inl bad⟩, along_mono (fun _ _ _ _ => trivial)
          (flash_writeBmtToFlash depth (fun erased b hb out => ?_) (fun ne' => absurd rfl ne')
            fun pages' later => mid _ ⟨change.trans_mid later, .inl ?_⟩)⟩
        · have other : b ≠ r.bmtBlockIndex := by
            rintro rfl
            exact hb.good bad
          have same : SameBlock f.pages
              (Function.update f₁.pages (pageAddr r.bmtBlockIndex) page) b := by
            intro p hp
            have apart : p / pagePerBlock ≠ r.bmtBlockIndex := fun eq => other (hp.symm.trans eq)
            have away : p ≠ pageAddr r.bmtBlockIndex :=
              fun eq => apart (eq ▸ pageAddr_div_self r.bmtBlockIndex)
            rw [Function.update_of_ne away, others p apart]
          have unused : Unused g r b := unused_withoutBmt.mpr ⟨hb.unused, other⟩
          refine same.blank (ready erased b ⟨unused, fun h => hb.good (same.blockBad.mpr h)⟩ ?_)
          exact fun mem => out ⟨.inr mem, other⟩
        · have same := later.same r.bmtBlockIndex fun free' => free'.good bad
          exact same.blockBad.mpr bad
      -- the block has been erased
      have program : ∀ f₁ : Flash, (∀ p, p / pagePerBlock ≠ r.bmtBlockIndex →
          f₁.pages p = f.pages p) → f₁.pages (pageAddr r.bmtBlockIndex) = .erased →
          f₁.failed = f.failed → along (FlashStep L leftover) (fun f' => kept f'.pages)
            (get >>= fun r => nandWritePageBmt (pageAddr r.bmtBlockIndex) dat allOnes >>=
              fun written => if written then pure true
                else retireBmtBlock >>= fun _ => writeBmtToFlash g dat allOnes depth)
            (fun _ _ _ => True) r f₁ := by
        intro f₁ others blank failed
        have others' : ∀ new : Page, ∀ p, p / pagePerBlock ≠ r.bmtBlockIndex →
            Function.update f₁.pages (pageAddr r.bmtBlockIndex) new p = f.pages p := by
          intro new p hp
          have away : p ≠ pageAddr r.bmtBlockIndex :=
            fun eq => hp (eq ▸ pageAddr_div_self r.bmtBlockIndex)
          rw [Function.update_of_ne away, others p hp]
        have writing : ∀ new, ImageAttempt L leftover dat r.bmtBlockIndex new →
            kept (Function.update f₁.pages (pageAddr r.bmtBlockIndex) new) := by
          intro new attempt
          refine mid _ (tableMid_of_others free (others' new) (.inr ?_))
          simpa only [firstPage, Function.update_self] using attempt
        apply along_bind
        rw [along_get]
        apply along_bind
        apply flash_writePage
        · intro _
          rw [if_pos rfl, blank]
          exact ⟨writing _ (.inl rfl), trivial⟩
        · intro _ left leaves
          rw [blank] at leaves
          refine ⟨writing _ (.inr leaves), ?_⟩
          rw [if_neg (by simp), pageAddr_div_self, failed]
          exact again _ (others' left) rfl
      rw [writeBmtToFlash]
      apply along_bind
      rw [prepareBmtBlock]
      apply along_bind
      rw [along_get, if_neg ne]
      apply along_bind
      rw [nandEraseBmt, blockOffset_div_erase, along_perform]
      rintro erased f₁ (⟨rfl, rfl⟩ | ⟨rfl, left, leaves, rfl⟩)
      · refine ⟨mid _ (tableMid_of_others free (fun p hp => if_neg hp) (.inl (.erased ?_))), ?_⟩
        · exact if_pos (pageAddr_div_self r.bmtBlockIndex)
        · rw [if_pos rfl, along_pure]
          exact program _ (fun p hp => if_neg hp) (if_pos (pageAddr_div_self _)) rfl
      · have scrap := poolMid_scrap free leaves
        refine ⟨mid _ (tableMid_of_others free (fun p hp => if_neg hp) ?_), ?_⟩
        · exact (scrap.residue r.bmtBlockIndex).imp_right False.elim
        · rw [if_neg (by simp)]
          exact again _ (fun p hp => if_neg hp) rfl

theorem BmtWritten.congr {done : Bool} {r₁ : Ram} (bmt : r'.bmt = r.bmt)
    (index : r'.bmtBlockIndex = r.bmtBlockIndex) (bbt : r'.bbtBlockIndex = r.bbtBlockIndex)
    (h : BmtWritten g L r' dat f done r₁ f') : BmtWritten g L r dat f done r₁ f' := by
  refine ⟨h.change.congr fun b => ?_, h.ready, h.image, h.gone, fun ne other => ?_⟩
  · apply unused_congr
    · exact bmt
    · rfl
    · exact bbt
  · rw [← index] at ne other ⊢
    exact h.given_up ne other

/-- The flash after `write_bbt_to_flash`. -/
structure BbtWritten (g : Geometry) (L : OobLayout) (r : Ram) (dat : Bytes) (f : Flash)
    (done : Bool) (r' : Ram) (f' : Flash) : Prop where
  bmt : r'.bmt = r.bmt
  initBbt : r'.initBbt = r.initBbt
  bmtBlockIndex : r'.bmtBlockIndex = r.bmtBlockIndex
  change : PoolChange g L r f f' {r'.bbtBlockIndex}
  ready : Ready g L r' f'
  image : done = true → Free g L r f.pages r'.bbtBlockIndex ∧
    firstPage f'.pages r'.bbtBlockIndex = imagePage L dat
  gone : done = false → r'.bbtBlockIndex = 0

/-- `write_bbt_to_flash`, with a blank spare area, when the table has no block yet. -/
theorem flash_writeBbtToFlash (depth : ℕ) (zero : r.bbtBlockIndex = 0)
    (ready : r.poolErased = true → Ready g L r f) (anything_kept : ∀ pages, kept pages) :
    along (FlashStep L leftover) (fun f' => kept f'.pages) (writeBbtToFlash g dat allOnes depth)
      (BbtWritten g L r dat f) r f := by
  induction depth generalizing r f with
  | zero => exact trivial
  | succ depth ih =>
      rw [writeBbtToFlash]
      apply along_bind
      refine along_mono (fun block r₁ f₁ h => ?_)
        (flash_findAvailableBlock false ready fun pages' _ => anything_kept pages')
      obtain ⟨rfl, change, ready₁, found⟩ := h
      apply along_bind
      rw [along_modify]
      by_cases none : block = 0
      · subst none
        rw [if_pos rfl]
        refine ⟨rfl, rfl, rfl, ?_, ready₁.congr fun b => ?_, by simp, fun _ => rfl⟩
        · exact ⟨change.same, fun b _ => change.settled b (Set.notMem_empty b), change.failed_sub,
            change.failed_left⟩
        · apply unused_congr <;> first | rfl | exact zero
      have free := found none
      rw [if_neg none]
      apply along_bind
      apply flash_writeImage free (fun out => ready₁ block free out)
        fun pages' _ => anything_kept pages'
      · intro f₂ written
        rw [if_pos rfl]
        refine ⟨rfl, rfl, rfl, change.trans written.change, fun b hb out => ?_,
          fun _ => ⟨change.free free, written.page⟩, by simp⟩
        have same := written.others b hb.unused.ne_bbt
        have unused : Unused g r b :=
          ⟨hb.unused.pool, hb.unused.ne_bmt, zero ▸ hb.unused.pool.pos, hb.unused.unmapped⟩
        refine same.blank (ready₁ b ⟨unused, fun bad => ?_⟩ (written.failed ▸ out))
        exact hb.good (same.blockBad.mpr bad)
      · intro f₂ others failed
        rw [if_neg (by simp)]
        apply along_bind
        refine flash_markBlock fun page marked => ⟨anything_kept _, ?_⟩
        rw [failed]
        have change₂ := poolChange_marked free others marked
        have all := change.trans change₂
        have same : ∀ b, Unused g { r with poolErased := true, bbtBlockIndex := 0 } b ↔
            Unused g r b := by
          intro b
          apply unused_congr <;> first | rfl | exact zero.symm
        apply along_bind
        rw [along_modify]
        refine along_mono (fun done r' f' h => ?_)
          (ih rfl fun _ => (change₂.ready ready₁).congr fun b => (same b).symm)
        have later := h.change.congr same
        refine ⟨h.bmt, h.initBbt, h.bmtBlockIndex, all.trans later, h.ready, fun ok => ?_, h.gone⟩
        obtain ⟨free', page'⟩ := h.image ok
        exact ⟨all.free ((free_congr same _).mp free'), page'⟩

end Write

/-! ## `update_bmt` -/

/-- The variables once the new block stands in the table. -/
def Ram.remapped (g : Geometry) (r : Ram) (badIndex mapIndex : ℕ) : Ram :=
  { r with bmt := r.bmt.remap g badIndex mapIndex }

/-- The flash once a block has been found and, after a failed write, moved to. The
block is 0 when none was left. -/
structure Replaced (g : Geometry) (L : OobLayout) (r : Ram) (offset : ℕ) (reason : UpdateReason)
    (dat oob : Option Bytes) (f : Flash) (block : ℕ) (f' : Flash) : Prop where
  change : PoolChange g L r f f' {block}
  ready : ∀ b ≠ block, Free g L r f'.pages b → b ∉ f'.failed → Blank f'.pages b
  free : block ≠ 0 → Free g L r f.pages block
  moved : reason = .writeFail → block ≠ 0 → block ∉ f'.failed ∧
    ∃ d o, dat = some d ∧ oob = some o ∧ Migrated g L f.pages f'.pages offset d o block
  fresh : reason ≠ .writeFail → block ≠ 0 → Settled L f.pages f'.pages block ∧
    ¬ BlockBad L f'.pages block ∧ (block ∉ f'.failed → Blank f'.pages block)

/-- The image `update_bmt` writes. -/
def remapImage (g : Geometry) (r : Ram) (badIndex mapIndex : ℕ) : Bytes :=
  fillNandBmtBuffer g (r.bmt.remap g badIndex mapIndex) allOnes

/-- How `update_bmt` ends. -/
inductive UpdateResult (g : Geometry) (L : OobLayout) (r : Ram) (offset : ℕ)
    (reason : UpdateReason) (dat oob : Option Bytes) (f : Flash) : Bool → Ram → Flash → Prop
  /-- No block was left. -/
  | refused {r' : Ram} {f' : Flash} (tables : SameTables r r')
      (replaced : Replaced g L r offset reason dat oob f 0 f') :
      UpdateResult g L r offset reason dat oob f false r' f'
  /-- No block was left for the table. -/
  | unwritten {block : ℕ} {r' : Ram} {f₁ f' : Flash} (ne : block ≠ 0)
      (replaced : Replaced g L r offset reason dat oob f block f₁)
      (tables : BmtMoved g (r.remapped g (offset / eraseSize) block) r')
      (written : BmtWritten g L (r.remapped g (offset / eraseSize) block)
        (remapImage g r (offset / eraseSize) block) f₁ false r' f') :
      UpdateResult g L r offset reason dat oob f false r' f'
  /-- The table is written, and the failed block is marked. -/
  | done {block : ℕ} {r' : Ram} {f₁ f₂ : Flash} {page : Page} (ne : block ≠ 0)
      (replaced : Replaced g L r offset reason dat oob f block f₁)
      (tables : BmtMoved g (r.remapped g (offset / eraseSize) block) r')
      (written : BmtWritten g L (r.remapped g (offset / eraseSize) block)
        (remapImage g r (offset / eraseSize) block) f₁ true r' f₂)
      (marked : page.Marked L (retireKind g (offset / eraseSize))) :
      UpdateResult g L r offset reason dat oob f true r'
        ⟨Function.update f₂.pages (offset / pageSize) page, afterMark offset f₂.failed⟩

section Update

variable {g : Geometry} {L : OobLayout} {leftover : Leftover} {kept : (ℕ → Page) → Prop}
  {r : Ram} {f : Flash} {offset : ℕ} {reason : UpdateReason} {dat oob : Option Bytes}

theorem flash_replacementBlock (depth : ℕ) (ready : r.poolErased = true → Ready g L r f)
    (used : ¬ Unused g r (offset / eraseSize))
    (mid : ∀ pages', MigrateMid g L leftover r offset dat f.pages pages' → kept pages') :
    along (FlashStep L leftover) (fun f' => kept f'.pages)
      (replacementBlock g depth offset reason dat oob)
      (fun block _ f' => Replaced g L r offset reason dat oob f block f') r f := by
  rw [replacementBlock]
  split
  · next write =>
      refine along_mono (fun block r' f' h => ?_)
        (flash_migrateFromBad depth (.refl r) ready used mid)
      exact ⟨h.change, h.ready, fun ne => (h.moved ne).1, fun _ ne => (h.moved ne).2,
        fun ne => absurd write ne⟩
  · next write =>
      refine along_mono (fun block r' f' h => ?_) (flash_findAvailableBlock false ready
        fun pages' h => mid pages' ⟨0, h.mono fun _ _ => False.elim⟩)
      obtain ⟨-, change, ready', found⟩ := h
      refine ⟨⟨change.same, fun b _ => change.settled b (Set.notMem_empty b), change.failed_sub,
        change.failed_left⟩, fun b _ => ready' b, fun ne => change.free (found ne),
        fun eq => absurd eq write, fun _ ne => ?_⟩
      exact ⟨change.settled block (Set.notMem_empty block), (found ne).good,
        ready' block (found ne)⟩

/-- Once the table is remapped, the free blocks are those from before without the
new one, and the failed block if it is a block of the pool. -/
theorem unused_remapped (disjoint : DisjointBmt g r) {badIndex mapIndex : ℕ}
    (room : r.bmt.HasRoom g badIndex) (free : Unused g r mapIndex)
    (updatable : Updatable g r badIndex)
    {b : ℕ} (h : Unused g (r.remapped g badIndex mapIndex) b) :
    b ≠ mapIndex ∧ (b = badIndex ∧ g.InPool badIndex ∨ Unused g r b) := by
  have unmapped := (isBlockMapped_eq_false_iff _ _).mp h.unmapped
  have listed : ∀ i, (r.bmt.remap g badIndex mapIndex).table i = ⟨badIndex, mapIndex⟩ ∨
      (r.bmt.remap g badIndex mapIndex).table i = ⟨(r.bmt.table i).badIndex, mapIndex⟩ →
      i < (r.bmt.remap g badIndex mapIndex).mappedCount → b ≠ mapIndex := by
    rintro i entry hi rfl
    refine unmapped i hi ?_
    rcases entry with eq | eq
    · exact congrArg BmtEntry.mappedIndex eq
    · exact congrArg BmtEntry.mappedIndex eq
  rcases updatable with system | ⟨pool, mapped⟩
  · obtain ⟨count, entry⟩ := remap_system r.bmt mapIndex system room
    refine ⟨listed r.bmt.mappedCount (.inl ?_) (by omega), .inr ⟨h.pool, h.ne_bmt, h.ne_bbt, ?_⟩⟩
    · rw [entry, if_pos rfl]
    · rw [isBlockMapped_eq_false_iff]
      intro i hi
      have other := unmapped i (lt_of_lt_of_eq (Nat.lt_succ_of_lt hi) count.symm)
      have same := entry i
      rw [if_neg hi.ne] at same
      exact same ▸ other
  · obtain ⟨live, found⟩ := indexOfMapped_live disjoint mapped pool
    obtain ⟨count, entry⟩ := remap_pool r.bmt mapIndex pool
    refine ⟨listed (r.bmt.indexOfMapped g badIndex) (.inr ?_) (by omega), ?_⟩
    · rw [entry, if_pos rfl]
    · by_cases hb : b = badIndex
      · exact .inl ⟨hb, pool⟩
      refine .inr ⟨h.pool, h.ne_bmt, h.ne_bbt, ?_⟩
      rw [isBlockMapped_eq_false_iff]
      intro i hi eq
      have other := unmapped i (lt_of_lt_of_eq hi count.symm)
      have same := entry i
      by_cases index : i = r.bmt.indexOfMapped g badIndex
      · rw [index, found] at eq
        exact hb eq.symm
      · rw [if_neg index] at same
        exact (same ▸ other) eq

theorem updatable_used {badIndex : ℕ} (updatable : Updatable g r badIndex) :
    ¬ Unused g r badIndex := fun unused => by
  rcases updatable with system | ⟨-, mapped⟩
  · exact absurd unused.pool.1 (not_le.mpr system)
  · exact Bool.noConfusion (mapped.symm.trans unused.unmapped)

/-- Free blocks stay ready when the table is remapped, if a failed block of the pool
counts as failed. -/
theorem Replaced.ready_remapped {block : ℕ} {f₁ : Flash}
    (replaced : Replaced g L r offset reason dat oob f block f₁) (disjoint : DisjointBmt g r)
    (room : r.bmt.HasRoom g (offset / eraseSize)) (ne : block ≠ 0)
    (updatable : Updatable g r (offset / eraseSize))
    (failing : g.InPool (offset / eraseSize) → offset / eraseSize ∈ f.failed) :
    Ready g L (r.remapped g (offset / eraseSize) block) f₁ := by
  intro b free out
  obtain ⟨other, ⟨rfl, pool⟩ | unused⟩ := unused_remapped disjoint room (replaced.free ne).unused
    updatable free.unused
  · exact absurd (replaced.change.failed_left _ (failing pool) out) free.good
  · exact replaced.ready b other ⟨unused, free.good⟩ out

theorem DisjointBmt.current (disjoint : DisjointBmt g r)
    (good : r.bmtBlockIndex ≠ 0 → ¬ BlockBad L f.pages r.bmtBlockIndex) (ne : r.bmtBlockIndex ≠ 0) :
    Free g L r.withoutBmt f.pages r.bmtBlockIndex :=
  ⟨⟨(disjoint.bmt_apart ne).1, ne, (disjoint.bmt_apart ne).2.2, (disjoint.bmt_apart ne).2.1⟩,
    good ne⟩

/-- `update_bmt`, for a system block or a mapped block of the pool, from what is known of the
writing of the table. -/
theorem flash_updateBmt_of_writing (depth : ℕ) (disjoint : DisjointBmt g r)
    (room : r.bmt.HasRoom g (offset / eraseSize))
    (ready : r.poolErased = true → Ready g L r f)
    (good : r.bmtBlockIndex ≠ 0 → ¬ BlockBad L f.pages r.bmtBlockIndex)
    (updatable : Updatable g r (offset / eraseSize))
    (failing : g.InPool (offset / eraseSize) → offset / eraseSize ∈ f.failed)
    (moving : ∀ pages', MigrateMid g L leftover r offset dat f.pages pages' → kept pages')
    (writing : ∀ block f₁ r₂, block ≠ 0 → Replaced g L r offset reason dat oob f block f₁ →
      r₂.bmt = (r.remapped g (offset / eraseSize) block).bmt →
      r₂.bmtBlockIndex = r.bmtBlockIndex → r₂.bbtBlockIndex = r.bbtBlockIndex →
      Ready g L r₂ f₁ →
      (r₂.bmtBlockIndex ≠ 0 → Free g L r₂.withoutBmt f₁.pages r₂.bmtBlockIndex) →
      along (FlashStep L leftover) (fun f' => kept f'.pages)
        (writeBmtToFlash g (remapImage g r (offset / eraseSize) block) allOnes depth)
        (BmtWritten g L r₂ (remapImage g r (offset / eraseSize) block) f₁) r₂ f₁)
    (ending : ∀ r' f', UpdateResult g L r offset reason dat oob f true r' f' → kept f'.pages) :
    along (FlashStep L leftover) (fun f' => kept f'.pages)
      (updateBmt g depth offset reason dat oob)
      (UpdateResult g L r offset reason dat oob f) r f := by
  rw [updateBmt]
  apply along_bind
  refine along_mono (fun block r₁ f₁ h => ?_) (along_and_ensures
    (flash_replacementBlock depth ready (updatable_used updatable) moving)
    (replacementBlock_ensures g depth offset reason dat oob))
  obtain ⟨replaced, same, -⟩ := h
  by_cases none : block = 0
  · subst none
    rw [if_pos rfl]
    exact .refused same replaced
  rw [if_neg none]
  apply along_bind
  rw [along_modify]
  apply along_bind
  rw [fillBmtBuffers, along_modify]
  apply along_bind
  rw [along_get]
  apply along_bind
  set r₂ : Ram := { r₁ with
    bmt := r₁.bmt.remap g (offset / eraseSize) block
    datBuf := fillNandBmtBuffer g (r₁.bmt.remap g (offset / eraseSize) block) allOnes
    oobBuf := allOnes } with hr₂
  have bmt : r₂.bmt = (r.remapped g (offset / eraseSize) block).bmt := by
    simp only [hr₂, Ram.remapped, same.bmt]
  have image : r₂.datBuf = remapImage g r (offset / eraseSize) block := by
    simp only [hr₂, remapImage, same.bmt]
  have index : r₂.bmtBlockIndex = (r.remapped g (offset / eraseSize) block).bmtBlockIndex :=
    same.bmtBlockIndex
  have bbt : r₂.bbtBlockIndex = (r.remapped g (offset / eraseSize) block).bbtBlockIndex :=
    same.bbtBlockIndex
  have unused := fun b => unused_congr (g := g) bmt index bbt b
  have unused' : ∀ b, Unused g r₂.withoutBmt b ↔
      Unused g (r.remapped g (offset / eraseSize) block).withoutBmt b := by
    intro b
    apply unused_congr
    · exact bmt
    · rfl
    · exact bbt
  have remapped := remap_disjointBmt disjoint room (replaced.free none).unused updatable
  have ready₂ : Ready g L r₂ f₁ := by
    apply (replaced.ready_remapped disjoint room none updatable failing).congr
    exact fun b => (unused b).symm
  have good₂ : r₂.bmtBlockIndex ≠ 0 → ¬ BlockBad L f₁.pages r₂.bmtBlockIndex := by
    intro ne
    rw [index] at ne ⊢
    have here := replaced.change.same r.bmtBlockIndex fun free => free.unused.ne_bmt rfl
    exact fun bad => good ne (here.blockBad.mp bad)
  have current : r₂.bmtBlockIndex ≠ 0 → Free g L r₂.withoutBmt f₁.pages r₂.bmtBlockIndex := by
    intro ne
    have free := remapped.current (fun ne' => index ▸ good₂ (index.symm ▸ ne')) (index ▸ ne)
    rw [index]
    exact (free_congr unused' _).mpr free
  show along _ _ (writeBmtToFlash g r₂.datBuf allOnes depth) _ r₂ f₁
  rw [image]
  refine along_mono (fun written r₃ f₂ h => ?_) (along_and_ensures
    (writing block f₁ r₂ none replaced bmt index bbt ready₂ current)
    (writeBmtToFlash_ensures g depth _ _))
  obtain ⟨result, moved⟩ := h
  have moved' : BmtMoved g (r.remapped g (offset / eraseSize) block) r₃ := by
    refine ⟨moved.bmt.trans bmt, moved.initBbt.trans same.initBbt, moved.bbtBlockIndex.trans bbt,
      moved.pBbt.trans same.pBbt, moved.needBmt.trans same.needBmt,
      moved.needBbt.trans same.needBbt, ?_⟩
    rcases moved.moved with zero | eq | ⟨pool, apart, unmapped⟩
    · exact .inl zero
    · exact .inr (.inl (eq.trans index))
    · exact .inr (.inr ⟨pool, bbt ▸ apart, bmt ▸ unmapped⟩)
  have result' := result.congr bmt index bbt
  cases written with
  | false => exact .unwritten none replaced moved' result'
  | true =>
      rw [if_pos rfl]
      apply along_bind
      rw [markBlockBadBmt]
      apply along_bind
      rw [along_perform]
      rintro answer f' ⟨page, marked, rfl⟩
      have done := UpdateResult.done none replaced moved' result' marked
      exact ⟨ending _ _ done, done⟩

/-- `update_bmt`, for a system block or a mapped block of the pool. -/
theorem flash_updateBmt (depth : ℕ) (disjoint : DisjointBmt g r)
    (room : r.bmt.HasRoom g (offset / eraseSize))
    (ready : r.poolErased = true → Ready g L r f)
    (good : r.bmtBlockIndex ≠ 0 → ¬ BlockBad L f.pages r.bmtBlockIndex)
    (updatable : Updatable g r (offset / eraseSize))
    (failing : g.InPool (offset / eraseSize) → offset / eraseSize ∈ f.failed)
    (moving : ∀ pages', MigrateMid g L leftover r offset dat f.pages pages' → kept pages')
    (writing : ∀ block f₁, block ≠ 0 → Replaced g L r offset reason dat oob f block f₁ →
      ∀ pages', BmtMid g L leftover (r.remapped g (offset / eraseSize) block)
        (remapImage g r (offset / eraseSize) block) f₁.pages pages' → kept pages')
    (ending : ∀ r' f', UpdateResult g L r offset reason dat oob f true r' f' → kept f'.pages) :
    along (FlashStep L leftover) (fun f' => kept f'.pages)
      (updateBmt g depth offset reason dat oob)
      (UpdateResult g L r offset reason dat oob f) r f := by
  apply flash_updateBmt_of_writing depth disjoint room ready good updatable failing moving _ ending
  intro block f₁ r₂ ne replaced bmt _ bbt ready₂ current
  refine flash_writeBmtToFlash depth (fun _ => ready₂) current fun pages' h =>
    writing block f₁ ne replaced pages' (h.congr fun b => ?_)
  apply unused_congr
  · exact bmt
  · rfl
  · exact bbt

end Update

end En7512.Bmt
