/-
# The pool on the flash

What `find_available_block` does to the blocks of the pool, over `FlashStep`. It
touches free blocks only: blocks of the pool that no table uses and that carry
no mark. A block it has touched is blank afterwards or carries a mark, so from
its first call on every free block is blank.

The results come with what the flash may look like in between, for the sake of
a power cut: the first page of a free block is the old one, erased, marked, or
what a failed erase has left.
-/

import En7512.Bmt.OnFlash
import En7512.Bmt.TableInvariant

namespace En7512.Bmt

open En7512.Logic En7512.Nand En7512.Logic.Routine

/-- All pages of the block are erased. -/
def Blank (pages : ℕ → Page) (block : ℕ) : Prop :=
  ∀ p, p / pagePerBlock = block → pages p = .erased

/-- The pages of the block have not changed. -/
def SameBlock (pages pages' : ℕ → Page) (block : ℕ) : Prop :=
  ∀ p, p / pagePerBlock = block → pages' p = pages p

/-- A block of the pool that no table uses and that carries no mark. -/
structure Free (g : Geometry) (L : OobLayout) (r : Ram) (pages : ℕ → Page) (block : ℕ) :
    Prop where
  unused : Unused g r block
  good : ¬ BlockBad L pages block

/-- The block is as it was, or blank, or marked. -/
def Settled (L : OobLayout) (pages pages' : ℕ → Page) (block : ℕ) : Prop :=
  SameBlock pages pages' block ∨ Blank pages' block ∨ BlockBad L pages' block

/-- What has become of the first page of a block that erasing is done on. -/
inductive Residue (L : OobLayout) (leftover : Leftover) (block : ℕ) (old new : Page) : Prop
  | same (h : new = old)
  | erased (h : new = .erased)
  | marked (kind : BadKind) (h : new.Marked L kind)
  | scrap (source : Page) (origin : source = old ∨ source = .erased)
      (left : leftover (.eraseBlock block) source new)

/-- The flash in the middle of work on the free blocks. The first page of a block is
a residue, or `work` describes it. -/
structure PoolMid (g : Geometry) (L : OobLayout) (leftover : Leftover) (r : Ram)
    (pages pages' : ℕ → Page) (work : ℕ → Page → Prop) : Prop where
  same : ∀ b, ¬ Free g L r pages b → SameBlock pages pages' b
  residue : ∀ b, Residue L leftover b (firstPage pages b) (firstPage pages' b) ∨
    work b (firstPage pages' b)

/-- No block is being worked on. -/
def idle : ℕ → Page → Prop := fun _ _ => False

/-- The flash after work on the free blocks; of the blocks of `work` nothing is
said. -/
structure PoolChange (g : Geometry) (L : OobLayout) (r : Ram) (f f' : Flash) (work : Set ℕ) :
    Prop where
  same : ∀ b, ¬ Free g L r f.pages b → SameBlock f.pages f'.pages b
  settled : ∀ b ∉ work, Settled L f.pages f'.pages b
  failed_sub : f'.failed ⊆ f.failed
  failed_left : ∀ b ∈ f.failed, b ∉ f'.failed → BlockBad L f'.pages b

/-- Free blocks are blank, but for those that have failed. -/
def Ready (g : Geometry) (L : OobLayout) (r : Ram) (f : Flash) : Prop :=
  ∀ b, Free g L r f.pages b → b ∉ f.failed → Blank f.pages b

/-! ## Blocks -/

section Blocks

variable {L : OobLayout} {pages pages' pages'' : ℕ → Page} {block : ℕ}

theorem SameBlock.refl (pages : ℕ → Page) (block : ℕ) : SameBlock pages pages block :=
  fun _ _ => rfl

theorem SameBlock.trans (h : SameBlock pages pages' block) (h' : SameBlock pages' pages'' block) :
    SameBlock pages pages'' block := fun p hp => (h' p hp).trans (h p hp)

/-- The marks are on the first page. -/
theorem SameBlock.firstPage (h : SameBlock pages pages' block) :
    firstPage pages' block = firstPage pages block := h _ (pageAddr_div_self block)

/-- A block that is as it was is bad if it was. -/
theorem SameBlock.blockBad (h : SameBlock pages pages' block) :
    BlockBad L pages' block ↔ BlockBad L pages block := by
  simp only [BlockBad, h.firstPage]

/-- A block that is as it was is blank if it was. -/
theorem SameBlock.blank (h : SameBlock pages pages' block) (blank : Blank pages block) :
    Blank pages' block := fun p hp => (h p hp).trans (blank p hp)

theorem Blank.firstPage (h : Blank pages block) : firstPage pages block = .erased :=
  h _ (pageAddr_div_self block)

/-- An erased page carries no mark. -/
theorem Page.erased_unmarked (L : OobLayout) (kind : BadKind) : ¬ Page.erased.Marked L kind :=
  not_not_intro rfl

/-- A blank block is not bad. -/
theorem Blank.good (h : Blank pages block) : ¬ BlockBad L pages block := by
  rw [BlockBad, h.firstPage]
  exact not_or.mpr ⟨Page.erased_unmarked L _, Page.erased_unmarked L _⟩

/-- A page of another block may change. -/
theorem sameBlock_update {page : ℕ} (other : page / pagePerBlock ≠ block) (new : Page) :
    SameBlock pages (Function.update pages page new) block := by
  intro p hp
  apply Function.update_of_ne
  rintro rfl
  exact other hp

/-- Either mark makes the block bad. -/
theorem blockBad_of_marked {kind : BadKind} (h : (Bmt.firstPage pages block).Marked L kind) :
    BlockBad L pages block := by
  cases kind with
  | raw => exact .inl h
  | generateLater => exact .inr h

/-- A mark on the first page makes the block bad, whatever else is on the page. -/
theorem blockBad_update {kind : BadKind} {page : Page} (h : page.Marked L kind) :
    BlockBad L (Function.update pages (pageAddr block) page) block := by
  have first : (Bmt.firstPage (Function.update pages (pageAddr block) page)
      block).Marked L kind := by
    simpa only [Bmt.firstPage, Function.update_self] using h
  exact blockBad_of_marked first

/-- What becomes of a block in two steps, one after the other. -/
theorem Settled.trans (h : Settled L pages pages' block) (h' : Settled L pages' pages'' block) :
    Settled L pages pages'' block := by
  rcases h' with same | blank | bad
  · rcases h with same' | blank | bad
    · exact .inl (same'.trans same)
    · exact .inr (.inl (same.blank blank))
    · exact .inr (.inr (same.blockBad.mpr bad))
  · exact .inr (.inl blank)
  · exact .inr (.inr bad)

/-- What the first page of such a block may be. -/
theorem Settled.residue {leftover : Leftover} (h : Settled L pages pages' block) :
    Residue L leftover block (Bmt.firstPage pages block) (Bmt.firstPage pages' block) := by
  rcases h with same | blank | bad | bad
  · exact .same same.firstPage
  · exact .erased blank.firstPage
  · exact .marked _ bad
  · exact .marked _ bad

end Blocks

/-! ## Changes to the pool -/

section Changes

variable {g : Geometry} {L : OobLayout} {leftover : Leftover} {r : Ram} {f f' f'' : Flash}
  {work : Set ℕ}

/-- A block is free as long as it stays as it is. -/
theorem Free.of_same {pages pages' : ℕ → Page} {b : ℕ} (same : SameBlock pages pages' b)
    (free : Free g L r pages' b) : Free g L r pages b :=
  ⟨free.unused, fun bad => free.good (same.blockBad.mpr bad)⟩

theorem PoolChange.refl (f : Flash) : PoolChange g L r f f ∅ :=
  ⟨fun _ _ => .refl _ _, fun _ _ => .inl (.refl _ _), subset_rfl, fun _ h h' => absurd h h'⟩

/-- Two changes of the pool, one after the other. -/
theorem PoolChange.trans (h : PoolChange g L r f f' ∅) (h' : PoolChange g L r f' f'' work) :
    PoolChange g L r f f'' work := by
  refine ⟨fun b hb => ?_, fun b hb => ?_, h'.failed_sub.trans h.failed_sub, fun b hb out => ?_⟩
  · have same := h.same b hb
    exact same.trans (h'.same b fun free => hb (free.of_same same))
  · exact (h.settled b (Set.notMem_empty b)).trans (h'.settled b hb)
  · by_cases mid : b ∈ f'.failed
    · exact h'.failed_left b mid out
    · have bad := h.failed_left b hb mid
      exact (h'.same b fun free => free.good bad).blockBad.mpr bad

/-- A change that is finished is also one on the way. -/
theorem PoolChange.mid (h : PoolChange g L r f f' ∅) {work : ℕ → Page → Prop} :
    PoolMid g L leftover r f.pages f'.pages work :=
  ⟨h.same, fun b => .inl (h.settled b (Set.notMem_empty b)).residue⟩

theorem PoolMid.mono {pages pages' : ℕ → Page} {work work' : ℕ → Page → Prop}
    (h : PoolMid g L leftover r pages pages' work) (sub : ∀ b p, work b p → work' b p) :
    PoolMid g L leftover r pages pages' work' :=
  ⟨h.same, fun b => (h.residue b).imp_right (sub b _)⟩

/-- A free block stays free backwards. -/
theorem PoolChange.free (h : PoolChange g L r f f' work) {b : ℕ} (free : Free g L r f'.pages b) :
    Free g L r f.pages b := by
  refine ⟨free.unused, fun bad => free.good ?_⟩
  exact (h.same b fun free' => free'.good bad).blockBad.mpr bad

/-- A change of the pool, and one that is not finished. -/
theorem PoolChange.trans_mid {pages'' : ℕ → Page} {work : ℕ → Page → Prop}
    (h : PoolChange g L r f f' ∅) (h' : PoolMid g L leftover r f'.pages pages'' work) :
    PoolMid g L leftover r f.pages pages'' work := by
  refine ⟨fun b hb => ?_, fun b => ?_⟩
  · have same := h.same b hb
    exact same.trans (h'.same b fun free => hb (free.of_same same))
  · rcases h'.residue b with later | working
    · left
      rcases h.settled b (Set.notMem_empty b) with same | blank | bad
      · rwa [same.firstPage] at later
      · rw [blank.firstPage] at later
        cases later with
        | same eq => exact .erased eq
        | erased eq => exact .erased eq
        | marked kind mark => exact .marked kind mark
        | scrap source origin left => exact .scrap source (.inr (or_self_iff.mp origin)) left
      · -- a marked block is not touched again
        have same := h'.same b fun free => free.good bad
        rcases same.blockBad.mpr bad with raw | later
        · exact .marked _ raw
        · exact .marked _ later
    · exact .inr working

/-- What `Ready` becomes when the free blocks are worked on. -/
theorem PoolChange.ready (h : PoolChange g L r f f' ∅) (ready : Ready g L r f) :
    Ready g L r f' := by
  intro b free out
  rcases h.settled b (Set.notMem_empty b) with same | blank | bad
  · have free' := free.of_same same
    have out' : b ∉ f.failed := fun mem => free.good (h.failed_left b mem out)
    exact same.blank (ready b free' out')
  · exact blank
  · exact absurd bad free.good

end Changes

/-! ## Single calls -/

section Calls

variable {g : Geometry} {L : OobLayout} {leftover : Leftover} {kept : (ℕ → Page) → Prop}
  {r : Ram} {f : Flash}

/-- A check of a block of the pool answers whether its first page carries the mark. -/
theorem flash_checkBad {block : ℕ} {kind : BadKind} {post : Bool → Ram → Flash → Prop}
    (inside : block < g.totalBlockCount) (now : kept f.pages)
    (h : ∀ marked : Bool, (marked = true ↔ (firstPage f.pages block).Marked L kind) →
      post marked r f) :
    along (FlashStep L leftover) (fun f' => kept f'.pages)
      (nandBlockBadBmt (blockOffset block) kind) post r f := by
  rw [nandBlockBadBmt, along_perform]
  rintro answer f' ⟨rfl, told⟩
  rw [foldReserved_block inside, blockOffset_div_page] at told
  exact ⟨now, h answer told⟩

/-- The test of all scans answers whether the block is bad. -/
theorem flash_blockMarkedBad {block : ℕ} {post : Bool → Ram → Flash → Prop}
    (inside : block < g.totalBlockCount) (now : kept f.pages)
    (h : ∀ marked : Bool, (marked = true ↔ BlockBad L f.pages block) → post marked r f) :
    along (FlashStep L leftover) (fun f' => kept f'.pages) (blockMarkedBad block) post r f := by
  rw [blockMarkedBad]
  apply along_bind
  refine flash_checkBad inside now fun raw hraw => ?_
  cases raw with
  | true => exact h true (by simpa [BlockBad] using .inl (hraw.mp rfl))
  | false =>
      rw [if_neg (by simp)]
      have notRaw : ¬ (firstPage f.pages block).Marked L .raw := fun marked => by
        simpa using hraw.mpr marked
      refine flash_checkBad inside now fun later hlater => h later ?_
      rw [hlater, BlockBad, or_iff_right notRaw]

/-- A mark on the first page of a block. -/
theorem flash_markBlock {block : ℕ} {kind : BadKind} {post : Unit → Ram → Flash → Prop}
    (h : ∀ page : Page, page.Marked L kind →
      kept (Function.update f.pages (pageAddr block) page) ∧
        post () r ⟨Function.update f.pages (pageAddr block) page, f.failed \ {block}⟩) :
    along (FlashStep L leftover) (fun f' => kept f'.pages)
      (markBlockBadBmt (blockOffset block) kind) post r f := by
  rw [markBlockBadBmt]
  apply along_bind
  rw [along_perform]
  rintro answer f' ⟨page, marked, rfl⟩
  have first : pageAddr block % pagePerBlock = 0 := Nat.mul_mod_left block pagePerBlock
  rw [afterMark, blockOffset_div_page, blockOffset_div_erase, if_pos first]
  exact h page marked

/-- A block of the pool is available exactly if it is free. -/
theorem flash_blockAvailable {block : ℕ} {post : Bool → Ram → Flash → Prop}
    (pool : g.InPool block) (now : kept f.pages)
    (h : ∀ available : Bool, (available = true ↔ Free g L r f.pages block) →
      post available r f) :
    along (FlashStep L leftover) (fun f' => kept f'.pages) (blockAvailable block) post r f := by
  rw [blockAvailable]
  apply along_bind
  rw [along_get]
  by_cases hbmt : block = r.bmtBlockIndex
  · rw [if_pos hbmt]
    exact h false (by simpa using fun free : Free g L r f.pages block => free.unused.ne_bmt hbmt)
  rw [if_neg hbmt]
  by_cases hbbt : block = r.bbtBlockIndex
  · rw [if_pos hbbt]
    exact h false (by simpa using fun free : Free g L r f.pages block => free.unused.ne_bbt hbbt)
  rw [if_neg hbbt]
  apply along_bind
  refine flash_blockMarkedBad pool.2 now fun marked hm => ?_
  cases marked with
  | true =>
      exact h false (by simpa using fun free : Free g L r f.pages block => free.good (hm.mp rfl))
  | false =>
      have good : ¬ BlockBad L f.pages block := fun bad => by simpa using hm.mpr bad
      refine h _ ?_
      rw [Bool.not_eq_true']
      exact ⟨fun unmapped => ⟨⟨pool, hbmt, hbbt, unmapped⟩, good⟩, fun free => free.unused.unmapped⟩

end Calls

/-! ## `find_available_block` -/

section Find

variable {g : Geometry} {L : OobLayout} {leftover : Leftover} {kept : (ℕ → Page) → Prop}
  {r : Ram} {f : Flash}

/-- Erasing a free block with success. -/
theorem poolChange_erased {block : ℕ} (free : Free g L r f.pages block) :
    PoolChange g L r f
      ⟨fun p => if p / pagePerBlock = block then .erased else f.pages p, f.failed⟩ ∅ := by
  refine ⟨fun b hb p hp => if_neg ?_, fun b _ => ?_, subset_rfl, fun _ h h' => absurd h h'⟩
  · rintro rfl
    exact hb (hp ▸ free)
  · by_cases hb : b = block
    · exact .inr (.inl fun p hp => if_pos (hp.trans hb))
    · exact .inl fun p hp => if_neg fun eq => hb (hp.symm.trans eq)

/-- The flash between a failed erase and the mark. -/
theorem poolMid_scrap {pages : ℕ → Page} {block : ℕ} (free : Free g L r pages block)
    {left : ℕ → Page}
    (leaves : ∀ p, p / pagePerBlock = block → leftover (.eraseBlock block) (pages p) (left p)) :
    PoolMid g L leftover r pages
      (fun p => if p / pagePerBlock = block then left p else pages p) idle := by
  refine ⟨fun b hb p hp => if_neg ?_, fun b => .inl ?_⟩
  · rintro rfl
    exact hb (hp ▸ free)
  · have first : firstPage (fun p => if p / pagePerBlock = block then left p else pages p) b =
        if b = block then left (pageAddr b) else pages (pageAddr b) := by
      simp only [firstPage, pageAddr_div_self]
    rw [first]
    split
    · next h =>
        subst h
        exact .scrap _ (.inl rfl) (leaves _ (pageAddr_div_self b))
    · exact .same rfl

/-- A free block that failed has been marked: whatever the pages were in between. -/
theorem poolChange_marked {block : ℕ} (free : Free g L r f.pages block) {mid : ℕ → Page}
    (others : ∀ p, p / pagePerBlock ≠ block → mid p = f.pages p) {page : Page} {kind : BadKind}
    (marked : page.Marked L kind) :
    PoolChange g L r f
      ⟨Function.update mid (pageAddr block) page, insert block f.failed \ {block}⟩ ∅ := by
  have same : ∀ b, b ≠ block →
      SameBlock f.pages (Function.update mid (pageAddr block) page) b := by
    intro b hb p hp
    have other : p / pagePerBlock ≠ block := fun eq => hb (hp.symm.trans eq)
    have ne : p ≠ pageAddr block := fun eq => other (eq ▸ pageAddr_div_self block)
    rw [Function.update_of_ne ne, others p other]
  refine ⟨fun b hb => same b ?_, fun b _ => ?_, ?_, fun b hb out => ?_⟩
  · rintro rfl
    exact hb free
  · by_cases hb : b = block
    · subst hb
      exact .inr (.inr (blockBad_update marked))
    · exact .inl (same b hb)
  · rintro b ⟨rfl | hb, out⟩
    · exact absurd rfl out
    · exact hb
  · have eq : b = block := by
      by_contra ne
      exact out ⟨.inr hb, ne⟩
    subst eq
    exact blockBad_update marked

/-- The first loop leaves every available block blank or bad. -/
theorem flash_erasePool (blocks : List ℕ) (pool : ∀ b ∈ blocks, g.InPool b)
    (mid : ∀ pages', PoolMid g L leftover r f.pages pages' idle → kept pages') :
    along (FlashStep L leftover) (fun f' => kept f'.pages) (erasePool blocks)
      (fun _ r' f' => r' = r ∧ PoolChange g L r f f' ∅ ∧
        ∀ b ∈ blocks, Free g L r f'.pages b → Blank f'.pages b) r f := by
  induction blocks generalizing f with
  | nil => exact ⟨rfl, .refl f, by simp⟩
  | cons block blocks ih =>
      have now : kept f.pages := mid _ (PoolChange.refl f).mid
      have poolRest := fun b hb => pool b (List.mem_cons_of_mem block hb)
      -- the rest of the list, from a flash on which this block has been dealt with
      have rest : ∀ f₁, PoolChange g L r f f₁ ∅ →
          (Free g L r f₁.pages block → Blank f₁.pages block) →
          along (FlashStep L leftover) (fun f' => kept f'.pages) (erasePool blocks)
            (fun _ r' f' => r' = r ∧ PoolChange g L r f f' ∅ ∧
              ∀ b ∈ block :: blocks, Free g L r f'.pages b → Blank f'.pages b) r f₁ := by
        intro f₁ change done
        refine along_mono (fun _ r' f' h => ?_)
          (ih poolRest fun pages' later => mid _ (change.trans_mid later))
        obtain ⟨same, change', blank⟩ := h
        refine ⟨same, change.trans change', fun b hb free => ?_⟩
        rcases List.mem_cons.mp hb with rfl | hb
        · rcases change'.settled b (Set.notMem_empty b) with same | blank | bad
          · exact same.blank (done (free.of_same same))
          · exact blank
          · exact absurd bad free.good
        · exact blank b hb free
      rw [erasePool]
      apply along_bind
      refine flash_blockAvailable (pool block List.mem_cons_self) now fun available hfree => ?_
      cases available with
      | false => exact rest f (.refl f) fun free => by simpa using hfree.mpr free
      | true =>
          have free := hfree.mp rfl
          rw [if_pos rfl]
          apply along_bind
          rw [nandEraseBmt, blockOffset_div_erase, along_perform]
          rintro erased f₁ (⟨rfl, rfl⟩ | ⟨rfl, left, leaves, rfl⟩)
          · have change := poolChange_erased free
            rw [if_pos rfl]
            exact ⟨mid _ change.mid, rest _ change fun _ p hp => if_pos hp⟩
          · refine ⟨mid _ (poolMid_scrap free leaves), ?_⟩
            rw [if_neg (by simp)]
            apply along_bind
            refine flash_markBlock fun page marked => ?_
            have others : ∀ p, p / pagePerBlock ≠ block →
                (if p / pagePerBlock = block then left p else f.pages p) = f.pages p :=
              fun p hp => if_neg hp
            have change := poolChange_marked free others marked
            exact ⟨mid _ change.mid,
              rest _ change fun free => absurd (blockBad_update marked) free.good⟩

/-- The second loop gives out a free block, and changes nothing. -/
theorem flash_scanPool (blocks : List ℕ) (pool : ∀ b ∈ blocks, g.InPool b) (now : kept f.pages) :
    along (FlashStep L leftover) (fun f' => kept f'.pages) (scanPool blocks)
      (fun block r' f' => r' = r ∧ f' = f ∧ (block ≠ 0 → Free g L r f.pages block)) r f := by
  induction blocks with
  | nil => exact ⟨rfl, rfl, fun h => absurd rfl h⟩
  | cons block blocks ih =>
      rw [scanPool]
      apply along_bind
      refine flash_blockAvailable (pool block List.mem_cons_self) now fun available hfree => ?_
      cases available with
      | false => exact ih fun b hb => pool b (List.mem_cons_of_mem block hb)
      | true => exact ⟨rfl, rfl, fun _ => hfree.mp rfl⟩

/-- `find_available_block`: it gives out free blocks, and afterwards free blocks
are blank. -/
theorem flash_findAvailableBlock (startFromEnd : Bool)
    (ready : r.poolErased = true → Ready g L r f)
    (mid : ∀ pages', PoolMid g L leftover r f.pages pages' idle → kept pages') :
    along (FlashStep L leftover) (fun f' => kept f'.pages) (findAvailableBlock g startFromEnd)
      (fun block r' f' => r' = { r with poolErased := true } ∧ PoolChange g L r f f' ∅ ∧
        Ready g L r f' ∧ (block ≠ 0 → Free g L r f'.pages block)) r f := by
  rw [findAvailableBlock]
  apply along_bind
  have once : along (FlashStep L leftover) (fun f' => kept f'.pages) (erasePoolOnce g)
      (fun _ r' f' => r' = { r with poolErased := true } ∧ PoolChange g L r f f' ∅ ∧
        Ready g L r f') r f := by
    rw [erasePoolOnce]
    apply along_bind
    rw [along_get]
    cases h : r.poolErased with
    | true =>
        rw [if_pos rfl, ← h]
        exact ⟨rfl, .refl f, ready h⟩
    | false =>
        rw [if_neg (by simp)]
        apply along_bind
        refine along_mono (fun _ r' f' h => ?_)
          (flash_erasePool g.poolBlocks (fun b hb => g.mem_poolBlocks.mp hb) mid)
        obtain ⟨rfl, change, blank⟩ := h
        exact ⟨rfl, change, fun b free _ =>
          blank b (g.mem_poolBlocks.mpr free.unused.pool) free⟩
  refine along_mono (fun _ r₁ f₁ h => ?_) once
  obtain ⟨rfl, change, ready₁⟩ := h
  have pool : ∀ b ∈ (if startFromEnd then g.poolBlocks.reverse else g.poolBlocks), g.InPool b := by
    intro b hb
    cases startFromEnd <;> simpa using hb
  refine along_mono (fun block r' f' h => ?_) (flash_scanPool _ pool (mid _ change.mid))
  obtain ⟨rfl, rfl, found⟩ := h
  exact ⟨rfl, change, ready₁, fun ne =>
    ⟨⟨(found ne).unused.pool, (found ne).unused.ne_bmt, (found ne).unused.ne_bbt,
      (found ne).unused.unmapped⟩, (found ne).good⟩⟩

end Find

end En7512.Bmt
