/-
# The list of factory-bad blocks

`reconstruct_bbt` tells the blocks that were bad from the beginning from those the driver
has marked itself by the BMT: a block that an entry names as its bad block is left out. So
the list stays the same as long as every block that gets the mark of a bad system block
gets an entry as well, and no listed block does.

The invariant is kept by whole calls of the logical layer, with any failures that are
recovered, and across restarts. It is broken when a failing erase is that of a block which
does not stand for itself: the logical address is then taken for a physical one.
-/

import En7512.Bmt.Persistence
import En7512.Flash.BlockErase

namespace En7512.Flash

open En7512.Logic En7512.Nand En7512.Bmt En7512.Logic.Routine

/-! ## What is listed -/

/-- The scan lists the block. -/
def Listed (L : OobLayout) (r : Ram) (pages : ℕ → Page) (block : ℕ) : Prop :=
  (firstPage pages block).Marked L .raw ∧ r.bmt.isBadblockRaw block = true

/-- The pool holds one image of the BMT at most. -/
def OneImage (g : Geometry) (L : OobLayout) (pages : ℕ → Page) : Prop :=
  ∀ b c, g.InPool b → g.InPool c → HoldsBmt g L pages b → HoldsBmt g L pages c → b = c

/-- The tables are in order, and the scan would give the list, as far as the blocks of
`out` are not concerned. -/
structure InForce (g : Geometry) (L : OobLayout) (list : List ℕ) (out : Set ℕ) (r : Ram)
    (f : Flash) : Prop where
  consistent : Consistent g L r f
  pool : g.InPool r.bmtBlockIndex
  stored : HoldsBmt g L f.pages r.bmtBlockIndex
  factory : ∀ b ∈ scannedBlocks g, b ∉ out → (Listed L r f.pages b ↔ b ∈ list)

/-- The logical blocks are numbered past the blocks of the list. -/
structure PastList (g : Geometry) (list : List ℕ) (r : Ram) : Prop where
  numbered : Enumerated g r
  good : ∀ block < logicalBlocks g r, r.pBbt block ∉ list

section Listed

variable {g : Geometry} {L : OobLayout} {r r' : Ram} {pages pages' : ℕ → Page} {list : List ℕ}
  {block : ℕ}

theorem mem_rawBad {blocks : List ℕ} :
    block ∈ rawBad L pages r.bmt blocks ↔ block ∈ blocks ∧ Listed L r pages block := by
  simp only [rawBad, List.mem_filter, decide_eq_true_eq, Listed]

/-- The scan gives back the list it is compared with. -/
theorem rawBad_eq (ordered : (scannedBlocks g).filter (· ∈ list) = list)
    (factory : ∀ b ∈ scannedBlocks g, Listed L r pages b ↔ b ∈ list) :
    rawBad L pages r.bmt (scannedBlocks g) = list := by
  rw [← ordered, rawBad]
  apply List.filter_congr
  intro b hb
  have here := factory b hb
  rw [Listed] at here
  simp only [here]

theorem listed_congr (same : firstPage pages' block = firstPage pages block)
    (keys : r'.bmt.isBadblockRaw block = true ↔ r.bmt.isBadblockRaw block = true) :
    Listed L r' pages' block ↔ Listed L r pages block := by
  rw [Listed, Listed, same, keys]

/-- The bad blocks of a table after a remap. -/
theorem isBadblockRaw_remap {badIndex : ℕ} (room : r.bmt.HasRoom g badIndex)
    (updatable : Updatable g r badIndex) (mapIndex block : ℕ) :
    (r.bmt.remap g badIndex mapIndex).isBadblockRaw block = true ↔
      r.bmt.isBadblockRaw block = true ∧ (badIndex < g.systemBlockCount → block ≠ badIndex) := by
  rcases updatable with system | ⟨pool, -⟩
  · have live := (live_append r.bmt (room system) badIndex mapIndex).2
    rw [remap_eq_append r.bmt system, BmtStruct.isBadblockRaw_iff, live,
      BmtStruct.isBadblockRaw_iff]
    simp only [List.mem_append, List.mem_singleton, or_imp, forall_and, forall_eq, system,
      forall_const]
    exact and_congr_right fun _ => ne_comm
  · obtain ⟨count, entry⟩ := remap_pool r.bmt mapIndex pool
    have bad : ∀ i, ((r.bmt.remap g badIndex mapIndex).table i).badIndex =
        (r.bmt.table i).badIndex := by
      intro i
      rw [entry]
      split
      · rfl
      · rfl
    have apart : ¬ badIndex < g.systemBlockCount := not_lt.mpr pool.1
    simp only [BmtStruct.isBadblockRaw_iff, BmtStruct.mem_live, count, forall_exists_index, and_imp,
      forall_apply_eq_imp_iff₂, bad, apart, false_imp_iff, and_true]

end Listed

/-! ## Single steps -/

section Steps

variable {g : Geometry} {L : OobLayout} {leftover : Leftover} {list : List ℕ} {r r' : Ram}
  {f f' : Flash} {block : ℕ}

/-- The counter of the table has room: the block of the table is not mapped. -/
theorem InForce.room {out : Set ℕ} (force : InForce g L list out r f)
    (small : g.bmtBlockCount ≤ 255) (badIndex : ℕ) : r.bmt.HasRoom g badIndex := by
  have disjoint := force.consistent.disjoint
  have alone : DisjointBmt g r.withoutBmt :=
    ⟨disjoint.count_le, disjoint.mapped_mem, disjoint.mapped_inj, disjoint.bad_lt,
      disjoint.rest_zero, fun ne => absurd rfl ne⟩
  have apart := disjoint.bmt_apart force.pool.pos
  have unused : Unused g r.withoutBmt r.bmtBlockIndex :=
    ⟨force.pool, force.pool.pos, apart.2.2, apart.2.1⟩
  have room : r.withoutBmt.bmt.HasRoom g badIndex := hasRoom_of_unused alone small unused
  exact room

/-- A call on a block that carries data says nothing about the other blocks. -/
theorem InForce.client (force : InForce g L list ∅ r f) {op : NandOp} {answer : NandResp op}
    (step : FlashStep L leftover op f answer f') (one : OneImage g L f'.pages)
    (used : Updatable g r block) (only : ∀ b, Changes op b → b = block) :
    InForce g L list {block} r f' := by
  have table := table_not_updatable force.consistent.disjoint force.pool.pos
  have same : ∀ b ≠ block, SameBlock f.pages f'.pages b := fun b other =>
    (flashStep_frame step fun changes => other (only b changes)).1
  have kept := same r.bmtBlockIndex fun eq => table (eq ▸ used)
  have stored : HoldsBmt g L f'.pages r.bmtBlockIndex := by
    simpa only [HoldsBmt, kept.blockBad, kept.firstPage] using force.stored
  refine ⟨?_, force.pool, stored, fun b hb other => ?_⟩
  · apply force.consistent.client step
    · exact fun b changes => only b changes ▸ used
    · intro b changes pool holds
      have eq := one b r.bmtBlockIndex pool force.pool holds stored
      exact table (eq ▸ only b changes ▸ used)
  · rw [listed_congr (same b other).firstPage Iff.rfl]
    exact force.factory b hb (Set.notMem_empty b)

/-- The block is as the list says. -/
theorem InForce.settle (force : InForce g L list {block} r f)
    (here : block ∈ scannedBlocks g → (Listed L r f.pages block ↔ block ∈ list)) :
    InForce g L list ∅ r f := by
  refine ⟨force.consistent, force.pool, force.stored, fun b hb _ => ?_⟩
  by_cases eq : b = block
  · subst eq
    exact here hb
  · exact force.factory b hb eq

/-- The failed block gets its entry. -/
theorem InForce.updated {offset : ℕ} {reason : UpdateReason} {dat oob : Option Bytes}
    (force : InForce g L list {offset / eraseSize} r f) (small : g.bmtBlockCount ≤ 255)
    (updatable : Updatable g r (offset / eraseSize))
    (failing : g.InPool (offset / eraseSize) → offset / eraseSize ∈ f.failed)
    (unlisted : offset / eraseSize ∉ list)
    (result : UpdateResult g L r offset reason dat oob f true r' f') (one : OneImage g L f'.pages) :
    InForce g L list ∅ r' f' := by
  have room := force.room small (offset / eraseSize)
  obtain ⟨pool, stored, -⟩ := result.stored force.consistent room updatable failing
  refine ⟨?_, pool, stored, fun b hb _ => ?_⟩
  · apply result.consistent_of_single force.consistent room updatable failing
    exact fun b inPool holds => one b _ inPool pool holds stored
  have system := (mem_scannedBlocks.mp hb).2
  have keys : r'.bmt.isBadblockRaw b = true ↔ r.bmt.isBadblockRaw b = true ∧
      (offset / eraseSize < g.systemBlockCount → b ≠ offset / eraseSize) := by
    cases result with
    | done ne replaced tables written marked =>
        rw [tables.bmt]
        exact isBadblockRaw_remap room updatable _ b
  by_cases eq : b = offset / eraseSize
  · subst eq
    apply iff_of_false _ unlisted
    exact fun listed => (keys.mp listed.2).2 system rfl
  · have same := result.same force.consistent room updatable (.inl system) eq
    rw [listed_congr same.firstPage (keys.trans (and_iff_left fun _ => eq))]
    exact force.factory b hb eq

end Steps

/-! ## Writing and erasing -/

/-- The variables that number the blocks stay. -/
def SameNumbers (r r' : Ram) : Prop := r'.initBbt = r.initBbt ∧ r'.pBbt = r.pBbt

/-- The driver has its list and numbers the blocks past it. -/
structure Faithful (g : Geometry) (L : OobLayout) (list : List ℕ) (r : Ram) (f : Flash) : Prop where
  force : InForce g L list ∅ r f
  past : PastList g list r

/-- An erase that fails is not the erase of a block that stands for another one. -/
def ErasesInPlace (g : Geometry) (r : Ram) : (op : NandOp) → NandResp op → Prop
  | .eraseBlock erased, ok => ok = false →
      ∀ block < logicalBlocks g r, resolve g r block = erased → block = erased
  | _, _ => True

/-- What is asked of every call of a write: the pool never holds two images. -/
def writeReport (g : Geometry) (L : OobLayout) : Report := fun _ _ pages => OneImage g L pages

/-- What is asked of the calls of a write, and something besides. -/
def writeReportAnd (g : Geometry) (L : OobLayout) (report : Report) : Report :=
  fun op answer pages => OneImage g L pages ∧ report op answer pages

/-- What is asked of every call of an erase, from the tables it starts with. -/
def eraseReport (g : Geometry) (L : OobLayout) (r : Ram) : Report := fun op answer pages =>
  OneImage g L pages ∧ ErasesInPlace g r op answer

section Calls

variable {g : Geometry} {L : OobLayout} {leftover : Leftover} {report : Report} {list : List ℕ}
  {r r' : Ram} {f f' : Flash} {block : ℕ}

theorem PastList.congr (past : PastList g list r) (same : SameNumbers r r') :
    PastList g list r' := by
  refine ⟨past.numbered.congr same.1 same.2, fun block hb => ?_⟩
  rw [logicalBlocks, same.1] at hb
  rw [same.2]
  exact past.good block hb

/-- The list names no block that carries data. -/
theorem Faithful.resolve_unlisted (faithful : Faithful g L list r f)
    (system : ∀ b ∈ list, b < g.systemBlockCount) (inside : block < logicalBlocks g r) :
    resolve g r block ∉ list := by
  rw [resolve_eq inside]
  rcases getMappingBlockIndexByBmt_cases r.bmt (faithful.past.numbered.lt inside) with
    ⟨-, eq⟩ | ⟨e, live, -, eq⟩
  · rw [eq]
    exact faithful.past.good block inside
  · obtain ⟨i, hi, rfl⟩ := r.bmt.mem_live.mp live
    have pool := faithful.force.consistent.disjoint.mapped_mem i hi
    rw [eq]
    exact fun mem => absurd pool.1 (not_le.mpr (system _ mem))

theorem Faithful.updatable (faithful : Faithful g L list r f) (inside : block < logicalBlocks g r) :
    Updatable g r (resolve g r block) :=
  resolve_updatable faithful.past.numbered faithful.force.consistent.disjoint inside

/-- Every call leaves one image at most. -/
theorem wp_oneImage (tells : ∀ op answer pages, report op answer pages → OneImage g L pages)
    {α : Type} (m : Drv α) (now : OneImage g L f.pages) :
    wp (ReportedStep L leftover report) m (fun _ _ f' => OneImage g L f'.pages) r f :=
  wp_kept (fun _ _ _ _ step _ => tells _ _ _ step.2) m now

/-- `update_bmt` for a block that carries data and has failed. -/
theorem reported_updateBmt (tells : ∀ op answer pages, report op answer pages → OneImage g L pages)
    (small : g.bmtBlockCount ≤ 255) (depth : ℕ) {offset : ℕ} {reason : UpdateReason}
    {dat oob : Option Bytes} (force : InForce g L list {offset / eraseSize} r f)
    (past : PastList g list r) (one : OneImage g L f.pages)
    (updatable : Updatable g r (offset / eraseSize))
    (failing : offset / eraseSize ∈ f.failed) (unlisted : offset / eraseSize ∉ list) :
    wp (ReportedStep L leftover report) (updateBmt g depth offset reason dat oob)
      (fun done r' f' => done = true → UpdateResult g L r offset reason dat oob f true r' f' ∧
        Faithful g L list r' f' ∧ SameNumbers r r') r f := by
  have now := force.consistent
  have result : wp (ReportedStep L leftover report) (updateBmt g depth offset reason dat oob)
      (fun done r' f' => UpdateResult g L r offset reason dat oob f done r' f') r f :=
    wp_of_rules (fun _ _ _ _ step => step.1) (wp_of_along
      (@flash_updateBmt g L leftover (fun _ => True) _ _ _ _ _ _ depth now.disjoint
        (force.room small _) now.ready now.good updatable (fun _ => failing)
        (fun _ _ => trivial) (fun _ _ _ _ _ _ => trivial) fun _ _ _ => trivial))
  apply wp_mono _ (wp_and result (wp_oneImage tells _ one))
  rintro done r' f' ⟨result, one'⟩ rfl
  have force' := force.updated small updatable (fun _ => failing) unlisted result one'
  have same : SameNumbers r r' := by
    cases result with
    | done ne replaced tables written marked => exact ⟨tables.initBbt, tables.pBbt⟩
  exact ⟨result, ⟨force', past.congr same⟩, same⟩

/-- The first page of a block keeps its factory mark when a piece is programmed. -/
theorem marked_programmed (old : Page) (dataOffset : ℕ) (dat : Bytes) (dataLen : ℕ) (oob : Bytes)
    (blank : oob 0 = 0xff) :
    (programmed L old dataOffset dat dataLen oob oobBufferSize).Marked L .raw ↔
      old.Marked L .raw := by
  have room := L.room
  have inside : 0 < oobBufferSize := by decide
  simp only [Page.Marked, BadKind.index, programmed, Page.and_oob,
    L.scatter_pos _ _ _ (show 0 < L.oobsize by omega), inside, if_true, blank, byte_and_ones,
    UInt8.and_self]

/-- The spare area a piece is written with. -/
def pieceOob (g : Geometry) (r : Ram) (writeAddr : ℕ) : Bytes :=
  writeOobBuf g (getMappingBlockIndex g r (writeAddr / eraseSize)).1
    (getMappingBlockIndex g r (writeAddr / eraseSize)).2

/-- The program of a piece. -/
abbrev pieceProgram (g : Geometry) (r : Ram) (writeAddr remainLen : ℕ) (dat : Bytes) : NandOp :=
  .writePage (physicalAddr g r writeAddr / pageSize) (physicalAddr g r writeAddr % pageSize) dat
    (writeDataLen (physicalAddr g r writeAddr % pageSize) remainLen) (pieceOob g r writeAddr)
    oobBufferSize

/-- What a piece of a write that is stored has done: its page has been programmed, or the
program has failed and the block is replaced. -/
inductive PieceStored (g : Geometry) (L : OobLayout) (leftover : Leftover) (report : Report)
    (r : Ram) (f : Flash) (writeAddr remainLen : ℕ) (dat : Bytes) : Ram → Flash → Prop
  | programmed {f' : Flash}
      (step : FlashStep L leftover (pieceProgram g r writeAddr remainLen dat) f true f') :
      PieceStored g L leftover report r f writeAddr remainLen dat r f'
  | replaced {r' : Ram} {f₁ f' : Flash}
      (step : FlashStep L leftover (pieceProgram g r writeAddr remainLen dat) f false f₁)
      (told : report (pieceProgram g r writeAddr remainLen dat) false f₁.pages)
      (result : UpdateResult g L r (physicalAddr g r writeAddr / pageSize * pageSize) .writeFail
        (some dat) (some (pieceOob g r writeAddr)) f₁ true r' f') :
      PieceStored g L leftover report r f writeAddr remainLen dat r' f'

/-- The block of the page of a piece. -/
theorem piece_block (g : Geometry) (r : Ram) (writeAddr : ℕ) :
    physicalAddr g r writeAddr / pageSize / pagePerBlock = resolve g r (writeAddr / eraseSize) ∧
      physicalAddr g r writeAddr / pageSize * pageSize / eraseSize =
        resolve g r (writeAddr / eraseSize) := by
  have page := physicalAddr_block g r writeAddr
  exact ⟨page, (pageOffset_block _).trans page⟩

/-- The list does not notice that a piece is programmed. -/
theorem Faithful.programmed (faithful : Faithful g L list r f) {writeAddr remainLen : ℕ}
    {dat : Bytes} (inside : writeAddr / eraseSize < logicalBlocks g r)
    (step : FlashStep L leftover (pieceProgram g r writeAddr remainLen dat) f true f')
    (one : OneImage g L f'.pages) : Faithful g L list r f' := by
  obtain ⟨page, -⟩ := piece_block g r writeAddr
  have force := faithful.force.client step one (faithful.updatable inside) fun b changes =>
    changes.symm.trans page
  refine ⟨force.settle fun hb => ?_, faithful.past⟩
  have before := faithful.force.factory _ hb (Set.notMem_empty _)
  rw [← before, Listed, Listed]
  apply and_congr_left
  intro _
  rcases step.2 with ⟨-, rfl⟩ | ⟨no, -⟩
  · simp only [firstPage, Function.update_apply]
    split
    · next eq =>
        rw [← eq]
        apply marked_programmed
        exact writeOobBuf_zero ..
    · exact Iff.rfl
  · exact Bool.noConfusion no

/-- One piece of a write. -/
theorem reported_writePiece (tells : ∀ op answer pages, report op answer pages → OneImage g L pages)
    (small : g.bmtBlockCount ≤ 255) (system : ∀ b ∈ list, b < g.systemBlockCount) (depth : ℕ)
    {writeAddr remainLen : ℕ} {dat : Bytes} (faithful : Faithful g L list r f)
    (inside : writeAddr / eraseSize < logicalBlocks g r) :
    wp (ReportedStep L leftover report) (writePiece g depth writeAddr remainLen dat)
      (fun ok r' f' => ok = true →
        PieceStored g L leftover report r f writeAddr remainLen dat r' f' ∧
        Faithful g L list r' f' ∧ SameNumbers r r') r f := by
  have used := faithful.updatable inside
  have unlisted := faithful.resolve_unlisted system inside
  obtain ⟨page, offset⟩ := piece_block g r writeAddr
  rw [writePiece, wp_bind, wp_get, wp_bind, wp_perform]
  rintro ok f₁ ⟨step, told⟩
  have one := tells _ _ _ told
  cases ok with
  | true =>
      rw [if_pos rfl]
      exact fun _ => ⟨.programmed step, faithful.programmed inside step one, rfl, rfl⟩
  | false =>
      have force := faithful.force.client step one used fun b changes => changes.symm.trans page
      have failing : resolve g r (writeAddr / eraseSize) ∈ f₁.failed := by
        rcases step.2 with ⟨no, -⟩ | ⟨-, left, -, rfl⟩
        · exact Bool.noConfusion no
        · exact page ▸ Set.mem_insert _ _
      rw [if_neg (by simp)]
      rw [← offset] at force used unlisted failing
      apply wp_mono _ (reported_updateBmt tells small depth force faithful.past one used failing
        unlisted)
      intro ok r' f' updated done
      obtain ⟨result, kept⟩ := updated done
      exact ⟨.replaced step told result, kept⟩

theorem SameNumbers.trans {r'' : Ram} (h : SameNumbers r r') (h' : SameNumbers r' r'') :
    SameNumbers r r'' := ⟨h'.1.trans h.1, h'.2.trans h.2⟩

theorem SameNumbers.logicalBlocks (same : SameNumbers r r') :
    logicalBlocks g r' = logicalBlocks g r := by
  rw [Flash.logicalBlocks, Flash.logicalBlocks, same.1]

/-- `held` is kept by the pieces of a write that are stored. -/
def KeptByPieces (g : Geometry) (L : OobLayout) (leftover : Leftover) (report : Report)
    (list : List ℕ) (held : Ram → Flash → Prop) : Prop :=
  ∀ r f writeAddr remainLen dat r' f', Faithful g L list r f → held r f →
    writeAddr / eraseSize < logicalBlocks g r →
    PieceStored g L leftover report r f writeAddr remainLen dat r' f' → held r' f'

/-- The loop of `spi_nand_write_internal`. -/
theorem reported_writePieces
    (tells : ∀ op answer pages, report op answer pages → OneImage g L pages)
    {held : Ram → Flash → Prop} (stored : KeptByPieces g L leftover report list held)
    (small : g.bmtBlockCount ≤ 255) (system : ∀ b ∈ list, b < g.systemBlockCount) (depth len : ℕ)
    (buf : Bytes) (rounds : ℕ) {writeAddr remainLen : ℕ} (faithful : Faithful g L list r f)
    (now : held r f) (inside : writeAddr + remainLen ≤ logicalBlocks g r * eraseSize) :
    wp (ReportedStep L leftover report)
      (writePieces g depth len buf rounds writeAddr remainLen)
      (fun rtn r' f' => rtn = .noError → Faithful g L list r' f' ∧ held r' f') r f := by
  induction rounds generalizing r f writeAddr remainLen with
  | zero => exact fun _ => ⟨faithful, now⟩
  | succ rounds ih =>
      rw [writePieces]
      split
      · exact fun _ => ⟨faithful, now⟩
      next more =>
      have here : writeAddr / eraseSize < logicalBlocks g r := by
        apply Nat.div_lt_of_lt_mul
        rw [Nat.mul_comm]
        omega
      rw [wp_bind, wp_get, wp_bind]
      apply wp_mono _ (reported_writePiece tells small system depth faithful here)
      intro done r₁ f₁ kept
      cases done with
      | false => exact fun rtn => Rtn.noConfusion rtn
      | true =>
          obtain ⟨piece, faithful₁, same⟩ := kept rfl
          have now₁ := stored _ _ _ _ _ _ _ faithful now here piece
          have short :
              writeDataLen (physicalAddr g r writeAddr % pageSize) remainLen ≤ remainLen := by
            rw [writeDataLen]
            split
            · omega
            · exact le_rfl
          rw [if_pos rfl]
          exact ih faithful₁ now₁ (by rw [same.logicalBlocks]; omega)

/-- A block that carries data is erased. -/
theorem Faithful.erased (faithful : Faithful g L list r f)
    (system : ∀ b ∈ list, b < g.systemBlockCount) (inside : block < logicalBlocks g r)
    (step : FlashStep L leftover (.eraseBlock (resolve g r block)) f true f')
    (one : OneImage g L f'.pages) : Faithful g L list r f' := by
  have unlisted := faithful.resolve_unlisted system inside
  have force := faithful.force.client step one (faithful.updatable inside) fun b changes =>
    changes.symm
  refine ⟨force.settle fun _ => iff_of_false (fun listed => ?_) unlisted, faithful.past⟩
  rcases step with ⟨-, rfl⟩ | ⟨no, -⟩
  · have first : firstPage (fun p => if p / pagePerBlock = resolve g r block then .erased
        else f.pages p) (resolve g r block) = .erased := if_pos (pageAddr_div_self _)
    have marked := listed.1
    rw [first] at marked
    exact Page.erased_unmarked L .raw marked
  · exact Bool.noConfusion no

/-- The loop of `spi_nand_erase_internal`, from the tables `r₀` the call started with. -/
theorem reported_eraseBlocks {r₀ : Ram} (small : g.bmtBlockCount ≤ 255)
    (system : ∀ b ∈ list, b < g.systemBlockCount) (depth len : ℕ) (rounds : ℕ) {addr eraseLen : ℕ}
    (faithful : Faithful g L list r f) (numbers : SameNumbers r₀ r) (aligned : addr % eraseSize = 0)
    (inside : addr + (len - eraseLen) ≤ logicalBlocks g r * eraseSize)
    (rest : ∀ block < logicalBlocks g r, addr / eraseSize ≤ block →
      resolve g r block = resolve g r₀ block) :
    wp (ReportedStep L leftover (eraseReport g L r₀)) (eraseBlocks g depth len rounds addr eraseLen)
      (fun rtn r' f' => rtn = .noError → Faithful g L list r' f' ∧ SameNumbers r₀ r') r f := by
  induction rounds generalizing r f addr eraseLen with
  | zero => exact fun _ => ⟨faithful, numbers⟩
  | succ rounds ih =>
      have tells : ∀ op answer pages, eraseReport g L r₀ op answer pages → OneImage g L pages :=
        fun _ _ _ told => told.1
      rw [eraseBlocks]
      split
      swap
      · exact fun _ => ⟨faithful, numbers⟩
      next more =>
      have here : addr / eraseSize < logicalBlocks g r := by
        apply Nat.div_lt_of_lt_mul
        rw [Nat.mul_comm]
        omega
      have next : (addr + eraseSize) / eraseSize = addr / eraseSize + 1 :=
        Nat.add_div_right addr (by decide)
      have alignedNext : (addr + eraseSize) % eraseSize = 0 := by
        rw [Nat.add_mod_right, aligned]
      have insideNext : addr + eraseSize + (len - (eraseLen + eraseSize)) ≤
          logicalBlocks g r * eraseSize := by
        have whole : (addr / eraseSize + 1) * eraseSize ≤ logicalBlocks g r * eraseSize :=
          Nat.mul_le_mul_right _ here
        have split := Nat.div_add_mod' addr eraseSize
        rw [aligned, Nat.add_zero] at split
        rw [Nat.succ_mul, split] at whole
        omega
      rw [wp_bind, wp_get, wp_bind, wp_perform]
      rintro ok f₁ ⟨step, one, inPlace⟩
      cases ok with
      | true =>
          rw [if_pos rfl]
          apply ih (faithful.erased system here step one) numbers alignedNext insideNext
          intro block hb after
          exact rest block hb (by omega)
      | false =>
          -- the block stands for itself, so that its logical address is its physical one
          have target := rest _ here le_rfl
          have self : resolve g r (addr / eraseSize) = addr / eraseSize :=
            (inPlace rfl _ (numbers.logicalBlocks ▸ here) target.symm).symm
          have used := faithful.updatable here
          have unlisted := faithful.resolve_unlisted system here
          have force := faithful.force.client step one used fun b changes => changes.symm
          have failing : resolve g r (addr / eraseSize) ∈ f₁.failed := by
            rcases step with ⟨no, -⟩ | ⟨-, left, -, rfl⟩
            · exact Bool.noConfusion no
            · exact Set.mem_insert _ _
          obtain ⟨number, -⟩ := pBbt_of_resolve_self faithful.past.numbered
            faithful.force.consistent.disjoint here self
          have room := faithful.force.room small
          change InForce g L list {resolve g r (addr / eraseSize)} r f₁ at force
          rw [self] at force used unlisted failing
          rw [if_neg (by simp), wp_bind]
          apply wp_mono _ (reported_updateBmt tells small depth force faithful.past one used failing
            unlisted)
          intro replaced r₂ f₂ updated
          cases replaced with
          | false => exact fun rtn => Rtn.noConfusion rtn
          | true =>
              obtain ⟨result, faithful₂, same⟩ := updated rfl
              obtain ⟨m, bmt⟩ : ∃ m, r₂.bmt = r.bmt.remap g (addr / eraseSize) m := by
                cases result with
                | done _ _ tables _ _ => exact ⟨_, tables.bmt⟩
              have count := same.logicalBlocks (g := g)
              have sys : addr / eraseSize < g.systemBlockCount :=
                number ▸ faithful.past.numbered.lt here
              rw [if_pos rfl]
              apply ih faithful₂ (numbers.trans same) alignedNext (by rw [count]; exact insideNext)
              intro block hb after
              rw [count] at hb
              rw [← rest block hb (by omega)]
              apply resolve_remap_of_ne sys (room _ sys) bmt same.1 same.2 hb
              intro eq
              have twice := faithful.past.numbered.inj hb here (eq.trans number.symm)
              omega

end Calls

/-! ## The device in use -/

/-- The list is one the tables can hold, and the first search of
`create_badblock_table_by_bbt` finds its first block. -/
structure Numberable (g : Geometry) (list : List ℕ) : Prop where
  ordered : (scannedBlocks g).filter (· ∈ list) = list
  few : list.length < 256
  first : ∀ b ∈ list.head?, b < g.systemBlockCount - list.length

/-- The logical blocks are numbered, after the tables have been written out. -/
def numberedRam (g : Geometry) (r : Ram) : Ram :=
  { r with pBbt := createBadblockTableByBbt g.systemBlockCount r.initBbt r.pBbt }

/-- The device at the end of `spi_nand_setup`. -/
def numberedDevice (g : Geometry) (σ : Device) : Device := { σ with ram := numberedRam g σ.ram }

/-- `spi_nand_write_internal` stores a range of logical addresses, with any failures it
recovers. -/
structure WriteCall (g : Geometry) (env : Env) (leftover : Leftover) (σ : Device)
    (depth dstAddr len : ℕ) (buf : Bytes) (σ' : Device) : Prop where
  inside : dstAddr + len ≤ logicalBlocks g σ.ram * eraseSize
  run : CarefulRun env leftover (spiNandWriteInternal g depth dstAddr len buf) σ .noError σ'
  reported : Keeps (watchMachine env) (Reported env (writeReport g env.layout))
    (spiNandWriteInternal g depth dstAddr len buf) σ.ram (σ.spi, σ.failed)

/-- `spi_nand_erase_internal` erases a range of logical addresses, with any failures it
recovers. -/
structure EraseCall (g : Geometry) (env : Env) (leftover : Leftover) (σ : Device)
    (depth addr len : ℕ) (σ' : Device) : Prop where
  inside : addr + len ≤ logicalBlocks g σ.ram * eraseSize
  run : CarefulRun env leftover (spiNandEraseInternal g depth addr len) σ .noError σ'
  reported : Keeps (watchMachine env) (Reported env (eraseReport g env.layout σ.ram))
    (spiNandEraseInternal g depth addr len) σ.ram (σ.spi, σ.failed)

/-- The life of a device whose first start has computed the list. -/
inductive InUse (g : Geometry) (env : Env) (leftover : Leftover) (list : List ℕ) : Device → Prop
  /-- The first start: there is no bad-block table. -/
  | first {pages : ℕ → Page} {σ σ' : Device} {depth : ℕ} (bootable : Bootable g env.layout pages)
      (unlisted : ∀ b, g.InPool b → ¬ HoldsBbt g env.layout pages b)
      (boot : BootRun g env pages true σ) (computed : σ.ram.initBbt.bad = list)
      (few : (rawBad env.layout σ.spi.chip.pages σ.ram.bmt (scannedBlocks g)).length < 256)
      (front : ∀ b ∈ list.head?, b < g.systemBlockCount - list.length)
      (save : SaveRun g env leftover σ depth true σ') :
      InUse g env leftover list (numberedDevice g σ')
  | write {σ σ' : Device} {depth dstAddr len : ℕ} {buf : Bytes} (use : InUse g env leftover list σ)
      (write : WriteCall g env leftover σ depth dstAddr len buf σ') : InUse g env leftover list σ'
  | erase {σ σ' : Device} {depth addr len : ℕ} (use : InUse g env leftover list σ)
      (erase : EraseCall g env leftover σ depth addr len σ') : InUse g env leftover list σ'
  /-- A later start: a bad-block table that is found is the one that was written. This is asked
  of the start, as the pool also holds data of the client and what failed programs have left:
  neither may look like a table. -/
  | reboot {σ σ₁ σ' : Device} {depth : ℕ} (use : InUse g env leftover list σ)
      (written : ∀ b, g.InPool b → HoldsBbt g env.layout σ.spi.chip.pages b →
        imageBad (firstPage σ.spi.chip.pages b).data = list)
      (boot : BootRun g env σ.spi.chip.pages true σ₁)
      (save : SaveRun g env leftover σ₁ depth true σ') :
      InUse g env leftover list (numberedDevice g σ')

/-- A start that finds no bad-block table: `init_bmt`, then `reconstruct_bbt`. -/
def rebuildList (g : Geometry) : Drv Bool := do
  initBmt g
  reconstructBbt g

section Lists

variable {g : Geometry} {L : OobLayout} {list : List ℕ} {r : Ram} {pages : ℕ → Page}

/-- What the scan gives is in the order of the scan. -/
theorem filter_rawBad : (scannedBlocks g).filter (· ∈ rawBad L pages r.bmt (scannedBlocks g)) =
    rawBad L pages r.bmt (scannedBlocks g) := by
  rw [rawBad]
  apply List.filter_congr
  intro b hb
  simp only [List.mem_filter, hb, true_and, decide_eq_true_eq]

theorem Numberable.mem (numberable : Numberable g list) {b : ℕ} (mem : b ∈ list) :
    1 ≤ b ∧ b < g.systemBlockCount := by
  rw [← numberable.ordered] at mem
  exact mem_scannedBlocks.mp (List.mem_of_mem_filter mem)

/-- The blocks are numbered past the list. -/
theorem Numberable.past (numberable : Numberable g list) (bad : r.initBbt.bad = list) (old : ℕ → ℕ)
    (table : r.pBbt = createBadblockTableByBbt g.systemBlockCount r.initBbt old) :
    PastList g list r := by
  have total := g.totalBlockCount_le
  have split := g.system_add_pool
  have factory : FactoryList g.systemBlockCount r.initBbt := by
    refine ⟨?_, fun b hb => ?_⟩
    · have sorted : (scannedBlocks g).Pairwise (· < ·) := List.pairwise_lt_range'
      rw [bad, ← numberable.ordered]
      exact sorted.filter _
    · rw [bad] at hb
      obtain ⟨low, high⟩ := numberable.mem hb
      exact ⟨low, high, by omega⟩
  have count : r.initBbt.badblockCount = list.length := by
    rw [← bad, InitBbtStruct.length_bad]
  have enumerates := (createBadblockTableByBbt_enumerates_iff factory old).mpr
    ⟨by omega, by rw [bad, count]; exact numberable.first⟩
  rw [← table] at enumerates
  refine ⟨⟨factory, by omega, old, table⟩, fun block hb mem => ?_⟩
  have good := enumerates.bijOn.mapsTo (show block ∈ Set.Iio _ from hb)
  have low : ¬ g.systemBlockCount - r.initBbt.badblockCount ≤ block := not_le.mpr hb
  rw [getMappingBlockIndexByBbt, if_neg low, bad] at good
  exact good.2 mem

theorem consistent_numbered {f : Flash} (h : Consistent g L r f) (table : ℕ → ℕ) :
    Consistent g L { r with pBbt := table } f := by
  have inv := h.disjoint
  refine ⟨⟨inv.count_le, inv.mapped_mem, inv.mapped_inj, inv.bad_lt, inv.rest_zero, inv.bmt_apart⟩,
    h.counted, h.mirrored, h.good, fun erased => (h.ready erased).congr fun b => ?_⟩
  apply unused_congr <;> rfl

end Lists

section Life

variable {g : Geometry} {env : Env} {leftover : Leftover} {list : List ℕ} {σ σ' : Device}
variable (readable : ∀ t p, env.uncorrectable t p = false)

include readable in
theorem CarefulRun.reported {α : Type} {m : Drv α} {a : α} {report : Report}
    (run : CarefulRun env leftover m σ a σ')
    (reported : Keeps (watchMachine env) (Reported env report) m σ.ram (σ.spi, σ.failed))
    {post : α → Ram → Flash → Prop}
    (h : wp (ReportedStep env.layout leftover report) m post σ.ram σ.flash) :
    post a σ'.ram σ'.flash :=
  reported_exec readable h (Program.Keeps.and run.keeps reported) run.run

include readable in
/-- What the pieces of a write keep, the write keeps. -/
theorem WriteCall.keeps {report : Report} {held : Ram → Flash → Prop} {depth dstAddr len : ℕ}
    {buf : Bytes} (write : WriteCall g env leftover σ depth dstAddr len buf σ')
    (reported : Keeps (watchMachine env) (Reported env report)
      (spiNandWriteInternal g depth dstAddr len buf) σ.ram (σ.spi, σ.failed))
    (stored : KeptByPieces g env.layout leftover (writeReportAnd g env.layout report) list held)
    (small : g.bmtBlockCount ≤ 255) (numberable : Numberable g list)
    (before : Faithful g env.layout list σ.ram σ.flash) (now : held σ.ram σ.flash) :
    Faithful g env.layout list σ'.ram σ'.flash ∧ held σ'.ram σ'.flash := by
  have told : wp (ReportedStep env.layout leftover (writeReportAnd g env.layout report))
      (spiNandWriteInternal g depth dstAddr len buf) (fun rtn r' f' => rtn = .noError →
        Faithful g env.layout list r' f' ∧ held r' f') σ.ram σ.flash := by
    rw [spiNandWriteInternal, wp_bind, wp_perform]
    rintro _ f₁ ⟨rfl, -⟩
    apply reported_writePieces (fun _ _ _ told => told.1) stored small _ depth len buf len
      before now
      write.inside
    exact fun b hb => (numberable.mem hb).2
  have both : Keeps (watchMachine env) (Reported env (writeReportAnd g env.layout report))
      (spiNandWriteInternal g depth dstAddr len buf) σ.ram (σ.spi, σ.failed) :=
    Program.Keeps.mono (fun _ _ told => told) (Program.Keeps.and write.reported reported)
  exact CarefulRun.reported readable write.run both told rfl

include readable in
theorem WriteCall.faithful {depth dstAddr len : ℕ} {buf : Bytes}
    (write : WriteCall g env leftover σ depth dstAddr len buf σ') (small : g.bmtBlockCount ≤ 255)
    (numberable : Numberable g list) (before : Faithful g env.layout list σ.ram σ.flash) :
    Faithful g env.layout list σ'.ram σ'.flash := by
  have all : Keeps (watchMachine env) (Reported env fun _ _ _ => True)
      (spiNandWriteInternal g depth dstAddr len buf) σ.ram (σ.spi, σ.failed) :=
    Program.keeps_of_forall (fun _ _ => trivial) _ _
  have stored : KeptByPieces g env.layout leftover
      (writeReportAnd g env.layout fun _ _ _ => True) list (fun _ _ => True) :=
    fun _ _ _ _ _ _ _ _ _ _ _ => trivial
  exact (write.keeps readable all stored small numberable before trivial).1

include readable in
theorem EraseCall.faithful {depth addr len : ℕ}
    (erase : EraseCall g env leftover σ depth addr len σ')
    (small : g.bmtBlockCount ≤ 255) (numberable : Numberable g list)
    (before : Faithful g env.layout list σ.ram σ.flash) :
    Faithful g env.layout list σ'.ram σ'.flash := by
  have told : wp (ReportedStep env.layout leftover (eraseReport g env.layout σ.ram))
      (spiNandEraseInternal g depth addr len) (fun rtn r' f' => rtn = .noError →
        Faithful g env.layout list r' f' ∧ SameNumbers σ.ram r') σ.ram σ.flash := by
    rw [spiNandEraseInternal, wp_bind, wp_perform]
    rintro _ f₁ ⟨rfl, -⟩
    split
    · next aligned =>
      simp only [spiNandBlockAlignedCheck, Bool.and_eq_true, decide_eq_true_eq] at aligned
      apply reported_eraseBlocks small _ depth len len before ⟨rfl, rfl⟩ aligned.1 erase.inside
        fun _ _ _ => rfl
      exact fun b hb => (numberable.mem hb).2
    · exact fun rtn => Rtn.noConfusion rtn
  exact (CarefulRun.reported readable erase.run erase.reported told rfl).1

/-- What a start leaves, before the tables are written out. -/
structure Begun (g : Geometry) (L : OobLayout) (list : List ℕ) (r : Ram) (f : Flash) : Prop where
  consistent : Consistent g L r f
  table : r.needWriteBmtToNand = true ∨ g.InPool r.bmtBlockIndex ∧
    HoldsBmt g L f.pages r.bmtBlockIndex
  factory : ∀ b ∈ scannedBlocks g, Listed L r f.pages b ↔ b ∈ list
  bad : r.initBbt.bad = list

include readable in
/-- Writing the tables out completes a start. -/
theorem SaveRun.faithful {depth : ℕ} (save : SaveRun g env leftover σ depth true σ')
    (numberable : Numberable g list) (begun : Begun g env.layout list σ.ram σ.flash) :
    Faithful g env.layout list (numberedDevice g σ').ram (numberedDevice g σ').flash := by
  have saved := (save.saved readable begun.consistent).1
  obtain ⟨pool, stored⟩ := saved.stored rfl begun.table
  refine ⟨⟨consistent_numbered saved.consistent _, pool, stored, fun b hb _ => ?_⟩, ?_⟩
  · rw [← begun.factory b hb]
    have same := saved.same b (.inl (.inl (mem_scannedBlocks.mp hb).2))
    apply listed_congr same.firstPage
    show σ'.ram.bmt.isBadblockRaw b = true ↔ _
    rw [saved.bmt]
  · apply numberable.past _ σ'.ram.pBbt rfl
    show σ'.ram.initBbt.bad = list
    rw [saved.initBbt, begun.bad]

include readable in
/-- The first start. -/
theorem begun_first {pages : ℕ → Page} (bootable : Bootable g env.layout pages)
    (unlisted : ∀ b, g.InPool b → ¬ HoldsBbt g env.layout pages b)
    (boot : BootRun g env pages true σ)
    (few : (rawBad env.layout σ.spi.chip.pages σ.ram.bmt (scannedBlocks g)).length < 256) :
    Begun g env.layout σ.ram.initBbt.bad σ.ram σ.flash ∧
      σ.ram.initBbt.bad = rawBad env.layout σ.spi.chip.pages σ.ram.bmt (scannedBlocks g) := by
  have started := boot.started readable bootable
  have pool_same : ∀ {b}, g.InPool b → firstPage σ.flash.pages b = firstPage pages b :=
    fun pool => started.pool_same bootable pool
  have bad : σ.ram.initBbt.bad =
      rawBad env.layout σ.spi.chip.pages σ.ram.bmt (scannedBlocks g) := by
    cases started.bbtSource with
    | loaded pool holds _ _ _ =>
        apply absurd _ (unlisted _ pool)
        simpa only [HoldsBbt, BlockBad, pool_same pool] using holds
    | rebuilt _ _ initBbt _ => exact initBbt rfl few
  refine ⟨⟨started.consistent bootable boot.few _, ?_, fun b hb => ?_, rfl⟩, bad⟩
  · cases started.bmtSource with
    | loaded pool holds _ _ =>
        refine .inr ⟨pool, ?_⟩
        simpa only [HoldsBmt, BlockBad, pool_same pool] using holds
    | rebuilt _ _ _ need => exact .inl need
  · rw [bad, mem_rawBad]
    exact (and_iff_right hb).symm

/-- A driver that loads the stored table, and marks its bad blocks, scans the same list. -/
theorem InForce.factory_again {L : OobLayout} {r r₁ : Ram} {f : Flash} {pages₁ : ℕ → Page}
    (force : InForce g L list ∅ r f) (live : r₁.bmt.live = r.bmt.live)
    (untouched : ∀ p, p ∉ firstPagesOf (r₁.bmt.live.map (·.badIndex)) → pages₁ p = f.pages p) :
    ∀ b ∈ scannedBlocks g, Listed L r₁ pages₁ b ↔ b ∈ list := by
  intro b hb
  rw [← force.factory b hb (Set.notMem_empty b)]
  have keys : r₁.bmt.isBadblockRaw b = true ↔ r.bmt.isBadblockRaw b = true := by
    rw [BmtStruct.isBadblockRaw_iff, BmtStruct.isBadblockRaw_iff, live]
  by_cases key : r₁.bmt.isBadblockRaw b = true
  · apply listed_congr _ keys
    apply untouched
    rintro ⟨c, hc, eq⟩
    obtain rfl := pageAddr_inj.mp eq
    obtain ⟨e, he, rfl⟩ := List.mem_map.mp hc
    exact (BmtStruct.isBadblockRaw_iff _).mp key e he rfl
  · exact iff_of_false (fun listed => key listed.2) fun listed => key (keys.mpr listed.2)

include readable in
/-- A later start finds the table again, and leaves the pool alone. -/
theorem booted_table {σ₁ : Device} (before : Faithful g env.layout list σ.ram σ.flash)
    (boot : BootRun g env σ.spi.chip.pages true σ₁) :
    (g.InPool σ₁.ram.bmtBlockIndex ∧
      HoldsBmt g env.layout σ₁.flash.pages σ₁.ram.bmtBlockIndex) ∧
      σ₁.ram.bmt.live = σ.ram.bmt.live ∧
      (∀ b, g.InPool b → firstPage σ₁.flash.pages b = firstPage σ.spi.chip.pages b) ∧
      ∀ p, p ∉ firstPagesOf (σ₁.ram.bmt.live.map (·.badIndex)) →
        σ₁.flash.pages p = σ.flash.pages p := by
  have bootable := before.force.consistent.bootable
  have started := boot.started readable bootable
  have pool_same : ∀ b, g.InPool b → firstPage σ₁.flash.pages b = firstPage σ.spi.chip.pages b :=
    fun b pool => started.pool_same bootable pool
  refine ⟨?_, ?_, pool_same, started.untouched⟩
  · cases started.bmtSource with
    | loaded pool holds _ _ =>
        refine ⟨pool, ?_⟩
        simpa only [HoldsBmt, BlockBad, pool_same _ pool] using holds
    | rebuilt absent _ _ _ => exact absurd before.force.stored (absent _ before.force.pool)
  · cases started.bmtSource with
    | loaded pool holds bmt _ =>
        rw [bmt, live_load]
        exact (before.force.consistent.mirrored _ pool holds).2
    | rebuilt absent _ _ _ => exact absurd before.force.stored (absent _ before.force.pool)

include readable in
/-- A later start. -/
theorem begun_again {σ₁ : Device} (numberable : Numberable g list)
    (before : Faithful g env.layout list σ.ram σ.flash)
    (written : ∀ b, g.InPool b → HoldsBbt g env.layout σ.spi.chip.pages b →
      imageBad (firstPage σ.spi.chip.pages b).data = list)
    (boot : BootRun g env σ.spi.chip.pages true σ₁) :
    Begun g env.layout list σ₁.ram σ₁.flash := by
  have bootable := before.force.consistent.bootable
  have started := boot.started readable bootable
  obtain ⟨table, live, pool_same, untouched⟩ := booted_table readable before boot
  have factory := before.force.factory_again live untouched
  refine ⟨started.consistent bootable boot.few _, .inr table, factory, ?_⟩
  cases started.bbtSource with
  | loaded pool holds initBbt _ _ =>
      rw [initBbt, bad_load, pool_same _ pool]
      apply written _ pool
      simpa only [HoldsBbt, BlockBad, pool_same _ pool] using holds
  | rebuilt _ _ initBbt _ =>
      have again := rawBad_eq numberable.ordered factory
      have short := numberable.few
      rw [← again] at short
      exact (initBbt rfl short).trans again

include readable in
/-- The driver keeps to the list for the life of the device. -/
theorem InUse.faithful (use : InUse g env leftover list σ) (small : g.bmtBlockCount ≤ 255) :
    Numberable g list ∧ Faithful g env.layout list σ.ram σ.flash := by
  induction use with
  | first bootable unlisted boot computed few front save =>
      obtain ⟨begun, bad⟩ := begun_first readable bootable unlisted boot few
      rw [computed] at begun bad
      have numberable : Numberable g list := by
        refine ⟨?_, ?_, front⟩
        · rw [bad]
          exact filter_rawBad
        · rw [bad]
          exact few
      exact ⟨numberable, SaveRun.faithful readable save numberable begun⟩
  | write _ write ih => exact ⟨ih.1, write.faithful readable small ih.1 ih.2⟩
  | erase _ erase ih => exact ⟨ih.1, erase.faithful readable small ih.1 ih.2⟩
  | reboot _ written boot save ih =>
      have begun := begun_again readable ih.1 ih.2 written boot
      exact ⟨ih.1, SaveRun.faithful readable save ih.1 begun⟩

include readable in
/-- The list is the same at any time: after any run of writes, erases and restarts, a driver
that starts without its bad-block table scans the list of the first start. -/
theorem factory_list_stable (small : g.bmtBlockCount ≤ 255) (use : InUse g env leftover list σ)
    (cold : Spi) (r₀ : Ram) (pages : cold.chip.pages = σ.spi.chip.pages)
    (empty : cold.cache.pageNum = none) :
    ∃ r' s', exec (nandMachine env) (rebuildList g) r₀ cold = some (true, r', s') ∧
      r'.initBbt.bad = list := by
  obtain ⟨numberable, faithful⟩ := use.faithful readable small
  have force := faithful.force
  have start : cold.chip.pages = σ.flash.pages := pages
  have told : wp (DoubtStep env.layout) (rebuildList g)
      (fun done r' _ => done = true ∧ r'.initBbt.bad = list) r₀ ⟨cold.chip.pages, ∅⟩ := by
    have few : (∀ b, g.InPool b → ¬ HoldsBmt g env.layout cold.chip.pages b) →
        (backPointers g env.layout cold.chip.pages g.poolBlocks).length ≤ 255 := fun absent => by
      rw [start] at absent
      exact absurd force.stored (absent _ force.pool)
    rw [rebuildList, wp_bind]
    apply wp_mono _ (doubt_initBmt few fun b _ => Set.notMem_empty _)
    · intro _ r₁ d₁ started
      have live : r₁.bmt.live = σ.ram.bmt.live := by
        cases started.source with
        | loaded pool holds bmt _ =>
            rw [bmt, live_load]
            simp only [start] at holds ⊢
            exact (force.consistent.mirrored _ pool holds).2
        | rebuilt absent _ _ _ =>
            simp only [start] at absent
            exact absurd force.stored (absent _ force.pool)
      have untouched : ∀ p, p ∉ firstPagesOf (r₁.bmt.live.map (·.badIndex)) →
          d₁.pages p = σ.flash.pages p := fun p hp =>
            (started.touched.pages p hp).trans (congrFun start p)
      have again := rawBad_eq numberable.ordered (force.factory_again live untouched)
      apply wp_mono _ (doubt_reconstructBbt fun b _ doubtful =>
        key_of_touched rfl started.touched doubtful)
      rintro done r' d' ⟨-, -, -, lists⟩
      rw [again] at lists
      exact lists numberable.few
  obtain ⟨done, r', s', run⟩ := exists_exec_of_returns (nandMachine env)
    (returns_bind (returns_initBmt g) fun _ => returns_reconstructBbt g) r₀ cold
  obtain ⟨-, -, ok, bad⟩ := doubt_exec readable (doubts_of_cold empty) told run
  exact ⟨r', s', ok ▸ run, bad⟩

end Life

/-! ## Two runs -/

theorem oneImage_of_few {g : Geometry} {L : OobLayout} {pages : ℕ → Page}
    (few : (g.poolBlocks.filter fun b => HoldsBmt g L pages b).length ≤ 1) :
    OneImage g L pages := by
  intro b c hb hc holds holds'
  have mem : b ∈ g.poolBlocks.filter fun b => HoldsBmt g L pages b :=
    List.mem_filter.mpr ⟨g.mem_poolBlocks.mpr hb, decide_eq_true holds⟩
  have mem' : c ∈ g.poolBlocks.filter fun b => HoldsBmt g L pages b :=
    List.mem_filter.mpr ⟨g.mem_poolBlocks.mpr hc, decide_eq_true holds'⟩
  obtain ⟨d, list⟩ := List.length_eq_one_iff.mp (le_antisymm few (List.length_pos_of_mem mem))
  rw [list, List.mem_singleton] at mem mem'
  rw [mem, mem']

instance decidableErasesInPlace (g : Geometry) (r : Ram) :
    (op : NandOp) → (answer : NandResp op) → Decidable (ErasesInPlace g r op answer)
  | .eraseBlock _, ok => inferInstanceAs (Decidable (ok = false → _))
  | .readPage _, _ => .isTrue trivial
  | .checkBlockBad _ _, _ => .isTrue trivial
  | .markBadblock _ _, _ => .isTrue trivial
  | .writePage _ _ _ _ _ _, _ => .isTrue trivial
  | .clearCache, _ => .isTrue trivial

/-- A call is as an erase is to be, as far as it can be seen by making it. -/
def inOrder (r : Ram) (op : NandOp) (s : Spi) : Prop :=
  (eightBlocks.poolBlocks.filter fun b => HoldsBmt eightBlocks seventhFails.layout
      (nandMachine seventhFails op s).2.chip.pages b).length ≤ 1 ∧
    ErasesInPlace eightBlocks r op (nandMachine seventhFails op s).1

instance (r : Ram) (op : NandOp) (s : Spi) : Decidable (inOrder r op s) :=
  inferInstanceAs (Decidable (_ ∧ _))

theorem reported_of_inOrder {r₀ : Ram} {m : Drv Rtn} {r : Ram} {w : Watch}
    (h : Keeps (nandMachine seventhFails) (inOrder r₀) m r w.spi) :
    Keeps (watchMachine seventhFails)
      (Reported seventhFails (eraseReport eightBlocks seventhFails.layout r₀)) m
      (watchedDevice r w).ram ((watchedDevice r w).spi, (watchedDevice r w).failed) := by
  apply Program.Keeps.mono _
    (Program.keeps_withLedger (nandMachine seventhFails) noteFailed _ _ _ _ h)
  exact fun op w told => ⟨oneImage_of_few told.1, told.2⟩

/-- The first start on an erased chip with factory marks on blocks 1 and 7. -/
def listedStart : Option (Bool × Ram × Spi) :=
  exec (nandMachine seventhFails) (startTables eightBlocks) Ram.initial (factorySpi [1, 7])

/-- Nothing is known but which page is in memory. -/
def unwatched (s : Spi) : Watch := ⟨s, s.cache.pageNum.map fun p => (p, .broken), []⟩

theorem unwatched_describes (s : Spi) : (unwatched s).held.Describes seventhFails s := by
  rw [unwatched]
  cases page : s.cache.pageNum with
  | none => exact page
  | some p => exact page

/-- The tables are written out. -/
def listedSave : Option (Bool × Ram × Watch) := listedStart.bind fun out =>
  checkedRun seventhFails (fun _ => true) (writeBbtOrBmtToFlash eightBlocks 5) out.2.1
    (unwatched out.2.2)

/-- A byte is written. -/
def listedWrite : Option (Rtn × Ram × Watch) := listedSave.bind fun out =>
  checkedRun seventhFails (fun _ => true) (spiNandWriteInternal eightBlocks 5 0 1 fun _ => 0x42)
    (numberedRam eightBlocks out.2.1) out.2.2

/-- The erase of block 0 fails. -/
def listedErase : Option (Rtn × Ram × Watch) := listedWrite.bind fun out =>
  checkedRun seventhFails (fun _ => true) (eraseBlocksFrom 0 1) out.2.1 out.2.2

/-- The first start, with the tables written out. -/
theorem listed_begun : ∃ (σ : Device) (r : Ram) (w : Watch),
    BootRun eightBlocks seventhFails (factorySpi [1, 7]).chip.pages true σ ∧
    σ.ram.initBbt.bad = [1] ∧ (rawBad seventhFails.layout σ.spi.chip.pages σ.ram.bmt
      (scannedBlocks eightBlocks)).length < 256 ∧
    (∀ b < eightBlocks.systemBlockCount, b ∉ [1] →
      ¬ BlockBad seventhFails.layout σ.spi.chip.pages b) ∧
    SaveRun eightBlocks seventhFails anything σ 5 true (watchedDevice r w) ∧
    listedSave = some (true, r, w) ∧ w.held.Describes seventhFails w.spi := by
  have begun : listedStart.map (fun out => (out.1, out.2.1.initBbt.bad, out.2.1.bbtBlockIndex,
      decide ((rawBad seventhFails.layout out.2.2.chip.pages out.2.1.bmt
        (scannedBlocks eightBlocks)).length < 256),
      decide (∀ b < eightBlocks.systemBlockCount, b ∉ [1] →
        ¬ BlockBad seventhFails.layout out.2.2.chip.pages b))) =
      some (true, [1], 0, true, true) := by decide +kernel
  have told : listedSave.map (fun out => out.1) = some true := by decide +kernel
  obtain ⟨⟨done, r₀, s₀⟩, start, same⟩ := Option.map_eq_some_iff.mp begun
  simp only [Prod.mk.injEq, decide_eq_true_eq] at same
  obtain ⟨rfl, bad, index, few, clean⟩ := same
  obtain ⟨⟨saved, r, w⟩, save, rfl⟩ := Option.map_eq_some_iff.mp told
  have saveRun := save
  simp only [listedSave, start, Option.bind_some] at saveRun
  obtain ⟨careful, held⟩ := @carefulRun_of_checked _ seventhFails anything (fun _ _ => rfl) _
    (fun _ _ _ _ => trivial) _ _ _ _ _ _ (unwatched_describes s₀) saveRun
  have boot : BootRun eightBlocks seventhFails (factorySpi [1, 7]).chip.pages true
      (watchedDevice r₀ (unwatched s₀)) := by
    refine ⟨fun _ => (length_backPointers _).trans (by decide),
      ⟨factorySpi [1, 7], rfl, rfl, start⟩, ?_⟩
    exact Set.eq_empty_of_forall_notMem fun b => List.not_mem_nil
  exact ⟨_, r, w, boot, bad, few, clean, ⟨fun _ => index, careful⟩, save, held⟩

/-- The first write. -/
theorem listed_wrote {r : Ram} {w : Watch} (save : listedSave = some (true, r, w))
    (held : w.held.Describes seventhFails w.spi) : ∃ (r' : Ram) (w' : Watch),
    WriteCall eightBlocks seventhFails anything (numberedDevice eightBlocks (watchedDevice r w))
      5 0 1
      (fun _ => 0x42) (watchedDevice r' w') ∧
    listedWrite = some (.noError, r', w') ∧ w'.held.Describes seventhFails w'.spi := by
  have told : listedSave.map (fun out => (logicalBlocks eightBlocks out.2.1, decide (Keeps
      (nandMachine seventhFails) (inOrder (numberedRam eightBlocks out.2.1))
      (spiNandWriteInternal eightBlocks 5 0 1 fun _ => 0x42) (numberedRam eightBlocks out.2.1)
      out.2.2.spi))) = some (3, true) := by decide +kernel
  have wrote : listedWrite.map (fun out => out.1) = some .noError := by decide +kernel
  simp only [save, Option.map_some, Option.some.injEq, Prod.mk.injEq, decide_eq_true_eq] at told
  obtain ⟨size, ordered⟩ := told
  obtain ⟨⟨written, r', w'⟩, write, rfl⟩ := Option.map_eq_some_iff.mp wrote
  have writeRun := write
  simp only [listedWrite, save, Option.bind_some] at writeRun
  obtain ⟨careful, held'⟩ := @carefulRun_of_checked _ seventhFails anything (fun _ _ => rfl) _
    (fun _ _ _ _ => trivial) _ _ _ _ _ _ held writeRun
  have inside : 0 + 1 ≤ logicalBlocks eightBlocks r * eraseSize := by
    rw [size]
    decide
  exact ⟨r', w', ⟨inside, careful, Program.Keeps.mono (fun _ _ told => told.1)
    (reported_of_inOrder ordered)⟩, write, held'⟩

/-- Block 5 takes the place of block 0, and the list is still that of the first start. -/
theorem listed_inUse : ∃ σ : Device, σ.ram.bmt.live = [⟨0, 5⟩] ∧
    InUse eightBlocks seventhFails anything [1] σ := by
  obtain ⟨σ, r, w, boot, bad, few, -, save, saved, held⟩ := listed_begun
  obtain ⟨r₁, w₁, write, wrote, held₁⟩ := listed_wrote saved held
  have told : listedWrite.map (fun out => (logicalBlocks eightBlocks out.2.1, decide (Keeps
      (nandMachine seventhFails) (inOrder out.2.1) (eraseBlocksFrom 0 1) out.2.1 out.2.2.spi))) =
      some (3, true) := by decide +kernel
  have ended : listedErase.map (fun out => (out.1, out.2.1.bmt.live)) =
      some (.noError, [⟨0, 5⟩]) := by decide +kernel
  simp only [wrote, Option.map_some, Option.some.injEq, Prod.mk.injEq, decide_eq_true_eq] at told
  obtain ⟨size, ordered⟩ := told
  obtain ⟨⟨erased, r₂, w₂⟩, erase, same⟩ := Option.map_eq_some_iff.mp ended
  simp only [Prod.mk.injEq] at same
  obtain ⟨rfl, live⟩ := same
  simp only [listedErase, wrote, Option.bind_some] at erase
  obtain ⟨careful, -⟩ := @carefulRun_of_checked _ seventhFails anything (fun _ _ => rfl) _
    (fun _ _ _ _ => trivial) _ _ _ _ _ _ held₁ erase
  have blank := factorySpi_holds_no_table eightBlocks seventhFails.layout [1, 7]
  have bootable := bootable_of_absent fun b (_ : eightBlocks.InPool b) => (blank b).1
  have first := InUse.first bootable (fun b _ => (blank b).2) boot bad few (by decide) save
  exact ⟨_, live, (first.write write).erase
    ⟨size ▸ by decide, careful, reported_of_inOrder ordered⟩⟩

theorem factory_list_stable_recovered : ∃ σ : Device, σ.ram.bmt.live = [⟨0, 5⟩] ∧
    ∃ r s, exec (nandMachine seventhFails) (rebuildList eightBlocks) Ram.initial
      ⟨σ.spi.chip, .initial⟩ = some (true, r, s) ∧ r.initBbt.bad = [1] := by
  obtain ⟨σ, live, use⟩ := listed_inUse
  exact ⟨σ, live, factory_list_stable (fun _ _ => rfl) (by decide) use ⟨σ.spi.chip, .initial⟩
    Ram.initial rfl rfl⟩

/-- With block 1 bad from the factory, logical block 1 is physical block 2. When its erase
fails, block 1 gets the entry, and the next scan does not list it any more. -/
theorem factory_list_lost : ∃ r s r' s', setUp [1] = some (true, r, s) ∧ r.initBbt.bad = [1] ∧
    1 + 1 ≤ logicalBlocks eightBlocks r ∧
    exec (nandMachine seventhFails) (eraseBlocksFrom 1 1) r s = some (.noError, r', s') ∧
    Keeps (nandMachine seventhFails) (Candid seventhFails) (eraseBlocksFrom 1 1) r s ∧
    ∃ r'' s'', exec (nandMachine seventhFails) (rebuildList eightBlocks) Ram.initial
      ⟨s'.chip, .initial⟩ = some (true, r'', s'') ∧ r''.initBbt.bad = [] := by
  have begun : (setUp [1]).map (fun out => (out.1, out.2.1.initBbt.bad,
      logicalBlocks eightBlocks out.2.1, decide (Keeps (nandMachine seventhFails)
        (Candid seventhFails) (eraseBlocksFrom 1 1) out.2.1 out.2.2))) =
      some (true, [1], 3, true) := by decide +kernel
  have told : ((setUp [1]).bind fun out => exec (nandMachine seventhFails) (eraseBlocksFrom 1 1)
      out.2.1 out.2.2).map (fun out => (out.1, (exec (nandMachine seventhFails)
        (rebuildList eightBlocks) Ram.initial ⟨out.2.2.chip, .initial⟩).map fun out' =>
          (out'.1, out'.2.1.initBbt.bad))) = some (.noError, some (true, [])) := by decide +kernel
  obtain ⟨⟨done, r, s⟩, first, same⟩ := Option.map_eq_some_iff.mp begun
  simp only [Prod.mk.injEq, decide_eq_true_eq] at same
  obtain ⟨rfl, bad, size, candid⟩ := same
  obtain ⟨⟨rtn, r', s'⟩, second, same⟩ := Option.map_eq_some_iff.mp told
  simp only [first, Option.bind_some] at second
  simp only [Prod.mk.injEq] at same
  obtain ⟨rfl, again⟩ := same
  obtain ⟨⟨rebuilt, r'', s''⟩, third, same⟩ := Option.map_eq_some_iff.mp again
  simp only [Prod.mk.injEq] at same
  obtain ⟨rfl, gone⟩ := same
  exact ⟨r, s, r', s', first, bad, size ▸ by decide, second, candid, r'', s'', third, gone⟩

end En7512.Flash
