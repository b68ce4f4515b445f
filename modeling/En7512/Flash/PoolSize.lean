/-
# The size of the replacement pool

`calc_bmt_pool_size` counts blocks without a factory mark from the end of the chip
until there are enough of them, and the pool is what it has passed. Nothing is stored:
the size is counted anew at every start.

From the first start on, the count stays the same as long as no page with a factory
mark is moved into the pool.
-/

import En7512.Bmt.Atomicity
import En7512.Bmt.FactoryMarks
import En7512.Flash.Internal

namespace En7512.Flash

open En7512.Logic En7512.Nand En7512.Bmt En7512.Logic.Routine

/-- `need_valid_block_num`, a `u16`. -/
def needValidBlockNum (totalBlock : ℕ) : ℕ := totalBlock * 8 / 100 % 65536

/-- `maximum_bmt_block_count`. -/
def maximumBmtBlockCount (totalBlock : ℕ) : ℕ := totalBlock * 1 / 10

/-- The loop of `calc_bmt_pool_size`, from `last_block` and `valid_block_num`, a `u16`. -/
def calcPoolFrom (totalBlock : ℕ) : ℕ → ℕ → Drv ℕ
  | 0, _ => pure totalBlock
  | lastBlock + 1, validBlockNum => do
      let bad ← Routine.perform (NandOp.checkBlockBad (blockOffset (lastBlock + 1)) .raw)
      if bad then calcPoolFrom totalBlock lastBlock validBlockNum
      else
        let validBlockNum := (validBlockNum + 1) % 65536
        if validBlockNum = needValidBlockNum totalBlock then pure (totalBlock - (lastBlock + 1))
        else calcPoolFrom totalBlock lastBlock validBlockNum

/-- `calc_bmt_pool_size`, for a chip with blocks. -/
def calcBmtPoolSize (totalBlock : ℕ) : Drv ℕ := calcPoolFrom totalBlock (totalBlock - 1) 0

/-! ## The count -/

/-- The block at which the loop ends, on a chip whose factory marks are those of `bad`. -/
def endOfCount (bad : ℕ → Prop) [DecidablePred bad] (need : ℕ) : ℕ → ℕ → ℕ
  | 0, _ => 0
  | last + 1, valid =>
      if bad (last + 1) then endOfCount bad need last valid
      else if (valid + 1) % 65536 = need then last + 1
      else endOfCount bad need last ((valid + 1) % 65536)

section Count

variable {bad bad' : ℕ → Prop} [DecidablePred bad] [DecidablePred bad'] {need : ℕ}

theorem endOfCount_le (last valid : ℕ) : endOfCount bad need last valid ≤ last := by
  induction last generalizing valid with
  | zero => exact le_rfl
  | succ last ih =>
      rw [endOfCount]
      split
      · exact (ih _).trans (Nat.le_succ last)
      split
      · exact le_rfl
      · exact (ih _).trans (Nat.le_succ last)

/-- The loop does not look at the blocks before its end. -/
theorem endOfCount_congr (last valid : ℕ)
    (same : ∀ b, endOfCount bad need last valid ≤ b → b ≤ last → (bad' b ↔ bad b)) :
    endOfCount bad' need last valid = endOfCount bad need last valid := by
  induction last generalizing valid with
  | zero => rfl
  | succ last ih =>
      have here := same (last + 1) (endOfCount_le _ _) le_rfl
      rw [endOfCount] at same
      rw [endOfCount, endOfCount]
      by_cases marked : bad (last + 1)
      · rw [if_pos marked] at same
        rw [if_pos (here.mpr marked), if_pos marked]
        exact ih valid fun b low high => same b low (high.trans (Nat.le_succ last))
      rw [if_neg marked] at same
      rw [if_neg fun h => marked (here.mp h), if_neg marked]
      by_cases enough : (valid + 1) % 65536 = need
      · rw [if_pos enough, if_pos enough]
      · rw [if_neg enough] at same
        rw [if_neg enough, if_neg enough]
        exact ih _ fun b low high => same b low (high.trans (Nat.le_succ last))

end Count

/-- The block at which the pool begins, as the flash has it. -/
def poolStart (L : OobLayout) (totalBlock : ℕ) (pages : ℕ → Page) : ℕ :=
  endOfCount (fun b => (firstPage pages b).Marked L .raw) (needValidBlockNum totalBlock)
    (totalBlock - 1) 0

section Run

variable {env : Env} {totalBlock : ℕ} {r : Ram} {s : Spi} {d : Doubt}
variable (readable : ∀ t p, env.uncorrectable t p = false)

include readable in
/-- From a cold start the function counts the marks that are on the flash. It reads
pages only. -/
theorem calcPoolFrom_exec (clean : d.doubt = ∅) (fit : totalBlock * eraseSize ≤ 2 ^ 31)
    (last valid : ℕ) (inside : last < totalBlock) (rel : Doubts env s d) :
    ∃ s', exec (nandMachine env) (calcPoolFrom totalBlock last valid) r s = some (totalBlock -
        endOfCount (fun b => (firstPage d.pages b).Marked env.layout .raw)
          (needValidBlockNum totalBlock) last valid, r, s') ∧
      Doubts env s' d ∧
      ∀ g factory, Border g env factory s → Border g env factory s' := by
  induction last generalizing s valid with
  | zero => exact ⟨s, rfl, rel, fun _ _ border => border⟩
  | succ last ih =>
      have inside' : last < totalBlock := (Nat.lt_succ_self last).trans inside
      -- the one call of the round
      obtain ⟨d', ⟨rfl, told⟩, rel'⟩ := nand_doubtStep readable
        (.checkBlockBad (blockOffset (last + 1)) .raw) rel
      have offset : foldReserved (blockOffset (last + 1)) / pageSize = pageAddr (last + 1) := by
        rw [foldReserved_of_lt, blockOffset_div_page]
        apply lt_of_lt_of_le _ fit
        exact Nat.mul_lt_mul_of_pos_right inside (by decide)
      rw [offset, clean] at told
      have told : _ ↔ (firstPage d'.pages (last + 1)).Marked env.layout .raw :=
        told (Set.notMem_empty _)
      have round : ∀ g factory, Border g env factory s → Border g env factory
          (nandMachine env (.checkBlockBad (blockOffset (last + 1)) .raw) s).2 :=
        fun g factory border => border_read readable border _
      generalize answer : nandMachine env (.checkBlockBad (blockOffset (last + 1)) .raw) s = out
        at told rel' round
      obtain ⟨marked, s₁⟩ := out
      have step : exec (nandMachine env) (calcPoolFrom totalBlock (last + 1) valid) r s =
          exec (nandMachine env) (if marked then calcPoolFrom totalBlock last valid
            else if (valid + 1) % 65536 = needValidBlockNum totalBlock then
              pure (totalBlock - (last + 1))
            else calcPoolFrom totalBlock last ((valid + 1) % 65536)) r s₁ := by
        rw [calcPoolFrom, exec_bind, exec_perform, answer]
        rfl
      have again : ∀ valid, ∃ s', exec (nandMachine env) (calcPoolFrom totalBlock last valid) r s₁ =
          some (totalBlock - endOfCount (fun b => (firstPage d'.pages b).Marked env.layout .raw)
            (needValidBlockNum totalBlock) last valid, r, s') ∧ Doubts env s' d' ∧
          ∀ g factory, Border g env factory s → Border g env factory s' := by
        intro valid
        obtain ⟨s', run, rel'', border⟩ := ih valid inside' rel'
        exact ⟨s', run, rel'', fun g factory before => border g factory (round g factory before)⟩
      rw [step, endOfCount]
      cases marked with
      | true =>
          rw [if_pos rfl, if_pos (told.mp rfl)]
          exact again valid
      | false =>
          rw [if_neg (by simp), if_neg fun h => Bool.noConfusion (told.mpr h)]
          by_cases enough : (valid + 1) % 65536 = needValidBlockNum totalBlock
          · rw [if_pos enough, if_pos enough]
            exact ⟨s₁, rfl, rel', round⟩
          · rw [if_neg enough, if_neg enough]
            exact again _

include readable in
theorem calcBmtPoolSize_exec (fit : totalBlock * eraseSize ≤ 2 ^ 31) (pos : 0 < totalBlock)
    (cold : s.cache.pageNum = none) :
    ∃ s', exec (nandMachine env) (calcBmtPoolSize totalBlock) r s =
        some (totalBlock - poolStart env.layout totalBlock s.chip.pages, r, s') ∧
      Doubts env s' ⟨s.chip.pages, ∅⟩ ∧
      ∀ g factory, Border g env factory s → Border g env factory s' :=
  calcPoolFrom_exec readable rfl fit (totalBlock - 1) 0 (Nat.sub_lt pos Nat.one_pos)
    (doubts_of_cold cold)

end Run

/-! ## Operation -/

/-- The driver with its tables, when start-up has succeeded, and the chip. -/
structure Host where
  driver : Option (Geometry × Ram)
  spi : Spi

/-- Without power, nothing is in memory. -/
def powerOff (s : Spi) : Spi := ⟨s.chip, Cache.initial⟩

/-- What is asked of a run: of each call of the page layer, of the flash at each start, and
of the spare area a caller hands over with the address of a write that has failed. -/
structure Conduct where
  calls : NandOp → Spi → Prop
  images : Geometry → (ℕ → Page) → Prop
  spare : ℕ → Option Bytes → Prop

/-- Failed operations clear no bit that was not being programmed. -/
def gentleConduct (env : Env) : Conduct := ⟨Gentle env, fun _ _ => True, fun _ _ => True⟩

/-- No page with a factory mark is moved; the stored tables map system blocks to blocks of
the pool without a factory mark; and nobody asks for a mark on a first page. -/
def orderlyConduct (env : Env) : Conduct where
  calls := Orderly env
  images g pages := StoredApart g env.layout
    {b | g.InPool b ∧ (firstPage pages b).Marked env.layout .raw} pages
  spare offset oob := offset / pageSize % pagePerBlock = 0 → ∀ o ∈ oob, o 0 = 0xff

/-- A start, with the size that `calc_bmt_pool_size` returns. -/
inductive BootUp (c : Conduct) (env : Env) (totalBlock : ℕ) (s : Spi) (size : ℕ) : Host → Prop
  /-- `spi_nand_setup` and `init_bmt` refuse a pool that is too large. -/
  | refused {s₁ : Spi} (tooLarge : maximumBmtBlockCount totalBlock < size ∨ maxBmtSize ≤ size)
      (counted : exec (nandMachine env) (calcBmtPoolSize totalBlock) Ram.initial s =
        some (size, Ram.initial, s₁)) :
      BootUp c env totalBlock s size ⟨none, s₁⟩
  | setUp {s₁ s₂ : Spi} {g : Geometry} {depth : ℕ} {done : Bool} {r : Ram}
      (counted : exec (nandMachine env) (calcBmtPoolSize totalBlock) Ram.initial s =
        some (size, Ram.initial, s₁))
      (allowed : size ≤ maximumBmtBlockCount totalBlock)
      (total : g.totalBlockCount = totalBlock) (pool : g.bmtBlockCount = size)
      (images : c.images g s.chip.pages)
      (calls : Keeps (nandMachine env) c.calls (spiNandSetup g depth) Ram.initial s₁)
      (run : exec (nandMachine env) (spiNandSetup g depth) Ram.initial s₁ = some (done, r, s₂)) :
      BootUp c env totalBlock s size ⟨if done then some (g, r) else none, s₂⟩

/-- The states the driver goes through, from a first start with a pool of `size` blocks. -/
inductive Operated (c : Conduct) (env : Env) (totalBlock size : ℕ) : Host → Prop
  | first {s : Spi} {h : Host} (boot : BootUp c env totalBlock (powerOff s) size h) :
      Operated c env totalBlock size h
  | reboot {h h' : Host} {size' : ℕ} (before : Operated c env totalBlock size h)
      (boot : BootUp c env totalBlock (powerOff h.spi) size' h') : Operated c env totalBlock size h'
  | read {s : Spi} {g : Geometry} {r : Ram} {addr len : ℕ} {out : Bytes}
      (before : Operated c env totalBlock size ⟨some (g, r), s⟩) :
      Operated c env totalBlock size
        ⟨some (g, r), (spiNandReadInternal env g r addr len out s).2.2⟩
  | write {s s' : Spi} {g : Geometry} {r r' : Ram} {depth addr len : ℕ} {buf : Bytes} {rtn : Rtn}
      (before : Operated c env totalBlock size ⟨some (g, r), s⟩)
      (inside : addr + len ≤ (g.systemBlockCount - r.initBbt.badblockCount) * eraseSize)
      (calls : Keeps (nandMachine env) c.calls (spiNandWriteInternal g depth addr len buf) r s)
      (run : exec (nandMachine env) (spiNandWriteInternal g depth addr len buf) r s =
        some (rtn, r', s')) :
      Operated c env totalBlock size ⟨some (g, r'), s'⟩
  | erase {s s' : Spi} {g : Geometry} {r r' : Ram} {depth addr len : ℕ} {rtn : Rtn}
      (before : Operated c env totalBlock size ⟨some (g, r), s⟩)
      (inside : addr + len ≤ (g.systemBlockCount - r.initBbt.badblockCount) * eraseSize)
      (calls : Keeps (nandMachine env) c.calls (spiNandEraseInternal g depth addr len) r s)
      (run : exec (nandMachine env) (spiNandEraseInternal g depth addr len) r s =
        some (rtn, r', s')) :
      Operated c env totalBlock size ⟨some (g, r'), s'⟩
  | update {s s' : Spi} {g : Geometry} {r r' : Ram} {depth offset : ℕ} {reason : UpdateReason}
      {dat oob : Option Bytes} {done : Bool}
      (before : Operated c env totalBlock size ⟨some (g, r), s⟩)
      (updatable : Updatable g r (offset / eraseSize)) (spare : c.spare offset oob)
      (calls : Keeps (nandMachine env) c.calls (updateBmt g depth offset reason dat oob) r s)
      (run : exec (nandMachine env) (updateBmt g depth offset reason dat oob) r s =
        some (done, r', s')) :
      Operated c env totalBlock size ⟨some (g, r'), s'⟩

/-! ## What each operation keeps -/

/-- The driver in use: no table names a block with a factory mark, and the logical blocks
are numbered with system blocks. -/
structure Serving (g : Geometry) (env : Env) (factory : Set ℕ) (r : Ram) (s : Spi) : Prop where
  tables : TablesApart g factory r
  border : Border g env factory s
  numbered : Numbered g r

section Serving

variable {g : Geometry} {env : Env} {factory : Set ℕ} {r : Ram} {s : Spi}

/-- `update_bmt` leaves the numbering of the logical blocks alone. -/
theorem updateBmt_numbering (depth offset : ℕ) (reason : UpdateReason) (dat oob : Option Bytes) :
    Ensures (updateBmt g depth offset reason dat oob) r
      fun _ r' => r'.initBbt = r.initBbt ∧ r'.pBbt = r.pBbt := by
  rw [updateBmt, ensures_bind]
  apply ensures_mono _ (replacementBlock_ensures g depth offset reason dat oob)
  rintro block r₁ ⟨same, -⟩
  split
  · exact ⟨same.initBbt, same.pBbt⟩
  rw [ensures_bind, ensures_modify, ensures_bind, fillBmtBuffers, ensures_modify, ensures_bind,
    ensures_get, ensures_bind]
  apply ensures_mono _ (writeBmtToFlash_ensures g depth _ _)
  intro written r₂ moved
  have kept : r₂.initBbt = r.initBbt ∧ r₂.pBbt = r.pBbt :=
    ⟨moved.initBbt.trans same.initBbt, moved.pBbt.trans same.pBbt⟩
  cases written with
  | false => exact kept
  | true =>
      rw [if_pos rfl, ensures_bind]
      apply ensures_mono _ (markBlockBadBmt_ensures _ _)
      rintro _ r₃ rfl
      exact kept

/-- The block of a logical address is one that `update_bmt` may be called for. -/
theorem Serving.updatable (serving : Serving g env factory r s) {index : ℕ}
    (inside : index < g.systemBlockCount - r.initBbt.badblockCount) :
    Updatable g r (getMappingBlockIndex g r index).1 := by
  have system : getMappingBlockIndexByBbt g.systemBlockCount r.initBbt r.pBbt index <
      g.systemBlockCount := by
    rw [getMappingBlockIndexByBbt, if_neg (not_le.mpr inside)]
    exact serving.numbered index inside
  rw [getMappingBlockIndex, getMappingBlockIndexByBmt, if_neg (not_le.mpr system)]
  cases found : r.bmt.lookup (getMappingBlockIndexByBbt g.systemBlockCount r.initBbt r.pBbt index)
  with
  | none => exact .inl system
  | some e =>
      have live := (r.bmt.lookup_some found).1
      exact .inr ⟨(serving.tables.entries e live).2.1, r.bmt.isBlockMapped_iff.mpr ⟨e, live, rfl⟩⟩

theorem writeOobBuf_zero (g : Geometry) (block phyBlockBbt : ℕ) :
    writeOobBuf g block phyBlockBbt 0 = 0xff := by
  rw [writeOobBuf]
  split
  · simp [putU16, allOnes]
  · rfl

variable (readable : ∀ t p, env.uncorrectable t p = false)
variable (inPool : ∀ b ∈ factory, g.InPool b)

include readable inPool

theorem orderly_serveUpdate (depth : ℕ) {offset : ℕ} {reason : UpdateReason}
    {dat oob : Option Bytes} (updatable : Updatable g r (offset / eraseSize))
    (caller : offset / pageSize % pagePerBlock = 0 → ∀ o ∈ oob, o 0 = 0xff)
    (serving : Serving g env factory r s) :
    wp (orderlyRules env) (updateBmt g depth offset reason dat oob) (fun _ r' s' =>
      Serving g env factory r' s' ∧ r'.initBbt = r.initBbt) r s := by
  apply wp_mono _ (wp_and
    (orderly_updateBmt readable inPool depth updatable caller serving.tables serving.border)
    (wp_of_ensures (updateBmt_numbering depth offset reason dat oob)))
  rintro _ r' s' ⟨⟨tables, border⟩, bbt, pBbt⟩
  refine ⟨⟨tables, border, ?_⟩, bbt⟩
  rw [Numbered, bbt, pBbt]
  exact serving.numbered

theorem orderly_writePiece (depth : ℕ) {writeAddr remainLen : ℕ} {dat : Bytes}
    (inside : writeAddr / eraseSize < g.systemBlockCount - r.initBbt.badblockCount)
    (serving : Serving g env factory r s) :
    wp (orderlyRules env) (writePiece g depth writeAddr remainLen dat) (fun _ r' s' =>
      Serving g env factory r' s' ∧ r'.initBbt = r.initBbt) r s := by
  have updatable := serving.updatable inside
  have out := serving.tables.updatable inPool updatable
  have block := physicalAddr_block g r writeAddr
  rw [writePiece, wp_bind, wp_get, wp_bind]
  apply orderly_perform readable inPool serving.border
  · intro b _ eq
    rw [eq, pageAddr_div_self] at block
    exact ⟨block ▸ out, writeOobBuf_zero ..⟩
  · intro written s₁ _ border₁ _
    have serving₁ : Serving g env factory r s₁ := ⟨serving.tables, border₁, serving.numbered⟩
    cases written with
    | true => exact ⟨serving₁, rfl⟩
    | false =>
        apply orderly_serveUpdate readable inPool depth _ _ serving₁
        · rw [pageOffset_block, block]
          exact updatable
        · rintro _ o ho
          obtain rfl := Option.some.inj ho
          exact writeOobBuf_zero ..

theorem orderly_writePieces (depth len : ℕ) (buf : Bytes) {limit : ℕ}
    (rounds writeAddr remainLen : ℕ)
    (inside : writeAddr + remainLen ≤ limit * eraseSize)
    (served : limit = g.systemBlockCount - r.initBbt.badblockCount)
    (serving : Serving g env factory r s) :
    wp (orderlyRules env) (writePieces g depth len buf rounds writeAddr remainLen)
      (fun _ => Serving g env factory) r s := by
  induction rounds generalizing r s writeAddr remainLen with
  | zero => exact serving
  | succ rounds ih =>
      rw [writePieces]
      split
      · exact serving
      next some =>
        rw [wp_bind, wp_get, wp_bind]
        have index : writeAddr / eraseSize < g.systemBlockCount - r.initBbt.badblockCount := by
          rw [← served, Nat.div_lt_iff_lt_mul (by decide)]
          omega
        apply wp_mono _ (orderly_writePiece readable inPool depth index serving)
        rintro stored r₁ s₁ ⟨serving₁, bbt⟩
        cases stored with
        | false => exact serving₁
        | true =>
            have short : writeDataLen (physicalAddr g r writeAddr % pageSize) remainLen ≤
                remainLen := by
              rw [writeDataLen]
              split <;> omega
            apply ih _ _ _ (bbt ▸ served) serving₁
            omega

theorem orderly_spiNandWriteInternal (depth : ℕ) {addr len : ℕ} (buf : Bytes)
    (inside : addr + len ≤ (g.systemBlockCount - r.initBbt.badblockCount) * eraseSize)
    (serving : Serving g env factory r s) :
    wp (orderlyRules env) (spiNandWriteInternal g depth addr len buf)
      (fun _ => Serving g env factory) r s := by
  rw [spiNandWriteInternal, wp_bind]
  apply orderly_perform readable inPool serving.border
  · trivial
  · intro _ s₁ _ border₁ _
    exact orderly_writePieces readable inPool depth len buf len addr len inside rfl
      ⟨serving.tables, border₁, serving.numbered⟩

theorem orderly_eraseBlocks (depth len : ℕ) {limit start : ℕ} (rounds addr eraseLen : ℕ)
    (here : addr = start + eraseLen)
    (inside : start + len ≤ limit * eraseSize)
    (served : limit = g.systemBlockCount - r.initBbt.badblockCount)
    (serving : Serving g env factory r s) :
    wp (orderlyRules env) (eraseBlocks g depth len rounds addr eraseLen)
      (fun _ => Serving g env factory) r s := by
  induction rounds generalizing r s addr eraseLen with
  | zero => exact serving
  | succ rounds ih =>
      rw [eraseBlocks]
      split
      · next more =>
        rw [wp_bind, wp_get, wp_bind]
        have index : addr / eraseSize < g.systemBlockCount - r.initBbt.badblockCount := by
          rw [← served, Nat.div_lt_iff_lt_mul (by decide)]
          omega
        have out := serving.tables.updatable inPool (serving.updatable index)
        have next : addr + eraseSize = start + (eraseLen + eraseSize) := by omega
        apply orderly_perform readable inPool serving.border
        · exact out
        intro erased s₁ _ border₁ _
        have serving₁ : Serving g env factory r s₁ := ⟨serving.tables, border₁, serving.numbered⟩
        cases erased with
        | true => exact ih _ _ next served serving₁
        | false =>
            rw [if_neg (by simp), wp_bind]
            apply wp_mono _ (orderly_serveUpdate readable inPool depth
              (.inl (index.trans_le (Nat.sub_le ..))) (fun _ _ h => by cases h) serving₁)
            rintro replaced r₂ s₂ ⟨serving₂, bbt⟩
            cases replaced with
            | true => exact ih _ _ next (bbt ▸ served) serving₂
            | false => exact serving₂
      · exact serving

theorem orderly_spiNandEraseInternal (depth : ℕ) {addr len : ℕ}
    (inside : addr + len ≤ (g.systemBlockCount - r.initBbt.badblockCount) * eraseSize)
    (serving : Serving g env factory r s) :
    wp (orderlyRules env) (spiNandEraseInternal g depth addr len)
      (fun _ => Serving g env factory) r s := by
  rw [spiNandEraseInternal, wp_bind]
  apply orderly_perform readable inPool serving.border
  · trivial
  · intro _ s₁ _ border₁ _
    have serving₁ : Serving g env factory r s₁ := ⟨serving.tables, border₁, serving.numbered⟩
    split
    · exact orderly_eraseBlocks readable inPool depth len len addr 0 rfl inside rfl serving₁
    · exact serving₁

omit inPool in
theorem border_readPieces (len rounds readAddr remainLen : ℕ) (out : Bytes)
    (border : Border g env factory s) :
    Border g env factory (readPieces env g r len rounds readAddr remainLen out s).2 := by
  induction rounds generalizing readAddr remainLen out s with
  | zero => exact border
  | succ rounds ih =>
      rw [readPieces]
      split
      · exact border
      · exact ih _ _ _ (border_read readable border _)

end Serving

/-! ## Whole runs -/

/-- The pool begins on the flash where it began at the first start, and a driver in use
has it there and keeps the marks. -/
structure Steady (env : Env) (totalBlock size : ℕ) (h : Host) : Prop where
  start : totalBlock - poolStart env.layout totalBlock h.spi.chip.pages = size
  driver : ∀ g r, h.driver = some (g, r) → g.totalBlockCount = totalBlock ∧
    g.bmtBlockCount = size ∧ ∃ factory, (∀ b ∈ factory, g.InPool b) ∧
      Serving g env factory r h.spi

section Operation

variable {env : Env} {totalBlock size : ℕ}

/-- The count looks at the marks of the pool only. -/
theorem poolStart_of_border {g : Geometry} {factory : Set ℕ} {s s' : Spi}
    (total : g.totalBlockCount = totalBlock)
    (pool : totalBlock - poolStart env.layout totalBlock s.chip.pages = g.bmtBlockCount)
    (before : Border g env factory s) (after : Border g env factory s') :
    poolStart env.layout totalBlock s'.chip.pages =
      poolStart env.layout totalBlock s.chip.pages := by
  have inside : poolStart env.layout totalBlock s.chip.pages ≤ totalBlock - 1 := endOfCount_le _ _
  have system := g.system_add_pool
  have positive := g.pool_pos
  apply endOfCount_congr
  intro b low high
  change poolStart env.layout totalBlock s.chip.pages ≤ b at low
  have here : g.InPool b := by
    constructor <;> omega
  exact (after.marked b here).symm.trans (before.marked b here)

variable (readable : ∀ t p, env.uncorrectable t p = false)

/-- What keeps the border keeps the count. -/
theorem Steady.of_serving {g : Geometry} {factory : Set ℕ} {r r' : Ram} {s s' : Spi}
    (steady : Steady env totalBlock size ⟨some (g, r), s⟩) (inPool : ∀ b ∈ factory, g.InPool b)
    (before : Border g env factory s) (after : Serving g env factory r' s') :
    Steady env totalBlock size ⟨some (g, r'), s'⟩ := by
  obtain ⟨total, pool, -⟩ := steady.driver g r rfl
  constructor
  · have same := poolStart_of_border total (steady.start.trans pool.symm) before after.border
    exact same ▸ steady.start
  · rintro g' r'' eq
    obtain ⟨rfl, rfl⟩ := Prod.mk.inj (Option.some.inj eq)
    exact ⟨total, pool, factory, inPool, after⟩

include readable in
/-- A start counts what it finds, and keeps it. -/
theorem BootUp.steady {s : Spi} {h : Host} {size' : ℕ} (fit : totalBlock * eraseSize ≤ 2 ^ 31)
    (pos : 0 < totalBlock)
    (boot : BootUp (orderlyConduct env) env totalBlock (powerOff s) size' h) :
    totalBlock - poolStart env.layout totalBlock s.chip.pages = size' ∧
      Steady env totalBlock size' h := by
  obtain ⟨s₀, run₀, rel, keeps⟩ := calcBmtPoolSize_exec (r := Ram.initial) readable fit pos
    (show (powerOff s).cache.pageNum = none from rfl)
  cases boot with
  | refused tooLarge counted =>
      rw [run₀] at counted
      obtain ⟨rfl, -, rfl⟩ := by simpa using counted
      refine ⟨rfl, ?_, fun g r eq => by cases eq⟩
      exact congrArg (fun pages => totalBlock - poolStart env.layout totalBlock pages) rel.pages
  | @setUp s₁ s₂ g depth done r counted allowed total pool images calls run =>
      rw [run₀] at counted
      obtain ⟨rfl, -, rfl⟩ := by simpa using counted
      have inPool : ∀ b ∈ {b | g.InPool b ∧ (firstPage s.chip.pages b).Marked env.layout .raw},
          g.InPool b := fun b hb => hb.1
      have cold : Border g env {b | g.InPool b ∧ (firstPage s.chip.pages b).Marked env.layout .raw}
          (powerOff s) := ⟨fun b pool => and_iff_right pool, fun b _ num => by cases num⟩
      obtain ⟨d', ⟨tables, border⟩, numbered⟩ := boot_exec readable rel
        (boot_spiNandSetup readable inPool depth images rfl
          (fun listed => (inPool 0 listed).pos rfl)
          (keeps g _ cold)) calls run
      refine ⟨rfl, ?_, ?_⟩
      · have same := poolStart_of_border total pool.symm cold border
        exact congrArg (totalBlock - ·) same
      · intro g' r' eq
        cases done with
        | false => cases eq
        | true =>
            obtain ⟨rfl, rfl⟩ := Prod.mk.inj (Option.some.inj eq)
            exact ⟨total, pool, _, inPool, tables, border, numbered rfl⟩

include readable in
theorem Operated.steady {h : Host} (fit : totalBlock * eraseSize ≤ 2 ^ 31) (pos : 0 < totalBlock)
    (operated : Operated (orderlyConduct env) env totalBlock size h) :
    Steady env totalBlock size h := by
  induction operated with
  | first boot => exact (boot.steady readable fit pos).2
  | reboot before boot ih =>
      obtain ⟨counted, steady⟩ := boot.steady readable fit pos
      rw [ih.start] at counted
      exact counted ▸ steady
  | read before ih =>
      obtain ⟨-, -, factory, inPool, serving⟩ := ih.driver _ _ rfl
      apply ih.of_serving inPool serving.border
      exact ⟨serving.tables, border_readPieces readable _ _ _ _ _ serving.border, serving.numbered⟩
  | write before inside calls run ih =>
      obtain ⟨-, -, factory, inPool, serving⟩ := ih.driver _ _ rfl
      apply ih.of_serving inPool serving.border
      exact wp_exec (orderly_spiNandWriteInternal readable inPool _ _ inside serving) calls run
  | erase before inside calls run ih =>
      obtain ⟨-, -, factory, inPool, serving⟩ := ih.driver _ _ rfl
      apply ih.of_serving inPool serving.border
      exact wp_exec (orderly_spiNandEraseInternal readable inPool _ inside serving) calls run
  | update before updatable spare calls run ih =>
      obtain ⟨-, -, factory, inPool, serving⟩ := ih.driver _ _ rfl
      apply ih.of_serving inPool serving.border
      exact (wp_exec (orderly_serveUpdate readable inPool _ updatable spare serving) calls run).1

/-- Whatever the driver has done since the first start, the next start counts a pool of the
same size, and the driver in use has its border there. -/
theorem border_never_moves {h : Host} (readable : ∀ t p, env.uncorrectable t p = false)
    (fit : totalBlock * eraseSize ≤ 2 ^ 31) (pos : 0 < totalBlock)
    (operated : Operated (orderlyConduct env) env totalBlock size h) (r : Ram) :
    (∃ s', exec (nandMachine env) (calcBmtPoolSize totalBlock) r (powerOff h.spi) =
        some (size, r, s')) ∧
      ∀ g r', h.driver = some (g, r') → g.systemBlockCount = totalBlock - size := by
  have steady := operated.steady readable fit pos
  constructor
  · obtain ⟨s', run, -⟩ := calcBmtPoolSize_exec (r := r) readable fit pos
      (show (powerOff h.spi).cache.pageNum = none from rfl)
    have counted :
        totalBlock - poolStart env.layout totalBlock (powerOff h.spi).chip.pages = size :=
      steady.start
    rw [counted] at run
    exact ⟨s', run⟩
  · intro g r' eq
    obtain ⟨total, pool, -⟩ := steady.driver g r' eq
    rw [Geometry.systemBlockCount, total, pool]

end Operation

/-! ## Two runs -/

/-- Failed operations that leave pages erased clear nothing. -/
theorem gentle_of_erased {env : Env}
    (erased : ∀ t left, env.outcome t = .fail left → left = fun _ => .erased) (op : NandOp)
    (s : Spi) :
    Gentle env op s := by
  have and_erased : ∀ p : Page, p.and .erased = p := fun p => by
    ext i <;> simp [Page.erased, allOnes]
  have program : ∀ page dataOffset dat dataLen oob oobLen,
      (spiNandWritePage env page dataOffset dat dataLen oob oobLen s).1 ≠ .noError →
      (spiNandWritePage env page dataOffset dat dataLen oob oobLen s).2.chip.pages page =
        .erased := by
    intro page dataOffset dat dataLen oob oobLen failed
    simp only [spiNandWritePage, Chip.program] at failed ⊢
    split at failed
    · simp at failed
    · next left outcome =>
      simp [erased _ _ outcome]
  cases op with
  | eraseBlock block =>
      intro _ p inside
      have left : (nandMachine env (.eraseBlock block) s).2.chip.pages p = .erased := by
        simp only [nandMachine, spiNandEraseBlock, Chip.eraseBlock]
        split
        · exact if_pos inside
        · next left outcome => exact (if_pos inside).trans (by rw [erased _ _ outcome])
      rw [left, and_erased]
  | writePage page dataOffset dat dataLen oob oobLen =>
      intro failed
      have left := program page dataOffset dat dataLen oob oobLen
        (by simpa [nandMachine] using failed)
      simp only [nandMachine, left, and_erased]
  | markBadblock offset kind =>
      intro failed
      have left := program (offset / pageSize) 0 allOnes 0 kind.mark 8
        (by simpa [nandMachine, en7512NandMarkBadblock] using failed)
      simp only [nandMachine, en7512NandMarkBadblock, left, and_erased]
  | readPage page => trivial
  | checkBlockBad offset kind => trivial
  | clearCache => trivial

/-- The answer of a call decides whether a mark has been read. -/
instance (env : Env) (op : NandOp) (s : Spi) : Decidable (ReadsUnmarked env op s) :=
  match op with
  | .readPage page => decidable_of_iff (page % pagePerBlock = 0 →
      (nandMachine env (.readPage page) s).1.all (fun content => content.2 0 = 0xff) = true) (by
        simp only [ReadsUnmarked, Option.all_eq_true, decide_eq_true_eq])
  | .checkBlockBad _ _ | .markBadblock _ _ | .eraseBlock _ | .writePage _ _ _ _ _ _
  | .clearCache => .isTrue trivial

/-- A chip of fifty blocks, with four good ones at its end. -/
def fiftyBlocks : Geometry where
  totalBlockCount := 50
  bmtBlockCount := 4
  mtdOobsize := 26
  pool_pos := eightBlocks.pool_pos
  pool_lt := eightBlocks.pool_lt
  system_pos := by decide
  offsets_fit := by decide

/-- The same with a bad block among the last five. -/
def fiftyBlocksOneBad : Geometry :=
  { fiftyBlocks with
    bmtBlockCount := 5, pool_pos := by decide, pool_lt := by decide, system_pos := by decide }

/-- The seventh program or erase operation fails and leaves the page erased. -/
def seventhFails : Env :=
  { faultless with outcome := fun t => if t = 6 then .fail fun _ => .erased else .done }

theorem gentle_seventhFails (op : NandOp) (s : Spi) : Gentle seventhFails op s := by
  apply gentle_of_erased
  intro t left outcome
  simp only [seventhFails] at outcome
  split at outcome
  · exact (Outcome.fail.inj outcome).symm
  · cases outcome

theorem calcBmtPoolSize_fifty {r : Ram} {s : Spi} (cold : s.cache.pageNum = none) :
    ∃ s', exec (nandMachine seventhFails) (calcBmtPoolSize 50) r s =
      some (50 - poolStart seventhFails.layout 50 s.chip.pages, r, s') := by
  have readable : ∀ t p, seventhFails.uncorrectable t p = false := fun _ _ => rfl
  have fit : 50 * eraseSize ≤ 2 ^ 31 := by decide
  obtain ⟨s', exact, -⟩ := calcBmtPoolSize_exec readable fit (by decide) cold
  exact ⟨s', exact⟩

/-- The first start, on an erased chip with the given factory marks. -/
def firstStart (g : Geometry) (marked : List ℕ) : Option (ℕ × Bool × Ram × Spi) :=
  (exec (nandMachine seventhFails) (calcBmtPoolSize 50) Ram.initial (factorySpi marked)).bind
    fun counted => (exec (nandMachine seventhFails) (spiNandSetup g 5) Ram.initial
      counted.2.2).map fun out => (counted.1, out)

/-- One byte is written to the second page of a logical block. -/
def writeByte (g : Geometry) (block : ℕ) : Drv Rtn :=
  spiNandWriteInternal g 5 (block * eraseSize + pageSize) 1 fun _ => 7

theorem operated_firstStart {c : Conduct} {g : Geometry} {marked : List ℕ} {size : ℕ} {r : Ram}
    {s : Spi} (start : firstStart g marked = some (size, true, r, s))
    (allowed : size ≤ maximumBmtBlockCount 50) (total : g.totalBlockCount = 50)
    (pool : g.bmtBlockCount = size) (images : c.images g (factorySpi marked).chip.pages)
    (calls : ∀ counted, exec (nandMachine seventhFails) (calcBmtPoolSize 50) Ram.initial
      (factorySpi marked) = some counted → Keeps (nandMachine seventhFails) c.calls
        (spiNandSetup g 5) Ram.initial counted.2.2) :
    Operated c seventhFails 50 size ⟨some (g, r), s⟩ := by
  obtain ⟨⟨size', r₀, s₀⟩, counted, setUp⟩ := Option.bind_eq_some_iff.mp start
  obtain ⟨⟨done, r', s'⟩, run, eq⟩ := Option.map_eq_some_iff.mp setUp
  simp only [Prod.mk.injEq] at eq
  obtain ⟨rfl, rfl, rfl, rfl⟩ := eq
  have cold : (factorySpi marked).cache.pageNum = none := rfl
  obtain ⟨s₁, exact⟩ := @calcBmtPoolSize_fifty Ram.initial _ cold
  have same : r₀ = Ram.initial := by
    rw [counted] at exact
    simpa using congrArg (fun out => out.map fun out => out.2.1) exact
  subst same
  exact .first (s := factorySpi marked) (.setUp counted allowed total pool images
    (calls _ counted) run)

/-- Block 45, the last of the system area, is bad from the factory, and is numbered as
logical block 44. A write there fails behind the first page: the first page is moved into
the pool with its mark, and the next start counts a pool of six blocks. -/
theorem border_moves : (∀ t p, seventhFails.uncorrectable t p = false) ∧
    ∃ h s', Operated (gentleConduct seventhFails) seventhFails 50 4 h ∧
      exec (nandMachine seventhFails) (calcBmtPoolSize 50) Ram.initial (powerOff h.spi) =
        some (6, Ram.initial, s') := by
  obtain ⟨⟨size, done, r, s⟩, first⟩ :
      ∃ out, firstStart fiftyBlocks [45] = some out :=
    Option.isSome_iff_exists.mp (by decide +kernel)
  obtain ⟨⟨rtn, r', s'⟩, second⟩ :
      ∃ out, (firstStart fiftyBlocks [45]).bind (fun out =>
        exec (nandMachine seventhFails) (writeByte fiftyBlocks 44)
          out.2.2.1 out.2.2.2) = some out :=
    Option.isSome_iff_exists.mp (by decide +kernel)
  have told : (firstStart fiftyBlocks [45]).bind (fun out =>
      (exec (nandMachine seventhFails) (writeByte fiftyBlocks 44)
        out.2.2.1 out.2.2.2).bind fun out' =>
          (exec (nandMachine seventhFails) (calcBmtPoolSize 50) Ram.initial
            (powerOff out'.2.2)).map fun again =>
              (out.1, out.2.1, out.2.2.1.initBbt.badblockCount, again.1)) =
      some (4, true, 1, 6) := by decide +kernel
  rw [first] at second told
  simp only [Option.bind_some] at second
  have cold : (powerOff s').cache.pageNum = none := rfl
  obtain ⟨s₁, again⟩ := @calcBmtPoolSize_fifty Ram.initial _ cold
  simp only [Option.bind_some, second, again, Option.map_some, Option.some.injEq,
    Prod.mk.injEq] at told
  obtain ⟨rfl, rfl, listed, counted⟩ := told
  rw [counted] at again
  have gentle := fun {α : Type} (m : Drv α) (r : Ram) (s : Spi) =>
    (Program.keeps_of_forall gentle_seventhFails (m.run r) s :
      Keeps (nandMachine seventhFails) (Gentle seventhFails) m r s)
  have started : Operated (gentleConduct seventhFails) seventhFails 50 4
      ⟨some (fiftyBlocks, r), s⟩ :=
    operated_firstStart first (by decide) rfl rfl trivial fun _ _ => gentle _ _ _
  refine ⟨fun _ _ => rfl, ⟨_, s'⟩, s₁, .write started ?_ (gentle _ _ _) second, again⟩
  rw [listed]
  decide

/-- With a factory mark on block 48 the pool has five blocks. A write to logical block 3
fails, the block is replaced, and the next start counts five blocks again. -/
theorem border_never_moves_fifty : ∃ r s r' s',
    firstStart fiftyBlocksOneBad [48] = some (5, true, r, s) ∧
    exec (nandMachine seventhFails) (writeByte fiftyBlocksOneBad 3) r s = some (.noError, r', s') ∧
    r'.bmt.mappedCount = 1 ∧
    ∃ s₁, exec (nandMachine seventhFails) (calcBmtPoolSize 50) Ram.initial (powerOff s') =
      some (5, Ram.initial, s₁) := by
  obtain ⟨⟨size, done, r, s⟩, first⟩ : ∃ out, firstStart fiftyBlocksOneBad [48] = some out :=
    Option.isSome_iff_exists.mp (by decide +kernel)
  obtain ⟨⟨rtn, r', s'⟩, second⟩ : ∃ out, (firstStart fiftyBlocksOneBad [48]).bind (fun out =>
      exec (nandMachine seventhFails) (writeByte fiftyBlocksOneBad 3) out.2.2.1 out.2.2.2) =
        some out :=
    Option.isSome_iff_exists.mp (by decide +kernel)
  have told : (firstStart fiftyBlocksOneBad [48]).bind (fun out =>
      (exec (nandMachine seventhFails) (writeByte fiftyBlocksOneBad 3) out.2.2.1
        out.2.2.2).map fun out' => (out.1, out.2.1, out.2.2.1.initBbt.badblockCount, out'.1,
          out'.2.1.bmt.mappedCount)) = some (5, true, 0, .noError, 1) := by decide +kernel
  have unmarked : ∀ {α : Type} {m : Drv α} {r : Ram} {s : Spi},
      Keeps (nandMachine seventhFails) (ReadsUnmarked seventhFails) m r s →
      Keeps (nandMachine seventhFails) (Orderly seventhFails) m r s := by
    intro α m r s keeps
    exact keeps.mono fun op s reads => ⟨gentle_seventhFails op s, reads⟩
  have starting : ((exec (nandMachine seventhFails) (calcBmtPoolSize 50) Ram.initial
      (factorySpi [48])).map fun counted => decide (Keeps (nandMachine seventhFails)
        (ReadsUnmarked seventhFails) (spiNandSetup fiftyBlocksOneBad 5) Ram.initial
        counted.2.2)) = some true := by decide +kernel
  have writing : ((firstStart fiftyBlocksOneBad [48]).map fun out =>
      decide (Keeps (nandMachine seventhFails) (ReadsUnmarked seventhFails)
        (writeByte fiftyBlocksOneBad 3) out.2.2.1 out.2.2.2)) = some true := by decide +kernel
  rw [first] at second told writing
  simp only [Option.bind_some] at second
  simp only [Option.bind_some, second, Option.map_some, Option.some.injEq, Prod.mk.injEq] at told
  obtain ⟨rfl, rfl, listed, rfl, mapped⟩ := told
  refine ⟨r, s, r', s', first, second, mapped, ?_⟩
  have started : Operated (orderlyConduct seventhFails) seventhFails 50 5
      ⟨some (fiftyBlocksOneBad, r), s⟩ := by
    apply operated_firstStart first (by decide) rfl rfl
    · exact fun b _ holds => absurd holds (factorySpi_holds_no_table _ _ _ b).1
    · intro counted run
      rw [run] at starting
      exact unmarked (by simpa using starting)
  have kept : Keeps (nandMachine seventhFails) (ReadsUnmarked seventhFails)
      (writeByte fiftyBlocksOneBad 3) r s := by simpa using writing
  have operated : Operated (orderlyConduct seventhFails) seventhFails 50 5
      ⟨some (fiftyBlocksOneBad, r'), s'⟩ := by
    apply Operated.write started _ (unmarked kept) second
    rw [listed]
    decide
  exact (border_never_moves (fun _ _ => rfl) (by decide) (by decide) operated Ram.initial).1

end En7512.Flash
