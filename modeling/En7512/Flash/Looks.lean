/-
# The bad-block layer as a client

The page layer answers a read with the bytes of a page. In the source they lie in an array of
that many bytes; here they are a function, which also has values behind the page, and the chip
on the wires need not give the same ones there. The bad-block layer takes the bytes into its own
buffers, as many as a page has, so it makes the same calls and comes to the same results.

There is one lemma for each of its functions, from the adaptors up to what
`spi_nand_flash.c` calls.
-/

import En7512.Flash.Internal
import En7512.Flash.PoolSize
import En7512.Spi.PageLayer

namespace En7512.Flash

open En7512.Logic En7512.Nand En7512.Bmt
open En7512.Spi (likeAnswers)
open En7512.Logic.Program (Alike)

/-- From the same variables the function makes the same calls as long as it gets like answers,
and comes to the same result. -/
def Looks {α : Type} (m : Drv α) : Prop := ∀ r, Alike likeAnswers Eq (m.run r) (m.run r)

/-! ## Putting functions together -/

section Rules

variable {α β : Type} {m : Drv α} {f : α → Drv β}

/-- What does not ask the flash looks at nothing. -/
theorem looks_pure (a : α) : Looks (pure a) := fun _ => .pure rfl

theorem looks_stuck : Looks (Routine.stuck : Drv α) := fun _ => .stuck

theorem looks_get : Looks get := fun _ => .pure rfl

theorem looks_modify (f : Ram → Ram) : Looks (modify f : Drv PUnit) := fun _ => .pure rfl

/-- One part after the other; the second may depend on what the first has returned. -/
theorem Looks.bind (first : Looks m) (rest : ∀ a, Looks (f a)) : Looks (m >>= f) := by
  intro r
  apply (first r).bind
  rintro a b rfl
  exact rest a.1 a.2

/-- A branch that is decided in memory. -/
theorem looks_ite {c : Prop} [Decidable c] {m m' : Drv α} (yes : Looks m) (no : Looks m') :
    Looks (if c then m else m') := by
  split
  · exact yes
  · exact no

/-- Every call but the read of a page is answered by the same value. -/
theorem looks_perform {op : NandOp}
    (same : ∀ answer answer', likeAnswers op answer answer' → answer = answer') :
    Looks (Routine.perform op) := by
  intro r
  apply Alike.call
  intro answer answer' like
  exact .pure (congrArg (·, r) (same answer answer' like))

end Rules

/-! ## The adaptor functions -/

/-- Only the bytes of a page are put into the buffers, so what lies behind them in the answer is
not seen. -/
theorem looks_nandReadPageBmt (page : ℕ) : Looks (nandReadPageBmt page) := by
  intro r
  apply Alike.call
  intro answer answer' like
  cases like with
  | none => exact .pure rfl
  | @some x y same =>
      have bytes : overlay r.datBuf 0 x.1 pageSize = overlay r.datBuf 0 y.1 pageSize := by
        funext i
        rw [overlay, overlay]
        split
        · next inside => exact same.1 _ (by omega)
        · rfl
      apply Alike.pure
      show (true, { r with datBuf := _, oobBuf := _ }) =
        (true, { r with datBuf := _, oobBuf := _ })
      rw [bytes, same.2]

/-- A check answers the same on both sides. -/
theorem looks_nandBlockBadBmt (offset : ℕ) (kind : BadKind) :
    Looks (nandBlockBadBmt offset kind) := looks_perform fun _ _ same => same

theorem looks_nandEraseBmt (offset : ℕ) : Looks (nandEraseBmt offset) :=
  looks_perform fun _ _ same => same

theorem looks_markBlockBadBmt (offset : ℕ) (kind : BadKind) :
    Looks (markBlockBadBmt offset kind) := by
  have mark : Looks (Routine.perform (NandOp.markBadblock offset kind)) :=
    looks_perform fun _ _ same => same
  exact mark.bind fun _ => looks_pure ()

theorem looks_nandWritePageBmt (page : ℕ) (dat oob : Bytes) :
    Looks (nandWritePageBmt page dat oob) := looks_perform fun _ _ same => same

/-- The test of all scans. -/
theorem looks_blockMarkedBad (block : ℕ) : Looks (blockMarkedBad block) := by
  apply (looks_nandBlockBadBmt _ _).bind
  intro raw
  exact looks_ite (looks_pure true) (looks_nandBlockBadBmt _ _)

/-! ## `find_available_block` -/

theorem looks_blockAvailable (block : ℕ) : Looks (blockAvailable block) := by
  apply looks_get.bind
  intro r
  apply looks_ite (looks_pure false)
  apply looks_ite (looks_pure false)
  apply (looks_blockMarkedBad block).bind
  intro marked
  exact looks_ite (looks_pure false) (looks_pure _)

/-- The first loop of `find_available_block`. -/
theorem looks_erasePool (blocks : List ℕ) : Looks (erasePool blocks) := by
  induction blocks with
  | nil => exact looks_pure ()
  | cons block blocks ih =>
      apply (looks_blockAvailable block).bind
      intro available
      apply looks_ite _ ih
      apply (looks_nandEraseBmt _).bind
      intro erased
      apply looks_ite ih
      exact (looks_markBlockBadBmt _ _).bind fun _ => ih

/-- The second loop. -/
theorem looks_scanPool (blocks : List ℕ) : Looks (scanPool blocks) := by
  induction blocks with
  | nil => exact looks_pure 0
  | cons block blocks ih =>
      apply (looks_blockAvailable block).bind
      intro available
      exact looks_ite (looks_pure block) ih

theorem looks_findAvailableBlock (g : Geometry) (startFromEnd : Bool) :
    Looks (findAvailableBlock g startFromEnd) := by
  have once : Looks (erasePoolOnce g) := by
    apply looks_get.bind
    intro r
    apply looks_ite (looks_pure ())
    exact (looks_erasePool _).bind fun _ => looks_modify _
  exact once.bind fun _ => looks_scanPool _

/-! ## `migrate_from_bad` -/

theorem looks_setIndexOfSystemBlock (g : Geometry) (errorBlock : ℕ) :
    Looks (setIndexOfSystemBlock g errorBlock) := looks_ite (looks_modify _) (looks_pure ())

/-- The copy loop hands on the bytes it has read, and no others. -/
theorem looks_copyPages (g : Geometry) (errorBlock toIndex : ℕ) (pages : List ℕ) :
    Looks (copyPages g errorBlock toIndex pages) := by
  induction pages with
  | nil => exact looks_pure true
  | cons page pages ih =>
      apply (looks_nandReadPageBmt _).bind
      intro _
      apply (looks_setIndexOfSystemBlock g errorBlock).bind
      intro _
      apply looks_get.bind
      intro r
      apply (looks_nandWritePageBmt _ _ _).bind
      intro written
      exact looks_ite ih (looks_pure false)

/-- The buffers are those of the caller. -/
theorem looks_writeErrorPage (g : Geometry) (errorBlock toIndex errorPage : ℕ)
    (writeDat writeOob : Option Bytes) :
    Looks (writeErrorPage g errorBlock toIndex errorPage writeDat writeOob) := by
  cases writeDat with
  | none => exact looks_stuck
  | some dat =>
      cases writeOob with
      | none => exact looks_stuck
      | some oob =>
          apply (looks_modify _).bind
          intro _
          apply (looks_setIndexOfSystemBlock g errorBlock).bind
          intro _
          apply looks_get.bind
          intro r
          exact looks_nandWritePageBmt _ _ _

theorem looks_migrateTo (g : Geometry) (toIndex offset : ℕ) (writeDat writeOob : Option Bytes) :
    Looks (migrateTo g toIndex offset writeDat writeOob) := by
  apply (looks_copyPages g _ _ _).bind
  intro copied
  exact looks_ite (looks_writeErrorPage g _ _ _ _ _) (looks_pure false)

/-- By induction on the number of attempts. -/
theorem looks_migrateFromBad (g : Geometry) (offset : ℕ) (writeDat writeOob : Option Bytes)
    (depth : ℕ) : Looks (migrateFromBad g offset writeDat writeOob depth) := by
  induction depth with
  | zero => exact looks_stuck
  | succ depth ih =>
      apply (looks_findAvailableBlock g false).bind
      intro toIndex
      apply looks_ite (looks_pure 0)
      apply (looks_migrateTo g toIndex offset writeDat writeOob).bind
      intro written
      apply looks_ite (looks_pure toIndex)
      exact (looks_markBlockBadBmt _ _).bind fun _ => ih

/-! ## Writing the tables -/

theorem looks_prepareBmtBlock (g : Geometry) : Looks (prepareBmtBlock g) := by
  apply looks_get.bind
  intro r
  apply looks_ite
  · apply (looks_findAvailableBlock g true).bind
    intro block
    apply (looks_modify _).bind
    intro _
    exact looks_ite (looks_pure _) (looks_pure _)
  · apply (looks_nandEraseBmt _).bind
    intro erased
    exact looks_ite (looks_pure _) (looks_pure _)

theorem looks_retireBmtBlock : Looks retireBmtBlock := by
  apply looks_get.bind
  intro r
  exact (looks_markBlockBadBmt _ _).bind fun _ => looks_modify _

/-- By induction on the number of blocks that are tried. -/
theorem looks_writeBmtToFlash (g : Geometry) (dat oob : Bytes) (depth : ℕ) :
    Looks (writeBmtToFlash g dat oob depth) := by
  induction depth with
  | zero => exact looks_stuck
  | succ depth ih =>
      have again : Looks (retireBmtBlock >>= fun _ => writeBmtToFlash g dat oob depth) :=
        looks_retireBmtBlock.bind fun _ => ih
      apply (looks_prepareBmtBlock g).bind
      intro block
      cases block with
      | unavailable => exact looks_pure false
      | eraseFailed => exact again
      | ready =>
          apply looks_get.bind
          intro r
          apply (looks_nandWritePageBmt _ _ _).bind
          intro written
          exact looks_ite (looks_pure true) again

theorem looks_writeBbtToFlash (g : Geometry) (dat oob : Bytes) (depth : ℕ) :
    Looks (writeBbtToFlash g dat oob depth) := by
  induction depth with
  | zero => exact looks_stuck
  | succ depth ih =>
      apply (looks_findAvailableBlock g false).bind
      intro block
      apply (looks_modify _).bind
      intro _
      apply looks_ite (looks_pure false)
      apply (looks_nandWritePageBmt _ _ _).bind
      intro written
      apply looks_ite (looks_pure true)
      apply (looks_markBlockBadBmt _ _).bind
      intro _
      exact (looks_modify _).bind fun _ => ih

/-- `update_bmt` for either reason. -/
theorem looks_updateBmt (g : Geometry) (depth offset : ℕ) (reason : UpdateReason)
    (dat oob : Option Bytes) : Looks (updateBmt g depth offset reason dat oob) := by
  have replacement : Looks (replacementBlock g depth offset reason dat oob) :=
    looks_ite (looks_migrateFromBad g offset dat oob depth) (looks_findAvailableBlock g false)
  apply replacement.bind
  intro mapIndex
  apply looks_ite (looks_pure false)
  apply (looks_modify _).bind
  intro _
  apply (looks_modify _).bind
  intro _
  apply looks_get.bind
  intro r
  apply (looks_writeBmtToFlash g _ _ depth).bind
  intro written
  apply looks_ite _ (looks_pure false)
  exact (looks_markBlockBadBmt _ _).bind fun _ => looks_pure true

/-! ## Loading and rebuilding the tables -/

/-- Start-up, loop by loop. -/
theorem looks_markUnmarked (blocks : List ℕ) : Looks (markUnmarked blocks) := by
  induction blocks with
  | nil => exact looks_pure ()
  | cons block blocks ih =>
      apply (looks_nandBlockBadBmt _ _).bind
      intro marked
      apply looks_ite ih
      exact (looks_markBlockBadBmt _ _).bind fun _ => ih

theorem looks_loadBmtFrom (g : Geometry) (blocks : List ℕ) : Looks (loadBmtFrom g blocks) := by
  induction blocks with
  | nil => exact looks_pure 0
  | cons block blocks ih =>
      apply (looks_blockMarkedBad block).bind
      intro marked
      apply looks_ite ih
      apply (looks_nandReadPageBmt _).bind
      intro read
      apply looks_get.bind
      intro r
      apply looks_ite _ ih
      apply (looks_modify _).bind
      intro _
      apply looks_get.bind
      intro r
      exact (looks_markUnmarked _).bind fun _ => looks_pure block

theorem looks_loadBbtFrom (g : Geometry) (blocks : List ℕ) : Looks (loadBbtFrom g blocks) := by
  induction blocks with
  | nil => exact looks_pure 0
  | cons block blocks ih =>
      apply (looks_blockMarkedBad block).bind
      intro marked
      apply looks_ite ih
      apply (looks_nandReadPageBmt _).bind
      intro read
      apply looks_get.bind
      intro r
      apply looks_ite _ ih
      exact (looks_modify _).bind fun _ => looks_pure block

theorem looks_reconstructFrom (g : Geometry) (blocks : List ℕ) :
    Looks (reconstructFrom g blocks) := by
  induction blocks with
  | nil => exact looks_pure ()
  | cons block blocks ih =>
      apply (looks_blockMarkedBad block).bind
      intro marked
      apply looks_ite ih
      apply (looks_nandReadPageBmt _).bind
      intro _
      apply looks_get.bind
      intro r
      apply looks_ite ih
      apply (looks_markUnmarked _).bind
      intro _
      exact (looks_modify _).bind fun _ => ih

theorem looks_scanBadblockRawFrom (blocks : List ℕ) (count : ℕ) :
    Looks (scanBadblockRawFrom blocks count) := by
  induction blocks generalizing count with
  | nil => exact (looks_modify _).bind fun _ => looks_pure true
  | cons block blocks ih =>
      apply (looks_nandBlockBadBmt _ _).bind
      intro marked
      apply looks_get.bind
      intro r
      apply looks_ite _ (ih count)
      apply looks_ite (looks_pure false)
      exact (looks_modify _).bind fun _ => ih (count + 1)

/-! ## Start-up -/

/-- `init_bmt`. -/
theorem looks_initBmt (g : Geometry) : Looks (initBmt g) := by
  have reconstruct : Looks (reconstructBmt g) :=
    (looks_modify _).bind fun _ => looks_reconstructFrom g _
  apply (looks_modify _).bind
  intro _
  apply (looks_loadBmtFrom g _).bind
  intro block
  apply (looks_modify _).bind
  intro _
  apply looks_ite _ (looks_pure ())
  exact reconstruct.bind fun _ => looks_modify _

/-- `start_init_bbt`. -/
theorem looks_startInitBbt (g : Geometry) : Looks (startInitBbt g) := by
  have reconstruct : Looks (reconstructBbt g) :=
    (looks_modify _).bind fun _ => looks_scanBadblockRawFrom _ _
  apply (looks_loadBbtFrom g _).bind
  intro block
  apply (looks_modify _).bind
  intro _
  apply looks_ite _ (looks_pure true)
  apply reconstruct.bind
  intro rebuilt
  apply looks_ite _ (looks_pure false)
  exact (looks_modify _).bind fun _ => looks_pure true

theorem looks_writeBbtOrBmtToFlash (g : Geometry) (depth : ℕ) :
    Looks (writeBbtOrBmtToFlash g depth) := by
  have bmt : Looks (writeBmtIfNeeded g depth) := by
    apply looks_get.bind
    intro r
    apply looks_ite _ (looks_pure true)
    apply (looks_modify _).bind
    intro _
    exact looks_get.bind fun _ => looks_writeBmtToFlash g _ _ depth
  have bbt : Looks (writeBbtIfNeeded g depth) := by
    apply looks_get.bind
    intro r
    apply looks_ite _ (looks_pure true)
    apply (looks_modify _).bind
    intro _
    exact looks_get.bind fun _ => looks_writeBbtToFlash g _ _ depth
  apply bmt.bind
  intro written
  exact looks_ite bbt (looks_pure false)

/-- `spi_nand_setup`. -/
theorem looks_spiNandSetup (g : Geometry) (depth : ℕ) : Looks (spiNandSetup g depth) := by
  have tables : Looks (startTables g) := (looks_initBmt g).bind fun _ => looks_startInitBbt g
  apply tables.bind
  intro listed
  apply looks_ite _ (looks_pure false)
  apply (looks_writeBbtOrBmtToFlash g depth).bind
  intro written
  apply looks_ite _ (looks_pure false)
  exact (looks_modify _).bind fun _ => looks_pure true

/-! ## Ranges of logical addresses -/

/-- One piece of a write. What is written comes from the caller. -/
theorem looks_writePiece (g : Geometry) (depth writeAddr remainLen : ℕ) (dat : Bytes) :
    Looks (writePiece g depth writeAddr remainLen dat) := by
  have write (page offset len : ℕ) (oob : Bytes) :
      Looks (Routine.perform (NandOp.writePage page offset dat len oob oobBufferSize)) :=
    looks_perform fun _ _ same => same
  apply looks_get.bind
  intro r
  apply (write _ _ _ _).bind
  intro written
  exact looks_ite (looks_pure true) (looks_updateBmt g depth _ _ _ _)

/-- By induction on the pages of the range. -/
theorem looks_spiNandWriteInternal (g : Geometry) (depth dstAddr len : ℕ) (buf : Bytes) :
    Looks (spiNandWriteInternal g depth dstAddr len buf) := by
  have pieces (rounds writeAddr remainLen : ℕ) :
      Looks (writePieces g depth len buf rounds writeAddr remainLen) := by
    induction rounds generalizing writeAddr remainLen with
    | zero => exact looks_pure _
    | succ rounds ih =>
        apply looks_ite (looks_pure _)
        apply looks_get.bind
        intro r
        apply (looks_writePiece g depth writeAddr remainLen _).bind
        intro stored
        exact looks_ite (ih _ _) (looks_pure _)
  exact (looks_perform fun _ _ _ => rfl).bind fun _ => pieces len dstAddr len

/-- By induction on the blocks of the range. -/
theorem looks_spiNandEraseInternal (g : Geometry) (depth addr len : ℕ) :
    Looks (spiNandEraseInternal g depth addr len) := by
  have erase (block : ℕ) : Looks (Routine.perform (NandOp.eraseBlock block)) :=
    looks_perform fun _ _ same => same
  have blocks (rounds addr eraseLen : ℕ) :
      Looks (eraseBlocks g depth len rounds addr eraseLen) := by
    induction rounds generalizing addr eraseLen with
    | zero => exact looks_pure _
    | succ rounds ih =>
        apply looks_ite _ (looks_pure _)
        apply looks_get.bind
        intro r
        apply (erase _).bind
        intro erased
        apply looks_ite (ih _ _)
        apply (looks_updateBmt g depth addr _ _ _).bind
        intro replaced
        exact looks_ite (ih _ _) (looks_pure _)
  apply (looks_perform fun _ _ _ => rfl).bind
  intro _
  exact looks_ite (blocks len addr 0) (looks_pure _)

end En7512.Flash
