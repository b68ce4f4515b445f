/-
# The bad-block layer, `bmt.c`

Every function of the layer that touches the flash, as a program over the
operations of the page layer with the static variables of the file as its
memory. Loops over the pool run over the list of its blocks; a function that
calls itself takes the depth of the recursion as an argument, and a run that
needs more depth does not return.

The compile-time configuration is that of the EN7512: physical block and page
sizes of 128 KiB and 2 KiB, big-endian `u16`s. Block numbers stay far below
2 ^ 16, so that storing one in a `u16` changes nothing; the two counters are
`u8`s and wrap.
-/

import En7512.Bmt.LogicalTable
import En7512.Nand.SpiNand

namespace En7512.Bmt

open En7512.Logic En7512.Nand

/-- The static variables of `bmt.c`. -/
structure Ram where
  /-- `bmt`. -/
  bmt : BmtStruct
  /-- `init_bbt`. -/
  initBbt : InitBbtStruct
  /-- `bmt_block_index`; 0 when there is none. -/
  bmtBlockIndex : ℕ
  /-- `bbt_block_index`; 0 when there is none. -/
  bbtBlockIndex : ℕ
  /-- `pool_erased`. -/
  poolErased : Bool
  /-- `need_write_bmt_to_nand`. -/
  needWriteBmtToNand : Bool
  /-- `need_write_bbt_to_nand`. -/
  needWriteBbtToNand : Bool
  /-- `pBbt`. -/
  pBbt : ℕ → ℕ
  /-- `dat_buf`. -/
  datBuf : Bytes
  /-- `oob_buf`. -/
  oobBuf : Bytes

/-- Static variables start at zero. -/
def Ram.initial : Ram where
  bmt := ⟨fun _ => ⟨0, 0⟩, 0, 0, 0⟩
  initBbt := ⟨fun _ => 0, 0, 0⟩
  bmtBlockIndex := 0
  bbtBlockIndex := 0
  poolErased := false
  needWriteBmtToNand := false
  needWriteBbtToNand := false
  pBbt := fun _ => 0
  datBuf := fun _ => 0
  oobBuf := fun _ => 0

/-- A function of the bad-block layer. -/
abbrev Drv : Type → Type := Routine NandOp NandResp Ram

/-- `OFFSET(block)`. -/
def blockOffset (block : ℕ) : ℕ := block * eraseSize

/-- `PAGE_ADDR(block)`. -/
def pageAddr (block : ℕ) : ℕ := block * pagePerBlock

/-! ## The adaptor functions -/

/-- `nand_read_page_bmt` into `dat_buf` and `oob_buf`; `true` is success. -/
def nandReadPageBmt (page : ℕ) : Drv Bool := do
  match ← Routine.perform (NandOp.readPage page) with
  | some (dat, oob) =>
      modify fun r => { r with
        datBuf := overlay r.datBuf 0 dat pageSize
        oobBuf := overlay r.oobBuf 0 oob oobBufferSize }
      pure true
  | none => pure false

/-- `nand_block_bad_bmt`. -/
def nandBlockBadBmt (offset : ℕ) (kind : BadKind) : Drv Bool :=
  Routine.perform (NandOp.checkBlockBad offset kind)

/-- `nand_erase_bmt`; `true` is success. -/
def nandEraseBmt (offset : ℕ) : Drv Bool := Routine.perform (NandOp.eraseBlock (offset / eraseSize))

/-- `mark_block_bad_bmt`. No caller looks at the result. -/
def markBlockBadBmt (offset : ℕ) (kind : BadKind) : Drv Unit := do
  let _ ← Routine.perform (NandOp.markBadblock offset kind)

/-- `nand_write_page_bmt`; `true` is success. -/
def nandWritePageBmt (page : ℕ) (dat oob : Bytes) : Drv Bool :=
  Routine.perform (NandOp.writePage page 0 dat pageSize oob oobBufferSize)

/-- The test of all scans: either mark on the first page of the block. -/
def blockMarkedBad (block : ℕ) : Drv Bool := do
  if ← nandBlockBadBmt (blockOffset block) .raw then pure true
  else nandBlockBadBmt (blockOffset block) .generateLater

/-! ## `find_available_block` -/

/-- The four tests both loops of `find_available_block` make. -/
def blockAvailable (block : ℕ) : Drv Bool := do
  let r ← get
  if block = r.bmtBlockIndex then pure false
  else if block = r.bbtBlockIndex then pure false
  else
    let marked ← blockMarkedBad block
    if marked then pure false else pure (!r.bmt.isBlockMapped block)

/-- The first loop: erase the available blocks, and mark those that fail. -/
def erasePool : List ℕ → Drv Unit
  | [] => pure ()
  | block :: blocks => do
      let available ← blockAvailable block
      if available then
        let erased ← nandEraseBmt (blockOffset block)
        if erased then erasePool blocks
        else
          markBlockBadBmt (blockOffset block) .generateLater
          erasePool blocks
      else erasePool blocks

/-- The second loop: the first available block, or 0. -/
def scanPool : List ℕ → Drv ℕ
  | [] => pure 0
  | block :: blocks => do
      let available ← blockAvailable block
      if available then pure block else scanPool blocks

/-- The part of `find_available_block` that runs until `pool_erased` is set. -/
def erasePoolOnce (g : Geometry) : Drv Unit := do
  let r ← get
  if r.poolErased then pure ()
  else
    erasePool g.poolBlocks
    modify fun r => { r with poolErased := true }

/-- `find_available_block`. -/
def findAvailableBlock (g : Geometry) (startFromEnd : Bool) : Drv ℕ := do
  erasePoolOnce g
  scanPool (if startFromEnd then g.poolBlocks.reverse else g.poolBlocks)

/-! ## `migrate_from_bad` -/

/-- `get_bad_index_from_oob`. -/
def getBadIndexFromOob (oob : Bytes) : ℕ := u16At oob 2

/-- `set_bad_index_to_oob`. -/
def setBadIndexToOob (oob : Bytes) (index : ℕ) : Bytes := putU16 oob 2 index

/-- Put the index of a system block into `oob_buf`; the index of a pool block is
in its spare area already. -/
def setIndexOfSystemBlock (g : Geometry) (errorBlock : ℕ) : Drv Unit :=
  if errorBlock < g.systemBlockCount then
    modify fun r => { r with oobBuf := setBadIndexToOob r.oobBuf errorBlock }
  else pure ()

/-- The copy loop, over the pages before the failing one. The result of the read
is not looked at; `false` is a failed write. -/
def copyPages (g : Geometry) (errorBlock toIndex : ℕ) : List ℕ → Drv Bool
  | [] => pure true
  | page :: pages => do
      let _ ← nandReadPageBmt (pageAddr errorBlock + page)
      setIndexOfSystemBlock g errorBlock
      let r ← get
      let written ← nandWritePageBmt (pageAddr toIndex + page) r.datBuf r.oobBuf
      if written then copyPages g errorBlock toIndex pages else pure false

/-- The block after the loop: the failing page is written from the caller's
pointers. A null pointer is followed. -/
def writeErrorPage (g : Geometry) (errorBlock toIndex errorPage : ℕ) :
    Option Bytes → Option Bytes → Drv Bool
  | some writeDat, some writeOob => do
      modify fun r => { r with oobBuf := overlay allOnes 0 writeOob g.mtdOobsize }
      setIndexOfSystemBlock g errorBlock
      let r ← get
      nandWritePageBmt (pageAddr toIndex + errorPage) writeDat r.oobBuf
  | _, _ => Routine.stuck

/-- One attempt of `migrate_from_bad`: `false` is a failed write to the new block. -/
def migrateTo (g : Geometry) (toIndex offset : ℕ) (writeDat writeOob : Option Bytes) :
    Drv Bool := do
  let errorBlock := offset / eraseSize
  let errorPage := offset / pageSize % pagePerBlock
  let copied ← copyPages g errorBlock toIndex (List.range errorPage)
  if copied then writeErrorPage g errorBlock toIndex errorPage writeDat writeOob
  else pure false

/-- `migrate_from_bad`. -/
def migrateFromBad (g : Geometry) (offset : ℕ) (writeDat writeOob : Option Bytes) : ℕ → Drv ℕ
  | 0 => Routine.stuck
  | depth + 1 => do
      let toIndex ← findAvailableBlock g false
      if toIndex = 0 then pure 0
      else
        let written ← migrateTo g toIndex offset writeDat writeOob
        if written then pure toIndex
        else
          markBlockBadBmt (blockOffset toIndex) .generateLater
          migrateFromBad g offset writeDat writeOob depth

/-! ## Writing the tables -/

/-- Whether there is a block to write the BMT to, and whether it is erased. -/
inductive BmtBlock
  | unavailable
  | ready
  | eraseFailed
  deriving DecidableEq, Repr

/-- The first half of `write_bmt_to_flash`: take a block, or erase the one in use. -/
def prepareBmtBlock (g : Geometry) : Drv BmtBlock := do
  let r ← get
  if r.bmtBlockIndex = 0 then
    let block ← findAvailableBlock g true
    modify fun r => { r with bmtBlockIndex := block }
    if block = 0 then pure .unavailable else pure .ready
  else
    let erased ← nandEraseBmt (blockOffset r.bmtBlockIndex)
    if erased then pure .ready else pure .eraseFailed

/-- Give up the block of the BMT after it has failed. -/
def retireBmtBlock : Drv Unit := do
  let r ← get
  markBlockBadBmt (blockOffset r.bmtBlockIndex) .generateLater
  modify fun r => { r with bmtBlockIndex := 0 }

/-- `write_bmt_to_flash`. -/
def writeBmtToFlash (g : Geometry) (dat oob : Bytes) : ℕ → Drv Bool
  | 0 => Routine.stuck
  | depth + 1 => do
      match ← prepareBmtBlock g with
      | .unavailable => pure false
      | .eraseFailed =>
          retireBmtBlock
          writeBmtToFlash g dat oob depth
      | .ready =>
          let r ← get
          let written ← nandWritePageBmt (pageAddr r.bmtBlockIndex) dat oob
          if written then pure true
          else
            retireBmtBlock
            writeBmtToFlash g dat oob depth

/-- `write_bbt_to_flash`. -/
def writeBbtToFlash (g : Geometry) (dat oob : Bytes) : ℕ → Drv Bool
  | 0 => Routine.stuck
  | depth + 1 => do
      let block ← findAvailableBlock g false
      modify fun r => { r with bbtBlockIndex := block }
      if block = 0 then pure false
      else
        let written ← nandWritePageBmt (pageAddr block) dat oob
        if written then pure true
        else
          markBlockBadBmt (blockOffset block) .generateLater
          modify fun r => { r with bbtBlockIndex := 0 }
          writeBbtToFlash g dat oob depth

/-- Both buffers are filled with ones and the image of the BMT is put into
`dat_buf`; `fill_nand_bmt_buffer` leaves `oob_buf` alone. -/
def fillBmtBuffers (g : Geometry) : Drv Unit :=
  modify fun r => { r with datBuf := fillNandBmtBuffer g r.bmt allOnes, oobBuf := allOnes }

/-- The same for the bad-block table. -/
def fillBbtBuffers : Drv Unit :=
  modify fun r => { r with datBuf := fillNandBbtBuffer r.initBbt allOnes, oobBuf := allOnes }

/-! ## `update_bmt` -/

/-- `update_reason_t`. -/
inductive UpdateReason
  | eraseFail
  | writeFail
  | unmappedBlock
  deriving DecidableEq, Repr

/-- The entry `update_bmt` looks for when a pool block has failed. The search
runs over all of `bmt_block_count` entries and ends behind them if it fails. -/
def BmtStruct.indexOfMapped (g : Geometry) (bmt : BmtStruct) (block : ℕ) : ℕ :=
  ((List.range g.bmtBlockCount).find? fun i => (bmt.table i).mappedIndex = block).getD
    g.bmtBlockCount

/-- The change `update_bmt` makes to the table: a failed pool block is replaced
in its entry, a failed system block gets a new one. -/
def BmtStruct.remap (g : Geometry) (bmt : BmtStruct) (badIndex mapIndex : ℕ) : BmtStruct :=
  if g.systemBlockCount ≤ badIndex then
    let i := bmt.indexOfMapped g badIndex
    { bmt with table := Function.update bmt.table i ⟨(bmt.table i).badIndex, mapIndex⟩ }
  else
    { bmt with
      table := Function.update bmt.table bmt.mappedCount ⟨badIndex, mapIndex⟩
      mappedCount := (bmt.mappedCount + 1) % 256 }

/-- `update_bmt` up to the block that is to stand in. -/
def replacementBlock (g : Geometry) (depth offset : ℕ) (reason : UpdateReason)
    (dat oob : Option Bytes) : Drv ℕ :=
  if reason = .writeFail then migrateFromBad g offset dat oob depth
  else findAvailableBlock g false

/-- The mark that retires a block: the factory mark on a system block, the later
one on a pool block. -/
def retireKind (g : Geometry) (block : ℕ) : BadKind :=
  if g.systemBlockCount ≤ block then .generateLater else .raw

/-- `update_bmt`. -/
def updateBmt (g : Geometry) (depth offset : ℕ) (reason : UpdateReason)
    (dat oob : Option Bytes) : Drv Bool := do
  let badIndex := offset / eraseSize
  let mapIndex ← replacementBlock g depth offset reason dat oob
  if mapIndex = 0 then pure false
  else
    modify fun r => { r with bmt := r.bmt.remap g badIndex mapIndex }
    fillBmtBuffers g
    let r ← get
    let written ← writeBmtToFlash g r.datBuf r.oobBuf depth
    if written then
      markBlockBadBmt offset (retireKind g badIndex)
      pure true
    else pure false

/-! ## Loading and rebuilding the tables -/

/-- After a table has been loaded: mark its bad blocks that carry no mark. -/
def markUnmarked : List ℕ → Drv Unit
  | [] => pure ()
  | block :: blocks => do
      let marked ← nandBlockBadBmt (blockOffset block) .raw
      if marked then markUnmarked blocks
      else
        markBlockBadBmt (blockOffset block) .raw
        markUnmarked blocks

/-- The loop of `load_bmt_data`. -/
def loadBmtFrom (g : Geometry) : List ℕ → Drv ℕ
  | [] => pure 0
  | block :: blocks => do
      let marked ← blockMarkedBad block
      if marked then loadBmtFrom g blocks
      else
        let read ← nandReadPageBmt (pageAddr block)
        let r ← get
        if read ∧ IsBmtImage g r.datBuf then
          modify fun r => { r with bmt := r.bmt.load r.datBuf }
          let r ← get
          markUnmarked (r.bmt.live.map (·.badIndex))
          pure block
        else loadBmtFrom g blocks

/-- `load_bmt_data`. -/
def loadBmtData (g : Geometry) : Drv ℕ := loadBmtFrom g g.poolBlocks.reverse

/-- The loop of `load_bbt_data`. -/
def loadBbtFrom (g : Geometry) : List ℕ → Drv ℕ
  | [] => pure 0
  | block :: blocks => do
      let marked ← blockMarkedBad block
      if marked then loadBbtFrom g blocks
      else
        let read ← nandReadPageBmt (pageAddr block)
        let r ← get
        if read ∧ IsBbtImage g r.datBuf then
          modify fun r => { r with initBbt := r.initBbt.load r.datBuf }
          pure block
        else loadBbtFrom g blocks

/-- `load_bbt_data`. -/
def loadBbtData (g : Geometry) : Drv ℕ := loadBbtFrom g g.poolBlocks

/-- Add an entry, as `reconstruct_bmt` does. -/
def BmtStruct.append (bmt : BmtStruct) (badIndex mapIndex : ℕ) : BmtStruct :=
  { bmt with
    table := Function.update bmt.table bmt.mappedCount ⟨badIndex, mapIndex⟩
    mappedCount := (bmt.mappedCount + 1) % 256 }

/-- The loop of `reconstruct_bmt`. The result of the read is not looked at. -/
def reconstructFrom (g : Geometry) : List ℕ → Drv Unit
  | [] => pure ()
  | block :: blocks => do
      let marked ← blockMarkedBad block
      if marked then reconstructFrom g blocks
      else
        let _ ← nandReadPageBmt (pageAddr block)
        let r ← get
        let badIndex := getBadIndexFromOob r.oobBuf
        if g.systemBlockCount ≤ badIndex then reconstructFrom g blocks
        else
          markUnmarked [badIndex]
          modify fun r => { r with bmt := r.bmt.append badIndex block }
          reconstructFrom g blocks

/-- `memset(bmt.table, 0, bmt_block_count * sizeof(bmt_entry))`. -/
def BmtStruct.zeroTable (g : Geometry) (bmt : BmtStruct) : BmtStruct :=
  { bmt with table := fun i => if i < g.bmtBlockCount then ⟨0, 0⟩ else bmt.table i }

/-- `reconstruct_bmt`. -/
def reconstructBmt (g : Geometry) : Drv Unit := do
  modify fun r => { r with bmt := { r.bmt.zeroTable g with
    version := tableVersion, badCount := 0, mappedCount := 0 } }
  reconstructFrom g g.poolBlocks

/-- The loop of `scan_badblock_raw`, with its counter; `false` is the error. -/
def scanBadblockRawFrom : List ℕ → ℕ → Drv Bool
  | [], count => do
      modify fun r => { r with initBbt := { r.initBbt with badblockCount := count % 256 } }
      pure true
  | block :: blocks, count => do
      let marked ← nandBlockBadBmt (blockOffset block) .raw
      let r ← get
      if marked ∧ r.bmt.isBadblockRaw block then
        if maxRawBadBlockSize ≤ count then pure false
        else
          modify fun r => { r with initBbt := { r.initBbt with
            badblockTable := Function.update r.initBbt.badblockTable count block } }
          scanBadblockRawFrom blocks (count + 1)
      else scanBadblockRawFrom blocks count

/-- `scan_badblock_raw`. Block 0 is not looked at. -/
def scanBadblockRaw (g : Geometry) : Drv Bool :=
  scanBadblockRawFrom (List.range' 1 (g.systemBlockCount - 1)) 0

/-- `reconstruct_bbt`; `false` is the null pointer. -/
def reconstructBbt (g : Geometry) : Drv Bool := do
  modify fun r => { r with initBbt := ⟨fun _ => 0, tableVersion, 0⟩ }
  scanBadblockRaw g

/-! ## Start-up -/

/-- `init_bmt`, for a pool size it accepts. -/
def initBmt (g : Geometry) : Drv Unit := do
  modify fun r => { r with poolErased := false, bmt := r.bmt.zeroTable g }
  let block ← loadBmtData g
  modify fun r => { r with bmtBlockIndex := block }
  if block = 0 then
    reconstructBmt g
    modify fun r => { r with needWriteBmtToNand := true }
  else pure ()

/-- `start_init_bbt`; `false` is the null pointer. -/
def startInitBbt (g : Geometry) : Drv Bool := do
  let block ← loadBbtData g
  modify fun r => { r with bbtBlockIndex := block }
  if block = 0 then
    let rebuilt ← reconstructBbt g
    if rebuilt then
      modify fun r => { r with needWriteBbtToNand := true }
      pure true
    else pure false
  else pure true

/-- The two in a row, as at every start. -/
def startTables (g : Geometry) : Drv Bool := do
  initBmt g
  startInitBbt g

/-- The first half of `write_bbt_or_bmt_to_flash`; `true` is success. -/
def writeBmtIfNeeded (g : Geometry) (depth : ℕ) : Drv Bool := do
  let r ← get
  if r.needWriteBmtToNand then
    fillBmtBuffers g
    let r ← get
    writeBmtToFlash g r.datBuf r.oobBuf depth
  else pure true

/-- The second half. -/
def writeBbtIfNeeded (g : Geometry) (depth : ℕ) : Drv Bool := do
  let r ← get
  if r.needWriteBbtToNand then
    fillBbtBuffers
    let r ← get
    writeBbtToFlash g r.datBuf r.oobBuf depth
  else pure true

/-- `write_bbt_or_bmt_to_flash`; `true` is the result 0. -/
def writeBbtOrBmtToFlash (g : Geometry) (depth : ℕ) : Drv Bool := do
  let written ← writeBmtIfNeeded g depth
  if written then writeBbtIfNeeded g depth else pure false

/-- The call of `create_badblock_table_by_bbt`. -/
def createBadblockTable (g : Geometry) : Drv Unit :=
  modify fun r => { r with
    pBbt := createBadblockTableByBbt g.systemBlockCount r.initBbt r.pBbt }

/-- The bad-block part of `spi_nand_setup`; `false` is the error. -/
def spiNandSetup (g : Geometry) (depth : ℕ) : Drv Bool := do
  let listed ← startTables g
  if listed then
    let written ← writeBbtOrBmtToFlash g depth
    if written then
      createBadblockTable g
      pure true
    else pure false
  else pure false

end En7512.Bmt
