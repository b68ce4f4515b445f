/-
# Logical addresses

The upper half of `spi_nand_flash.c`: writing, erasing and reading ranges of
logical addresses. Each function goes through its range piece by piece, resolves
the block of each piece through the two tables, and works on the physical block
it finds. A write stops at the end of a page, and so does a read, but the two
find that end by different comparisons.

Writing and erasing call the bad-block layer when the flash fails. Reading looks
at the arrays of the page in memory, whatever the read of the page has said, so
it is defined on the state of the page layer.

A loop that consumes its length takes that length as the bound of its rounds; the
length has been consumed when no round is left. `_SPI_NAND_TEST_FLAG` is 0, as it is
until someone sets it through `/proc`.
-/

import En7512.Bmt.Driver

namespace En7512.Flash

open En7512.Logic En7512.Nand En7512.Bmt

/-- `get_mapping_block_index`: the physical block, and `*phy_block_bbt`. -/
def getMappingBlockIndex (g : Geometry) (r : Ram) (index : ℕ) : ℕ × ℕ :=
  let block := getMappingBlockIndexByBbt g.systemBlockCount r.initBbt r.pBbt index
  (getMappingBlockIndexByBmt g r.bmt block, block)

/-- The address `physical_dst_addr` or `physical_read_addr` of a logical address. -/
def physicalAddr (g : Geometry) (r : Ram) (addr : ℕ) : ℕ :=
  (getMappingBlockIndex g r (addr / eraseSize)).1 * eraseSize + addr % eraseSize

/-- The physical page of an address lies in the block it is mapped to. -/
theorem physicalAddr_block (g : Geometry) (r : Ram) (addr : ℕ) :
    physicalAddr g r addr / pageSize / pagePerBlock =
      (getMappingBlockIndex g r (addr / eraseSize)).1 := by
  simp only [physicalAddr, pageSize, pagePerBlock, eraseSize]
  omega

/-- The block of the address of a page. -/
theorem pageOffset_block (page : ℕ) : page * pageSize / eraseSize = page / pagePerBlock := by
  simp only [pageSize, pagePerBlock, eraseSize]
  omega

/-! ## Writing -/

/-- `oob_buf`: blank, but for the index of the block that a pool block stands in for. -/
def writeOobBuf (g : Geometry) (physicalBlock phyBlockBbt : ℕ) : Bytes :=
  if g.systemBlockCount ≤ physicalBlock then putU16 allOnes 2 phyBlockBbt else allOnes

/-- The length of a piece that begins at `addrOffset` in its page. -/
def writeDataLen (addrOffset remainLen : ℕ) : ℕ :=
  if pageSize < addrOffset + remainLen then pageSize - addrOffset else remainLen

/-- Write one piece: program the page, and if that fails have the block replaced. The
replacement gets the caller's pointer for the whole of the page. -/
def writePiece (g : Geometry) (depth writeAddr remainLen : ℕ) (dat : Bytes) : Drv Bool := do
  let r ← get
  let block := getMappingBlockIndex g r (writeAddr / eraseSize)
  let addrOffset := physicalAddr g r writeAddr % pageSize
  let pageNumber := physicalAddr g r writeAddr / pageSize
  let oobBuf := writeOobBuf g block.1 block.2
  let written ← Routine.perform (NandOp.writePage pageNumber addrOffset dat
    (writeDataLen addrOffset remainLen) oobBuf oobBufferSize)
  if written then pure true
  else updateBmt g depth (pageNumber * pageSize) .writeFail (some dat) (some oobBuf)

/-- The loop of `spi_nand_write_internal`. The length of the piece depends on the offset in
the page only, which no mapping changes. -/
def writePieces (g : Geometry) (depth len : ℕ) (buf : Bytes) : ℕ → ℕ → ℕ → Drv Rtn
  | 0, _, _ => pure .noError
  | rounds + 1, writeAddr, remainLen =>
      if remainLen = 0 then pure .noError
      else do
        let r ← get
        let dataLen := writeDataLen (physicalAddr g r writeAddr % pageSize) remainLen
        let stored ← writePiece g depth writeAddr remainLen fun i => buf (len - remainLen + i)
        if stored then
          writePieces g depth len buf rounds (writeAddr + dataLen) (remainLen - dataLen)
        else pure .minusOne

/-- `spi_nand_write_internal`. -/
def spiNandWriteInternal (g : Geometry) (depth dstAddr len : ℕ) (buf : Bytes) : Drv Rtn := do
  Routine.perform NandOp.clearCache
  writePieces g depth len buf len dstAddr len

/-! ## Erasing -/

/-- `spi_nand_block_aligned_check`; `true` is success. The length is rounded up before it
is looked at. -/
def spiNandBlockAlignedCheck (addr len : ℕ) : Bool :=
  let len := if len % eraseSize ≠ 0 then (len / eraseSize + 1) * eraseSize else len
  addr % eraseSize = 0 && len % eraseSize = 0

/-- The loop of `spi_nand_erase_internal`. The bad-block layer is given the logical
address. -/
def eraseBlocks (g : Geometry) (depth len : ℕ) : ℕ → ℕ → ℕ → Drv Rtn
  | 0, _, _ => pure .noError
  | rounds + 1, addr, eraseLen =>
      if eraseLen < len then do
        let r ← get
        let erased ← Routine.perform
          (NandOp.eraseBlock (getMappingBlockIndex g r (addr / eraseSize)).1)
        if erased then eraseBlocks g depth len rounds (addr + eraseSize) (eraseLen + eraseSize)
        else
          let replaced ← updateBmt g depth addr .eraseFail none none
          if replaced then
            eraseBlocks g depth len rounds (addr + eraseSize) (eraseLen + eraseSize)
          else pure .eraseFail
      else pure .noError

/-- `spi_nand_erase_internal`. -/
def spiNandEraseInternal (g : Geometry) (depth addr len : ℕ) : Drv Rtn := do
  Routine.perform NandOp.clearCache
  if spiNandBlockAlignedCheck addr len then eraseBlocks g depth len len addr 0
  else pure .alignedCheckFail

/-! ## Reading -/

/-- The length of the piece a read takes out of a page. -/
def readDataLen (dataOffset remainLen : ℕ) : ℕ :=
  if dataOffset + remainLen < pageSize then remainLen else pageSize - dataOffset

/-- The loop of `spi_nand_read_internal`, on the buffer of the caller. -/
def readPieces (env : Env) (g : Geometry) (r : Ram) (len : ℕ) :
    ℕ → ℕ → ℕ → Bytes → Spi → Bytes × Spi
  | 0, _, _, out, s => (out, s)
  | rounds + 1, readAddr, remainLen, out, s =>
      if remainLen = 0 then (out, s)
      else
        let dataOffset := physicalAddr g r readAddr % pageSize
        let pageNumber := physicalAddr g r readAddr / pageSize
        let s := (spiNandReadPage env pageNumber s).2
        let dataLen := readDataLen dataOffset remainLen
        let out := overlay out (len - remainLen) (fun i => s.cache.data (dataOffset + i)) dataLen
        readPieces env g r len rounds (readAddr + dataLen) (remainLen - dataLen) out s

/-- `spi_nand_read_internal`: the status, and the caller's buffer. -/
def spiNandReadInternal (env : Env) (g : Geometry) (r : Ram) (addr len : ℕ) (out : Bytes)
    (s : Spi) : Rtn × Bytes × Spi :=
  (.noError, readPieces env g r len len (foldReserved addr) len out s)

end En7512.Flash
