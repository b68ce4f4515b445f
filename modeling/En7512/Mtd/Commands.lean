/-
# The command interface to MTD

`spinand_cmdfunc` and the functions that move bytes for it. A command sets up positions in
`struct spinand_state`; `spinand_write_buf` puts the bytes of a page together there, and
`spinand_read_buf` takes bytes out of the page in memory. The positions are advanced by one
function and looked at by another, and the definitions keep every one of them.

`NAND_CMD_READID`, `NAND_CMD_STATUS` and `NAND_CMD_RESET` only talk to the registers of the
chip and are left out, and so is the field `command`, which tells them from the others.
-/

import En7512.Flash.Internal

namespace En7512.Mtd

open En7512.Logic En7512.Nand En7512.Bmt En7512.Flash

/-- `LINUX_USE_OOB_START_OFFSET`. -/
def linuxUseOobStartOffset : ℕ := 4

/-- `MAX_LINUX_USE_OOB_SIZE`. -/
def maxLinuxUseOobSize : ℕ := 26

/-- `MAX_USE_OOB_SIZE`. -/
def maxUseOobSize : ℕ := 32

/-- `struct spinand_state`. -/
structure SpinandState where
  /-- The column the next byte is written to. -/
  col : ℕ
  /-- The page that is to be programmed. -/
  row : ℕ
  /-- The position in `buf`, or in the page in memory. -/
  bufIdx : ℕ
  /-- `buf`, of `BUFSIZE` bytes. -/
  buf : Bytes
  /-- The number of data bytes to be programmed. -/
  bufLen : ℕ
  /-- `oob_buf`, of `MAX_USE_OOB_SIZE` bytes. -/
  oobBuf : Bytes
  /-- The number of spare bytes of the last chunk. -/
  oobBufLen : ℕ

/-- The state when the driver is loaded: the buffers are allocated with `kzalloc`. -/
def SpinandState.initial : SpinandState := ⟨0, 0, 0, fun _ => 0, 0, fun _ => 0, 0⟩

/-- The interface with the layers below it. -/
structure MtdInfo where
  state : SpinandState
  /-- The variables of the bad-block layer. -/
  ram : Ram
  /-- The array and the page in memory. -/
  spi : Spi

/-! ## Pages -/

/-- The physical page that the page functions go to. -/
def physicalPage (g : Geometry) (r : Ram) (pageNumber : ℕ) : ℕ :=
  pageNumber * pageSize % eraseSize / pageSize +
    (getMappingBlockIndex g r (pageNumber * pageSize / eraseSize)).1 * eraseSize / pageSize

/-- `spi_nand_read_page_internal`, which says that there is no error whatever the read of
the page says. -/
def spiNandReadPageInternal (g : Geometry) (pageNumber : ℕ) : Drv Rtn := do
  let r ← get
  let _ ← Routine.perform (NandOp.readPage (physicalPage g r pageNumber))
  pure .noError

/-- The buffer for the spare area, when the index of the block that a pool block stands in
for has been copied into it. -/
def indexedOob (g : Geometry) (block : ℕ × ℕ) (oob : Bytes) : Bytes :=
  if g.systemBlockCount ≤ block.1 then putU16 oob 2 block.2 else oob

/-- `spi_nand_write_page_internal`: the status, and the caller's buffer for the spare area.
The data is stored at `addr_offset`, which is never given a value, and not at `data_offset`;
bytes that are copied past the end of the page in memory fall on other variables. -/
def spiNandWritePageInternal (g : Geometry) (depth addrOffset pageNumber _dataOffset : ℕ)
    (dat : Option Bytes) (dataLen : ℕ) (oob : Bytes) : Drv (Rtn × Bytes) := do
  Routine.perform NandOp.clearCache
  let r ← get
  let page := physicalPage g r pageNumber
  let oob := indexedOob g (getMappingBlockIndex g r (pageNumber * pageSize / eraseSize)) oob
  if 0 < dataLen ∧ (dat = none ∨ pageSize < addrOffset + dataLen) then Routine.stuck
  else
    let written ← Routine.perform
      (NandOp.writePage page addrOffset (dat.getD allOnes) dataLen oob maxUseOobSize)
    let stored ←
      if written then pure true
      else updateBmt g depth (page * pageSize) .writeFail dat (some oob)
    Routine.perform NandOp.clearCache
    pure (if stored then .noError else .programFail, oob)

/-! ## Writing a page -/

/-- The memory that a chunk is copied from. -/
def chunkBytes (chunk : List UInt8) : Bytes := fun i => chunk.getD i 0

/-- `spinand_write_buf`. -/
def spinandWriteBuf (chunk : List UInt8) (st : SpinandState) : SpinandState :=
  if pageSize ≤ st.col then
    -- the difference is unsigned
    let minOobSize :=
      min chunk.length ((2 ^ 32 + maxLinuxUseOobSize - (st.col - pageSize)) % 2 ^ 32)
    { st with
      oobBuf := overlay st.oobBuf (st.col - pageSize + linuxUseOobStartOffset)
        (chunkBytes chunk) minOobSize
      col := st.col + minOobSize
      oobBufLen := minOobSize }
  else
    -- `buf_idx` stays where it is
    { st with
      buf := overlay st.buf st.bufIdx (chunkBytes chunk) chunk.length
      col := st.col + chunk.length
      bufLen := st.bufLen + chunk.length }

/-- `spinand_program_page`; the buffer it reads is the one of the state. -/
def spinandProgramPage (env : Env) (g : Geometry) (depth addrOffset : ℕ) (m : MtdInfo) :
    Option MtdInfo :=
  let st := m.state
  let page := spiNandWritePageInternal g depth addrOffset st.row st.bufIdx
    (some fun i => st.buf (st.bufIdx + i)) st.bufLen st.oobBuf
  (Routine.exec (nandMachine env) page m.ram m.spi).map fun out =>
    ⟨{ st with oobBuf := out.1.2 }, out.2.1, out.2.2⟩

/-- `spinand_write_oob`: the spare bytes of a page alone. `oobPoi` is `chip->oob_poi`. -/
def spinandWriteOob (env : Env) (g : Geometry) (depth addrOffset page : ℕ) (oobPoi : Bytes)
    (m : MtdInfo) : Option (Bool × MtdInfo) :=
  let oobBuf := overlay (overlay m.state.oobBuf 0 allOnes maxUseOobSize)
    linuxUseOobStartOffset oobPoi maxLinuxUseOobSize
  let written := spiNandWritePageInternal g depth addrOffset page 0 none 0 oobBuf
  (Routine.exec (nandMachine env) written m.ram m.spi).map fun out =>
    (out.1.1 = .noError, ⟨{ m.state with oobBuf := out.1.2 }, out.2.1, out.2.2⟩)

/-! ## Reading a page -/

/-- `_current_cache_page_data`, and `behind` it whatever the linker has put there. -/
def dataMemory (behind : Bytes) (cache : Cache) : Bytes := fun i =>
  if i < pageSize then cache.data i else behind (i - pageSize)

/-- `spinand_read_buf`: a call that begins in the data goes on behind it. -/
def spinandReadBuf (behind : Bytes) (len : ℕ) (m : MtdInfo) : List UInt8 × MtdInfo :=
  let idx := m.state.bufIdx
  let src : Bytes :=
    if idx < pageSize then fun k => dataMemory behind m.spi.cache (idx + k)
    else fun k => m.spi.cache.oobMapping (idx - pageSize + linuxUseOobStartOffset + k)
  ((List.range len).map src, { m with state := { m.state with bufIdx := idx + len } })

/-- `spinand_read_byte`, which looks at the buffer for writing. -/
def spinandReadByte (m : MtdInfo) : UInt8 × MtdInfo :=
  (m.state.buf m.state.bufIdx, { m with state := { m.state with bufIdx := m.state.bufIdx + 1 } })

/-! ## Commands -/

/-- The commands of `spinand_cmdfunc`. -/
inductive Command
  | read0
  | read1
  | readOob
  | rndOut
  | erase1
  | erase2
  | seqIn
  | pageProg
  deriving DecidableEq, Repr

/-- `spinand_erase_block` for the block of a page; the block number is a `u16`. -/
def spinandEraseBlock (env : Env) (g : Geometry) (depth page : ℕ) (m : MtdInfo) :
    Option MtdInfo :=
  let blockId := page / (eraseSize / pageSize) % 2 ^ 16
  (Routine.exec (nandMachine env)
    (spiNandEraseInternal g depth (blockId * eraseSize % 2 ^ 32) eraseSize) m.ram m.spi).map
      fun out => ⟨m.state, out.2.1, out.2.2⟩

/-- Read a page into memory, and put the position at `idx`. -/
def readPageAt (env : Env) (g : Geometry) (idx page : ℕ) (m : MtdInfo) : Option MtdInfo :=
  (Routine.exec (nandMachine env) (spiNandReadPageInternal g page) m.ram m.spi).map fun out =>
    ⟨{ m.state with bufIdx := idx }, out.2.1, out.2.2⟩

/-- `spinand_cmdfunc`. What `spinand_program_page` and `spinand_erase_block` answer is not
looked at. -/
def spinandCmdfunc (env : Env) (g : Geometry) (depth addrOffset : ℕ) (command : Command)
    (column page : ℕ) (m : MtdInfo) : Option MtdInfo :=
  match command with
  | .read0 => readPageAt env g column page m
  | .read1 => readPageAt env g column page m
  | .readOob => readPageAt env g (column + pageSize) page m
  | .rndOut => some { m with state := { m.state with bufIdx := column } }
  | .erase1 => spinandEraseBlock env g depth page m
  | .erase2 => some m
  | .seqIn => some { m with state := ⟨column, page, column, allOnes, 0, allOnes, 0⟩ }
  | .pageProg => spinandProgramPage env g depth addrOffset m

end En7512.Mtd
