/-
# The page layer of `spi_nand_flash.c`

The driver keeps one page in memory: the data, the physical spare area and the
logical spare area of the page it read last, and the number of that page. Every
access goes through these arrays. Reading refreshes all three; writing changes
the data and the physical spare area and leaves the logical one alone; erasing
does not look at them. The definitions keep exactly that.

`nandMachine` is the device the bad-block layer sees: the functions
`en7512_nand_*`, together with the page program and the block erase the
logical layer uses directly.
-/

import En7512.Logic.Program
import En7512.Nand.Chip

namespace En7512.Nand

open En7512.Logic

/-- `SPI_NAND_FLASH_RTN_T`, with the value `-1` that `spi_nand_write_internal`
returns besides. -/
inductive Rtn
  | noError
  | alignedCheckFail
  | detectedBadBlock
  | eraseFail
  | programFail
  | minusOne
  deriving DecidableEq, Repr

/-- The page in memory. -/
structure Cache where
  /-- `_current_page_num`; `none` is the value `0xFFFFFFFF`. -/
  pageNum : Option ℕ
  /-- `_current_cache_page_data`. -/
  data : Bytes
  /-- `_current_cache_page_oob`, at physical offsets. -/
  oob : Bytes
  /-- `_current_cache_page_oob_mapping`, at logical offsets. -/
  oobMapping : Bytes

/-- The cache when the driver is loaded: static variables start at zero. -/
def Cache.initial : Cache := ⟨none, fun _ => 0, fun _ => 0, fun _ => 0⟩

/-- The array and the page in memory. -/
structure Spi where
  chip : Chip
  cache : Cache

variable (env : Env)

/-- `SPI_NAND_Flash_Clear_Read_Cache_Data`. -/
def clearReadCacheData (s : Spi) : Spi := { s with cache := { s.cache with pageNum := none } }

/-- `spi_nand_read_page`, with `spi_nand_load_page_into_cache`. A page that
fails its ECC check leaves the arrays and the page number as they were. -/
def spiNandReadPage (page : ℕ) (s : Spi) : Rtn × Spi :=
  if s.cache.pageNum = some page then (.noError, s)
  else if env.uncorrectable s.chip.ticks page then (.detectedBadBlock, s)
  else
    let p := s.chip.pages page
    (.noError, { s with cache := ⟨some page, p.data, p.oob,
      env.layout.gather p.oob s.cache.oobMapping⟩ })

/-- `spi_nand_write_page`. The page is read, whatever the ECC check says, the
arrays are changed in place, and then they are programmed. -/
def spiNandWritePage (page dataOffset : ℕ) (dat : Bytes) (dataLen : ℕ) (oob : Bytes)
    (oobLen : ℕ) (s : Spi) : Rtn × Spi :=
  let s := (spiNandReadPage env page s).2
  let cache := { s.cache with
    data := overlay s.cache.data dataOffset dat dataLen
    oob := env.layout.scatter s.cache.oob oob oobLen }
  let (ok, chip) := s.chip.program env page ⟨cache.data, cache.oob⟩
  (if ok then .noError else .programFail, ⟨chip, cache⟩)

/-- `spi_nand_erase_block`. -/
def spiNandEraseBlock (block : ℕ) (s : Spi) : Rtn × Spi :=
  let (ok, chip) := s.chip.eraseBlock env block
  (if ok then .noError else .eraseFail, { s with chip := chip })

/-! ## The functions under the bad-block layer -/

/-- The two kinds of bad mark, `BAD_BLOCK_RAW` and `BMT_BADBLOCK_GENERATE_LATER`. -/
inductive BadKind
  | raw
  | generateLater
  deriving DecidableEq, Repr

/-- The logical spare byte that carries the mark: `0`, or
`BMT_BAD_BLOCK_INDEX_OFFSET`. -/
def BadKind.index : BadKind → ℕ
  | .raw => 0
  | .generateLater => 1

/-- The bytes `en7512_nand_mark_badblock` writes to the spare area. -/
def BadKind.mark (kind : BadKind) : Bytes := fun i => if i = kind.index then 0 else 0xff

/-- The address window reserved for the system is folded onto the chip. -/
def foldReserved (offset : ℕ) : ℕ :=
  if 0xbc000000 ≤ offset ∧ offset ≤ 0xbfffffff then
    if offset &&& 0xbfc00000 = 0xbfc00000 then offset &&& 0x003fffff
    else offset &&& 0x03ffffff
  else offset

/-- `en7512_nand_exec_read_page`: the data and the logical spare area, or an error. -/
def en7512NandExecReadPage (page : ℕ) (s : Spi) : Option (Bytes × Bytes) × Spi :=
  let (rtn, s) := spiNandReadPage env page s
  (if rtn = .noError then some (s.cache.data, s.cache.oobMapping) else none, s)

/-- `en7512_nand_check_block_bad`. The status of the read is not looked at. -/
def en7512NandCheckBlockBad (offset : ℕ) (kind : BadKind) (s : Spi) : Bool × Spi :=
  let s := (spiNandReadPage env (foldReserved offset / pageSize) s).2
  (s.cache.oobMapping kind.index != 0xff, s)

/-- `en7512_nand_mark_badblock`; `true` is success. -/
def en7512NandMarkBadblock (offset : ℕ) (kind : BadKind) (s : Spi) : Bool × Spi :=
  let (rtn, s) := spiNandWritePage env (offset / pageSize) 0 allOnes 0 kind.mark 8 s
  (rtn = .noError, s)

/-! ## The device as a machine -/

/-- The operations of the page layer that the layers above use. -/
inductive NandOp
  /-- `en7512_nand_exec_read_page`. -/
  | readPage (page : ℕ)
  /-- `en7512_nand_check_block_bad`. -/
  | checkBlockBad (offset : ℕ) (kind : BadKind)
  /-- `en7512_nand_mark_badblock`. -/
  | markBadblock (offset : ℕ) (kind : BadKind)
  /-- `spi_nand_erase_block`, which `en7512_nand_erase` calls for the block of its offset. -/
  | eraseBlock (block : ℕ)
  /-- `spi_nand_write_page`; `en7512_nand_exec_write_page` writes a whole page with it. -/
  | writePage (page dataOffset : ℕ) (dat : Bytes) (dataLen : ℕ) (oob : Bytes) (oobLen : ℕ)
  /-- `SPI_NAND_Flash_Clear_Read_Cache_Data`. -/
  | clearCache

/-- The answer of each operation; for the ones that can fail `true` is success. -/
@[reducible] def NandResp : NandOp → Type
  | .readPage _ => Option (Bytes × Bytes)
  | .checkBlockBad _ _ => Bool
  | .markBadblock _ _ => Bool
  | .eraseBlock _ => Bool
  | .writePage _ _ _ _ _ _ => Bool
  | .clearCache => Unit

/-- The driver's page layer on the chip. -/
def nandMachine : Machine NandOp NandResp Spi
  | .readPage page, s => en7512NandExecReadPage env page s
  | .checkBlockBad offset kind, s => en7512NandCheckBlockBad env offset kind s
  | .markBadblock offset kind, s => en7512NandMarkBadblock env offset kind s
  | .eraseBlock block, s =>
      let (rtn, s) := spiNandEraseBlock env block s
      (rtn = .noError, s)
  | .writePage page dataOffset dat dataLen oob oobLen, s =>
      let (rtn, s) := spiNandWritePage env page dataOffset dat dataLen oob oobLen s
      (rtn = .noError, s)
  | .clearCache, s => ((), clearReadCacheData s)

end En7512.Nand
