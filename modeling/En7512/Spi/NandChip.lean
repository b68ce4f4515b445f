/-
# The flash chip on the wires

A serial flash chip as its data sheet describes it: between the fall and the rise of chip
select it takes one command, of an operation code, address bytes and data, or gives data for
one. It has a page register for each plane, a write enable latch, a protection and a feature
register, and a status register that says whether an operation is in progress and how the last
ones ended. A command is obeyed when chip select rises, and not while the chip is busy.

The outcome of programming and erasing, the verdict of the error correction and the time an
operation takes are the chip's own; results quantify over them.
-/

import En7512.Spi.Controller
import En7512.Spi.FlashTable

namespace En7512.Spi

open En7512.Nand

/-! ## Operation codes and register addresses -/

/-- `_SPI_NAND_OP_GET_FEATURE`. -/
def opGetFeature : UInt8 := 0x0f

/-- `_SPI_NAND_OP_SET_FEATURE`. -/
def opSetFeature : UInt8 := 0x1f

/-- `_SPI_NAND_OP_PAGE_READ`. -/
def opPageRead : UInt8 := 0x13

/-- `_SPI_NAND_OP_READ_FROM_CACHE_SINGLE` and its dual and quad forms. -/
def opReadFromCache : Speed → UInt8
  | .single => 0x03
  | .dual => 0x3b
  | .quad => 0x6b

/-- `_SPI_NAND_OP_WRITE_ENABLE`. -/
def opWriteEnable : UInt8 := 0x06

/-- `_SPI_NAND_OP_WRITE_DISABLE`. -/
def opWriteDisable : UInt8 := 0x04

/-- `_SPI_NAND_OP_PROGRAM_LOAD_SINGLE`. -/
def opProgramLoadSingle : UInt8 := 0x02

/-- `_SPI_NAND_OP_PROGRAM_LOAD_QUAD`. -/
def opProgramLoadQuad : UInt8 := 0x32

/-- `_SPI_NAND_OP_PROGRAM_LOAD_RAMDOM_SINGLE`. -/
def opProgramLoadRandomSingle : UInt8 := 0x84

/-- `_SPI_NAND_OP_PROGRAM_LOAD_RAMDON_QUAD`. -/
def opProgramLoadRandomQuad : UInt8 := 0x34

/-- `_SPI_NAND_OP_PROGRAM_EXECUTE`. -/
def opProgramExecute : UInt8 := 0x10

/-- `_SPI_NAND_OP_READ_ID`. -/
def opReadId : UInt8 := 0x9f

/-- `_SPI_NAND_OP_BLOCK_ERASE`. -/
def opBlockErase : UInt8 := 0xd8

/-- `_SPI_NAND_ADDR_PROTECTION`. -/
def addrProtection : UInt8 := 0xa0

/-- `_SPI_NAND_ADDR_FEATURE`. -/
def addrFeature : UInt8 := 0xb0

/-- `_SPI_NAND_ADDR_STATUS`. -/
def addrStatus : UInt8 := 0xc0

/-! ## The chip -/

/-- What one chip is like. -/
structure ChipModel where
  /-- Its entry in the device table. -/
  info : FlashInfo
  /-- The outcome of each program and erase operation, numbered in order. -/
  outcome : ℕ → Outcome
  /-- The error correction code in the status after loading the page, after that many
  operations. -/
  ecc : ℕ → ℕ → Fin 8
  /-- How often the status reads busy after the operations, numbered in order. -/
  busyFor : ℕ → ℕ
  /-- Whether the read of the numbers takes an address byte. -/
  idAddress : Bool
  /-- Whether the value of the protection register locks the block. -/
  locked : UInt8 → ℕ → Bool

/-- What the chip holds. -/
structure NandChip where
  array : Chip
  /-- The page register of each plane, by column. -/
  registers : Bool → Bytes
  writeEnabled : Bool
  /-- Reads of the status until the operation in progress is over. -/
  busy : ℕ
  /-- Loads, programs and erases so far. -/
  started : ℕ
  ecc : Fin 8
  programFail : Bool
  eraseFail : Bool
  protection : UInt8
  feature : UInt8

/-- The bytes sent since chip select fell, with the lines they came on. -/
abbrev Frame : Type := List (Speed × UInt8)

/-- The bytes of the frame, if they came on these lines. -/
def bytesAt (speed : Speed) (frame : Frame) : Option (List UInt8) :=
  if frame.all fun x => x.1 = speed then some (frame.map Prod.snd) else none

/-- A row address of three bytes. -/
def rowOf (high mid low : UInt8) : ℕ := high.toNat * 65536 + mid.toNat * 256 + low.toNat

/-- A column address of two bytes. -/
def columnOf (high low : UInt8) : ℕ := high.toNat % 16 * 256 + low.toNat

namespace ChipModel

variable (model : ChipModel)

/-- The plane a column address names: bit 12, on the chips that have two. -/
def planeOfColumn (high : UInt8) : Bool :=
  model.info.planeSelect = .selectHave ∧ high.toNat / 16 % 2 = 1

/-- The plane of a page: the planes take turns block by block. -/
def planeOfRow (row : ℕ) : Bool :=
  model.info.planeSelect = .selectHave ∧ row / pagePerBlock % 2 = 1

/-- The columns of a page: the data and behind it the spare area. -/
def columns (p : Page) : Bytes := fun i => if i < pageSize then p.data i else p.oob (i - pageSize)

/-- The page with these columns. Cells that are not there keep what they had. -/
def pageOf (columns : Bytes) : Page where
  data i := if i < pageSize then columns i else 0xff
  oob i := if i < model.info.oobSize then columns (pageSize + i) else 0xff

/-- What the array needs to know of its environment: the outcomes. -/
def arrayEnv : Env := ⟨model.info.oobFreeLayout, model.outcome, fun _ _ => false⟩

/-! ### Commands -/

/-- Begin an operation that keeps the chip busy. -/
def start (chip : NandChip) : NandChip :=
  { chip with busy := model.busyFor chip.started, started := chip.started + 1 }

/-- Load a page into the register of its plane. -/
def loadPage (row : ℕ) (chip : NandChip) : NandChip :=
  model.start { chip with
    registers :=
      Function.update chip.registers (model.planeOfRow row) (columns (chip.array.pages row))
    ecc := model.ecc chip.array.ticks row }

/-- Put bytes into a page register. Loading resets it first, random loading does not. -/
def programLoad (reset : Bool) (high low : UInt8) (bytes : List UInt8) (chip : NandChip) :
    NandChip :=
  let plane := model.planeOfColumn high
  let before := if reset then allOnes else chip.registers plane
  { chip with
    registers := Function.update chip.registers plane
      (overlay before (columnOf high low) (fun i => bytes.getD i 0) bytes.length) }

/-- Program the page register of its plane into a page. -/
def programExecute (row : ℕ) (chip : NandChip) : NandChip :=
  if chip.writeEnabled then
    if model.locked chip.protection (row / pagePerBlock) then
      { chip with writeEnabled := false, programFail := true }
    else
      let (ok, array) := chip.array.program model.arrayEnv row
        (model.pageOf (chip.registers (model.planeOfRow row)))
      model.start { chip with array := array, writeEnabled := false, programFail := !ok }
  else chip

/-- Erase the block of a page. -/
def blockErase (row : ℕ) (chip : NandChip) : NandChip :=
  if chip.writeEnabled then
    if model.locked chip.protection (row / pagePerBlock) then
      { chip with writeEnabled := false, eraseFail := true }
    else
      let (ok, array) := chip.array.eraseBlock model.arrayEnv (row / pagePerBlock)
      model.start { chip with array := array, writeEnabled := false, eraseFail := !ok }
  else chip

/-- Set a register; the status cannot be set. -/
def setFeature (addr value : UInt8) (chip : NandChip) : NandChip :=
  if addr = addrProtection then { chip with protection := value }
  else if addr = addrFeature then { chip with feature := value }
  else chip

/-- A command with a row address. -/
def withRow (command : ℕ → NandChip → NandChip) (args : Frame) (chip : NandChip) : NandChip :=
  match args with
  | [(.single, high), (.single, mid), (.single, low)] => command (rowOf high mid low) chip
  | _ => chip

/-- A command with a column address and data on these lines. -/
def withData (command : UInt8 → UInt8 → List UInt8 → NandChip → NandChip) (speed : Speed)
    (args : Frame) (chip : NandChip) : NandChip :=
  match args with
  | (.single, high) :: (.single, low) :: sent =>
      match bytesAt speed sent with
      | some bytes => command high low bytes chip
      | none => chip
  | _ => chip

/-- Obey a command; what is no command is ignored. -/
def obey (op : UInt8) (args : Frame) (chip : NandChip) : NandChip :=
  if op = opWriteEnable ∧ args = [] then { chip with writeEnabled := true }
  else if op = opWriteDisable ∧ args = [] then { chip with writeEnabled := false }
  else if op = opSetFeature then
    match args with
    | [(.single, addr), (.single, value)] => setFeature addr value chip
    | _ => chip
  else if op = opPageRead then withRow model.loadPage args chip
  else if op = opProgramLoadSingle then withData (model.programLoad true) .single args chip
  else if op = opProgramLoadQuad then withData (model.programLoad true) .quad args chip
  else if op = opProgramLoadRandomSingle then
    withData (model.programLoad false) .single args chip
  else if op = opProgramLoadRandomQuad then withData (model.programLoad false) .quad args chip
  else if op = opProgramExecute then withRow model.programExecute args chip
  else if op = opBlockErase then withRow model.blockErase args chip
  else chip

/-- Chip select rises: the frame is a command, unless the chip is busy. -/
def commit (frame : Frame) (chip : NandChip) : NandChip :=
  match frame with
  | (.single, op) :: args => if chip.busy = 0 then model.obey op args chip else chip
  | _ => chip

end ChipModel

/-! ### Answers -/

/-- The status register: the code of the error correction, how the last program and erase
ended, the write enable latch, and whether an operation is in progress. -/
def statusByte (ecc : Fin 8) (programFail eraseFail writeEnabled busy : Bool) : UInt8 :=
  UInt8.ofNat (16 * ecc.val + 8 * programFail.toNat + 4 * eraseFail.toNat +
    2 * writeEnabled.toNat + busy.toNat)

/-- The status of the chip. -/
def NandChip.status (chip : NandChip) : UInt8 :=
  statusByte chip.ecc chip.programFail chip.eraseFail chip.writeEnabled (chip.busy ≠ 0)

/-- A register that is read. Reading the status brings the end of the operation nearer. -/
def NandChip.getFeature (addr : UInt8) (chip : NandChip) : UInt8 × NandChip :=
  if addr = addrProtection then (chip.protection, chip)
  else if addr = addrFeature then (chip.feature, chip)
  else if addr = addrStatus then (chip.status, { chip with busy := chip.busy - 1 })
  else (0, chip)

namespace ChipModel

variable (model : ChipModel)

/-- The numbers, from the manufacturer's on. -/
def idByte (i : ℕ) : UInt8 := [model.info.mfrId, model.info.devId].getD i 0

/-- The bytes of a column address, the dummy bytes taken out. With a dummy byte in front, the
faster commands have one behind the address as well. -/
def columnArgs (speed : Speed) (args : Frame) : Option (UInt8 × UInt8) :=
  match model.info.dummyMode, speed, args with
  | .append, _, [(.single, high), (.single, low), (.single, _)] => some (high, low)
  | .prepend, .single, [(.single, _), (.single, high), (.single, low)] => some (high, low)
  | .prepend, .dual, [(.single, _), (.single, high), (.single, low), (.single, _)] =>
      some (high, low)
  | .prepend, .quad, [(.single, _), (.single, high), (.single, low), (.single, _)] =>
      some (high, low)
  | _, _, _ => none

/-- The byte number `given` for a command, on these lines. -/
def answer (op : UInt8) (args : Frame) (given : ℕ) (speed : Speed) (chip : NandChip) :
    UInt8 × NandChip :=
  if op = opGetFeature then
    match args with
    | [(.single, addr)] => if speed = .single then chip.getFeature addr else (0xff, chip)
    | _ => (0xff, chip)
  else if chip.busy ≠ 0 then (0xff, chip)
  else if op = opReadId then
    if model.idAddress then
      if args.length = 1 then (model.idByte given, chip) else (0xff, chip)
    else (model.idByte (args.length + given), chip)
  else if op = opReadFromCache speed then
    match model.columnArgs speed args with
    | some (high, low) =>
        (chip.registers (model.planeOfColumn high) (columnOf high low + given), chip)
    | none => (0xff, chip)
  else (0xff, chip)

/-- The chip, the frame since chip select fell, and the bytes given for it. -/
structure OnWires where
  chip : NandChip
  frame : Frame
  given : ℕ

/-- The chip as a slave. -/
def slave : Slave OnWires where
  select w := { w with frame := [], given := 0 }
  deselect w := ⟨model.commit w.frame w.chip, [], 0⟩
  clock _ w := w
  shiftOut speed b w := { w with frame := w.frame ++ [(speed, b)] }
  shiftIn speed w :=
    match w.frame with
    | (.single, op) :: args =>
        let (b, chip) := model.answer op args w.given speed w.chip
        (b, ⟨chip, w.frame, w.given + 1⟩)
    | _ => (0xff, { w with given := w.given + 1 })

end ChipModel

end En7512.Spi
