/-
# The commands of the flash chip

`spi_nand_protocol_*` send the commands of the chip over the bus. Each of them is one frame:
chip select falls, the operation code and the address bytes go out one by one, data follow in
either direction, and chip select rises. `exec_command` and its relatives say what a frame
does to the chip of `NandChip`, whatever the command is.

`spi_nand_protocol_reset` is to send the operation code `0xFF`, as its comment says, and sends
the one of the feature registers; without an address the chip ignores it.
-/

import En7512.Spi.NandChip

namespace En7512.Spi

open En7512.Logic En7512.Nand
open En7512.Logic.Program (exec perform)

/-- Call a function of the controller. -/
def bus (op : BusOp) : Program BusOp BusResp (BusResp op) := perform op

/-- `_SPI_NAND_WRITE_ONE_BYTE`, for each byte in turn. -/
def writeBytes : List UInt8 → Program BusOp BusResp Unit
  | [] => pure ()
  | b :: rest => do
      bus (.writeOneByte b)
      writeBytes rest

/-- A frame without data. -/
def command (header : List UInt8) : Program BusOp BusResp Unit := do
  bus .chipSelectLow
  writeBytes header
  bus .chipSelectHigh

/-- A frame that reads. -/
def commandRead (header : List UInt8) (len : ℕ) (speed : Speed) :
    Program BusOp BusResp (List UInt8) := do
  bus .chipSelectLow
  writeBytes header
  let bytes ← bus (.readNByte len speed)
  bus .chipSelectHigh
  pure bytes

/-- A frame that writes. -/
def commandWrite (header bytes : List UInt8) (speed : Speed) : Program BusOp BusResp Unit := do
  bus .chipSelectLow
  writeBytes header
  bus (.writeNByte bytes speed)
  bus .chipSelectHigh

/-! ## The commands -/

/-- `spi_nand_protocol_reset`. The source sends `_SPI_NAND_OP_SET_FEATURE`. -/
def spiNandProtocolReset : Program BusOp BusResp Unit := command [opSetFeature]

/-- The three functions that set a register have this frame. -/
def protocolSetFeature (addr value : UInt8) : Program BusOp BusResp Unit :=
  command [opSetFeature, addr, value]

/-- The functions that read a register have this frame. -/
def protocolGetFeature (addr : UInt8) : Program BusOp BusResp UInt8 := do
  let bytes ← commandRead [opGetFeature, addr] 1 .single
  pure (bytes.headD 0)

/-- `spi_nand_protocol_set_status_reg_1`. -/
def spiNandProtocolSetStatusReg1 (protection : UInt8) : Program BusOp BusResp Unit :=
  protocolSetFeature addrProtection protection

/-- `spi_nand_protocol_get_status_reg_1`. -/
def spiNandProtocolGetStatusReg1 : Program BusOp BusResp UInt8 :=
  protocolGetFeature addrProtection

/-- `spi_nand_protocol_set_status_reg_2`. -/
def spiNandProtocolSetStatusReg2 (feature : UInt8) : Program BusOp BusResp Unit :=
  protocolSetFeature addrFeature feature

/-- `spi_nand_protocol_get_status_reg_2`. -/
def spiNandProtocolGetStatusReg2 : Program BusOp BusResp UInt8 :=
  protocolGetFeature addrFeature

/-- `spi_nand_protocol_get_status_reg_3`. -/
def spiNandProtocolGetStatusReg3 : Program BusOp BusResp UInt8 :=
  protocolGetFeature addrStatus

/-- `spi_nand_protocol_write_enable`. -/
def spiNandProtocolWriteEnable : Program BusOp BusResp Unit := command [opWriteEnable]

/-- `spi_nand_protocol_write_disable`. -/
def spiNandProtocolWriteDisable : Program BusOp BusResp Unit := command [opWriteDisable]

/-- The three address bytes of a row. -/
def rowBytes (row : ℕ) : List UInt8 :=
  [UInt8.ofNat (row >>> 16), UInt8.ofNat (row >>> 8), UInt8.ofNat row]

/-- `spi_nand_protocol_block_erase`. -/
def spiNandProtocolBlockErase (blockIdx : ℕ) : Program BusOp BusResp Unit :=
  command (opBlockErase :: rowBytes (blockIdx <<< 6))

/-- The two numbers of a chip, read one by one. -/
def protocolReadId (header : List UInt8) : Program BusOp BusResp (UInt8 × UInt8) := do
  bus .chipSelectLow
  writeBytes header
  let mfr ← bus (.readNByte 1 .single)
  let dev ← bus (.readNByte 1 .single)
  bus .chipSelectHigh
  pure (mfr.headD 0, dev.headD 0)

/-- `spi_nand_protocol_read_id`. -/
def spiNandProtocolReadId : Program BusOp BusResp (UInt8 × UInt8) :=
  protocolReadId [opReadId, 0x00]

/-- `spi_nand_protocol_read_id_2`. -/
def spiNandProtocolReadId2 : Program BusOp BusResp (UInt8 × UInt8) := protocolReadId [opReadId]

/-- `spi_nand_protocol_page_read`. -/
def spiNandProtocolPageRead (pageNumber : ℕ) : Program BusOp BusResp Unit :=
  command (opPageRead :: rowBytes pageNumber)

/-- The first byte of a column address. With two planes it carries `_plane_select_bit`; a value
of that other than `0` and `1` sends nothing. -/
def columnHigh (info : FlashInfo) (planeSelectBit offset : ℕ) : List UInt8 :=
  match info.planeSelect with
  | .selectHave =>
      (if planeSelectBit = 0 then [UInt8.ofNat (offset >>> 8) &&& 0xef] else []) ++
        (if planeSelectBit = 1 then [UInt8.ofNat (offset >>> 8) ||| 0x10] else [])
  | .selectNone => [UInt8.ofNat (offset >>> 8)]

/-- What goes out before the data of `spi_nand_protocol_read_from_cache_*_speed`. The single
speed command has one dummy byte, on the side the device table says; the other two always have
one behind the address. -/
def readFromCacheHeader (info : FlashInfo) (planeSelectBit dataOffset : ℕ) (speed : Speed) :
    List UInt8 :=
  opReadFromCache speed ::
    ((if info.dummyMode = .prepend then [0xff] else []) ++
      columnHigh info planeSelectBit dataOffset ++ [UInt8.ofNat dataOffset] ++
      (if info.dummyMode = .append ∨ speed ≠ .single then [0xff] else []))

/-- `spi_nand_protocol_read_from_cache_single_speed`, and its dual and quad forms. -/
def spiNandProtocolReadFromCache (info : FlashInfo) (planeSelectBit dataOffset len : ℕ)
    (speed : Speed) : Program BusOp BusResp (List UInt8) :=
  commandRead (readFromCacheHeader info planeSelectBit dataOffset speed) len speed

/-- `spi_nand_protocol_program_load_single_speed`. -/
def spiNandProtocolProgramLoadSingleSpeed (info : FlashInfo) (planeSelectBit addr : ℕ)
    (bytes : List UInt8) : Program BusOp BusResp Unit :=
  commandWrite (opProgramLoadSingle :: (columnHigh info planeSelectBit addr ++
    [UInt8.ofNat addr])) bytes .single

/-- `spi_nand_protocol_program_load_quad_speed`. -/
def spiNandProtocolProgramLoadQuadSpeed (info : FlashInfo) (planeSelectBit addr : ℕ)
    (bytes : List UInt8) : Program BusOp BusResp Unit :=
  commandWrite (opProgramLoadQuad :: (columnHigh info planeSelectBit addr ++
    [UInt8.ofNat addr])) bytes .quad

/-- `spi_nand_protocol_program_load_random_single_speed`, which knows no planes. -/
def spiNandProtocolProgramLoadRandomSingleSpeed (addr : ℕ) (bytes : List UInt8) :
    Program BusOp BusResp Unit :=
  commandWrite [opProgramLoadRandomSingle, UInt8.ofNat (addr >>> 8), UInt8.ofNat addr] bytes
    .single

/-- `spi_nand_protocol_program_load_random_quad_speed`, which knows no planes. -/
def spiNandProtocolProgramLoadRandomQuadSpeed (addr : ℕ) (bytes : List UInt8) :
    Program BusOp BusResp Unit :=
  commandWrite [opProgramLoadRandomQuad, UInt8.ofNat (addr >>> 8), UInt8.ofNat addr] bytes .quad

/-- `spi_nand_protocol_program_execute`. -/
def spiNandProtocolProgramExecute (addr : ℕ) : Program BusOp BusResp Unit :=
  command (opProgramExecute :: rowBytes addr)

/-! ## What a frame does -/

section Frames

variable (model : ChipModel)

/-- The chip at the end of the bus. -/
abbrev chipOnBus : Machine BusOp BusResp ChipModel.OnWires := busMachine model.slave

/-- The chip between two frames. -/
def between (chip : NandChip) : ChipModel.OnWires := ⟨chip, [], 0⟩

/-- Bytes on one line. -/
def onLine (bytes : List UInt8) : Frame := bytes.map fun b => (.single, b)

variable {model}

theorem exec_writeBytes (bytes : List UInt8) (w : ChipModel.OnWires) :
    exec (chipOnBus model) (writeBytes bytes) w =
      some ((), { w with frame := w.frame ++ onLine bytes }) := by
  induction bytes generalizing w with
  | nil => simp [writeBytes, onLine]
  | cons b rest ih =>
      show exec (chipOnBus model) (writeBytes rest)
        { w with frame := w.frame ++ [(.single, b)] } = _
      rw [ih]
      simp [onLine]

theorem exec_command (header : List UInt8) (chip : NandChip) :
    exec (chipOnBus model) (command header) (between chip) =
      some ((), between (model.commit (onLine header) chip)) := by
  show exec (chipOnBus model) (writeBytes header >>= fun _ => bus .chipSelectHigh)
    (between chip) = _
  rw [Program.exec_bind, exec_writeBytes]
  rfl

theorem sendAll_frame (speed : Speed) (bytes : List UInt8) (w : ChipModel.OnWires) :
    model.slave.sendAll speed bytes w =
      { w with frame := w.frame ++ bytes.map fun b => (speed, b) } := by
  induction bytes generalizing w with
  | nil => simp
  | cons b rest ih =>
      rw [Slave.sendAll_cons, ih]
      simp [ChipModel.slave]

theorem exec_commandWrite (header bytes : List UInt8) (speed : Speed) (chip : NandChip) :
    exec (chipOnBus model) (commandWrite header bytes speed) (between chip) = some ((), between
      (model.commit (onLine header ++ bytes.map fun b => (speed, b)) chip)) := by
  show exec (chipOnBus model) (writeBytes header >>= fun _ =>
    (bus (.writeNByte bytes speed) >>= fun _ => bus .chipSelectHigh)) (between chip) = _
  rw [Program.exec_bind, exec_writeBytes]
  show some ((), ChipModel.OnWires.mk (model.commit
    (model.slave.sendAll speed bytes _).frame (model.slave.sendAll speed bytes _).chip) [] 0) = _
  rw [sendAll_frame]
  rfl

/-- A command that is answered without a change of the chip gives its bytes in a row. -/
theorem receive_answers (model : ChipModel) {op : UInt8} {args : Frame} {speed : Speed}
    {chip : NandChip} {bytes : ℕ → UInt8}
    (answers : ∀ given, model.answer op args given speed chip = (bytes given, chip))
    (len given : ℕ) :
    model.slave.receive speed len ⟨chip, (.single, op) :: args, given⟩ =
      ((List.range' given len).map bytes, ⟨chip, (.single, op) :: args, given + len⟩) := by
  induction len generalizing given with
  | zero => rfl
  | succ len ih =>
      have first : model.slave.shiftIn speed ⟨chip, (.single, op) :: args, given⟩ =
          (bytes given, ⟨chip, (.single, op) :: args, given + 1⟩) := by
        show ((model.answer op args given speed chip).1, ChipModel.OnWires.mk
          (model.answer op args given speed chip).2 _ _) = _
        rw [answers]
      rw [Slave.receive_succ, first, ih, List.range'_succ, List.map_cons, Nat.add_right_comm,
        Nat.add_assoc]

theorem exec_commandRead {op : UInt8} {args : List UInt8} {speed : Speed} {chip : NandChip}
    {bytes : ℕ → UInt8}
    (answers : ∀ given, model.answer op (onLine args) given speed chip = (bytes given, chip))
    (ignored : model.commit (onLine (op :: args)) chip = chip) (len : ℕ) :
    exec (chipOnBus model) (commandRead (op :: args) len speed) (between chip) =
      some ((List.range len).map bytes, between chip) := by
  show exec (chipOnBus model) (writeBytes (op :: args) >>= fun _ =>
    (bus (.readNByte len speed) >>= fun bytes => (bus .chipSelectHigh >>= fun _ =>
      pure bytes))) (between chip) = _
  rw [Program.exec_bind, exec_writeBytes]
  show some ((model.slave.receive speed len ⟨chip, onLine (op :: args), 0⟩).1,
    ChipModel.OnWires.mk (model.commit
      (model.slave.receive speed len ⟨chip, onLine (op :: args), 0⟩).2.frame
      (model.slave.receive speed len ⟨chip, onLine (op :: args), 0⟩).2.chip) [] 0) = _
  have given := receive_answers model answers len 0
  rw [show onLine (op :: args) = (.single, op) :: onLine args from rfl, given,
    List.range_eq_range']
  exact congrArg (fun chip => some (_, between chip)) ignored

/-! ## What the commands do -/

theorem commit_onLine {op : UInt8} {args : List UInt8} {chip : NandChip} (idle : chip.busy = 0) :
    model.commit (onLine (op :: args)) chip = model.obey op (onLine args) chip :=
  if_pos idle

theorem exec_setFeature {chip : NandChip} (idle : chip.busy = 0) (addr value : UInt8) :
    exec (chipOnBus model) (protocolSetFeature addr value) (between chip) =
      some ((), between (ChipModel.setFeature addr value chip)) := by
  rw [protocolSetFeature, exec_command, commit_onLine idle]
  rfl

theorem exec_getFeature (model : ChipModel) (addr : UInt8) (chip : NandChip) :
    exec (chipOnBus model) (protocolGetFeature addr) (between chip) =
      some ((chip.getFeature addr).1, between (chip.getFeature addr).2) := by
  have ignored (chip : NandChip) : model.commit (onLine [opGetFeature, addr]) chip = chip := by
    show (if chip.busy = 0 then model.obey opGetFeature _ chip else chip) = chip
    split <;> rfl
  show some ((chip.getFeature addr).1, ChipModel.OnWires.mk (model.commit
    (onLine [opGetFeature, addr]) (chip.getFeature addr).2) [] 0) = _
  rw [ignored]
  rfl

theorem exec_writeEnable (model : ChipModel) {chip : NandChip} (idle : chip.busy = 0) :
    exec (chipOnBus model) spiNandProtocolWriteEnable (between chip) =
      some ((), between { chip with writeEnabled := true }) := by
  rw [spiNandProtocolWriteEnable, exec_command, commit_onLine idle]
  rfl

theorem exec_writeDisable (model : ChipModel) {chip : NandChip} (idle : chip.busy = 0) :
    exec (chipOnBus model) spiNandProtocolWriteDisable (between chip) =
      some ((), between { chip with writeEnabled := false }) := by
  rw [spiNandProtocolWriteDisable, exec_command, commit_onLine idle]
  rfl

/-- Three bytes hold a row of any chip. -/
theorem rowOf_rowBytes {row : ℕ} (small : row < 2 ^ 24) :
    rowOf (UInt8.ofNat (row >>> 16)) (UInt8.ofNat (row >>> 8)) (UInt8.ofNat row) = row := by
  simp only [rowOf, UInt8.toNat_ofNat', Nat.shiftRight_eq_div_pow]
  omega

theorem exec_pageRead {chip : NandChip} (idle : chip.busy = 0) {row : ℕ} (small : row < 2 ^ 24) :
    exec (chipOnBus model) (spiNandProtocolPageRead row) (between chip) =
      some ((), between (model.loadPage row chip)) := by
  rw [spiNandProtocolPageRead, exec_command, commit_onLine idle]
  show some ((), between (model.loadPage (rowOf _ _ _) chip)) = _
  rw [rowOf_rowBytes small]

theorem exec_programExecute (model : ChipModel) {chip : NandChip} (idle : chip.busy = 0) {row : ℕ}
    (small : row < 2 ^ 24) :
    exec (chipOnBus model) (spiNandProtocolProgramExecute row) (between chip) =
      some ((), between (model.programExecute row chip)) := by
  rw [spiNandProtocolProgramExecute, exec_command, commit_onLine idle]
  show some ((), between (model.programExecute (rowOf _ _ _) chip)) = _
  rw [rowOf_rowBytes small]

theorem exec_blockErase (model : ChipModel) {chip : NandChip} (idle : chip.busy = 0) {block : ℕ}
    (small : block < 2 ^ 18) :
    exec (chipOnBus model) (spiNandProtocolBlockErase block) (between chip) =
      some ((), between (model.blockErase (block * pagePerBlock) chip)) := by
  have row : block <<< 6 = block * pagePerBlock := Nat.shiftLeft_eq block 6
  rw [spiNandProtocolBlockErase, exec_command, commit_onLine idle]
  show some ((), between (model.blockErase (rowOf _ _ _) chip)) = _
  rw [rowOf_rowBytes (by rw [row, pagePerBlock]; omega), row]

/-- The plane `_plane_select_bit` names. -/
def planeOfBit (info : FlashInfo) (planeSelectBit : ℕ) : Bool :=
  info.planeSelect = .selectHave ∧ planeSelectBit = 1

/-- The column address that goes out names the column and the plane. -/
theorem columnHigh_eq (model : ChipModel) {bit offset : ℕ} (known : bit = 0 ∨ bit = 1)
    (small : offset < 4096) :
    ∃ high, columnHigh model.info bit offset = [high] ∧
      columnOf high (UInt8.ofNat offset) = offset ∧
      model.planeOfColumn high = planeOfBit model.info bit := by
  have digit : offset >>> 8 < 16 := by
    rw [Nat.shiftRight_eq_div_pow]
    omega
  have clears : ∀ x < 16, (UInt8.ofNat x &&& 0xef).toNat = x := by decide
  have sets : ∀ x < 16, (UInt8.ofNat x ||| 0x10).toNat = 16 + x := by decide
  have value : ∀ x < 16, (UInt8.ofNat x).toNat = x := by decide
  have split : offset >>> 8 % 16 * 256 + offset % 256 = offset := by
    rw [Nat.shiftRight_eq_div_pow]
    omega
  simp only [columnHigh, columnOf, planeOfBit, ChipModel.planeOfColumn]
  cases model.info.planeSelect with
  | selectNone =>
      refine ⟨_, rfl, ?_, by simp⟩
      rw [value _ digit, UInt8.toNat_ofNat']
      exact split
  | selectHave =>
      rcases known with rfl | rfl
      · refine ⟨_, rfl, ?_, ?_⟩
        · rw [clears _ digit, UInt8.toNat_ofNat']
          exact split
        · rw [clears _ digit]
          simp [Nat.div_eq_of_lt digit]
      · refine ⟨_, rfl, ?_, ?_⟩
        · rw [sets _ digit, UInt8.toNat_ofNat', Nat.add_mod_left]
          exact split
        · rw [sets _ digit]
          simp [Nat.add_div_left, Nat.div_eq_of_lt digit]

theorem obey_readFromCache (speed : Speed) (args : Frame) (chip : NandChip) :
    model.obey (opReadFromCache speed) args chip = chip := by
  cases speed with
  | single => rfl
  | dual => rfl
  | quad => rfl

/-- The read command gives the page register of the plane, from the column on. -/
theorem exec_readFromCache {chip : NandChip} (idle : chip.busy = 0) {bit offset : ℕ}
    (known : bit = 0 ∨ bit = 1) (small : offset < 4096) (len : ℕ) (speed : Speed) :
    exec (chipOnBus model) (spiNandProtocolReadFromCache model.info bit offset len speed)
      (between chip) = some ((List.range len).map fun i =>
        chip.registers (planeOfBit model.info bit) (offset + i), between chip) := by
  obtain ⟨high, sent, column, plane⟩ := columnHigh_eq model known small
  rw [spiNandProtocolReadFromCache, readFromCacheHeader, sent]
  apply exec_commandRead
  · intro given
    -- the dummy bytes are where the chip takes them out
    have address : model.columnArgs speed (onLine
        ((if model.info.dummyMode = .prepend then [0xff] else []) ++ [high] ++
          [UInt8.ofNat offset] ++
          (if model.info.dummyMode = .append ∨ speed ≠ .single then [0xff] else []))) =
        some (high, UInt8.ofNat offset) := by
      simp only [ChipModel.columnArgs]
      cases model.info.dummyMode with
      | append => cases speed <;> rfl
      | prepend => cases speed <;> rfl
    have other : opReadFromCache speed ≠ opGetFeature ∧ opReadFromCache speed ≠ opReadId := by
      cases speed <;> decide
    unfold ChipModel.answer
    rw [if_neg other.1, if_neg (not_not.mpr idle), if_neg other.2, if_pos rfl, address]
    simp only [plane, column]
  · rw [commit_onLine idle, obey_readFromCache]

theorem bytesAt_map (speed : Speed) (bytes : List UInt8) :
    bytesAt speed (bytes.map fun b => (speed, b)) = some bytes := by
  rw [bytesAt, if_pos (by simp), List.map_map]
  exact congrArg some (List.map_id bytes)

/-- What loading bytes from a column on leaves in the chip. -/
def loaded (bit : ℕ) (info : FlashInfo) (offset : ℕ) (bytes : List UInt8) (chip : NandChip) :
    NandChip :=
  { chip with
    registers := Function.update chip.registers (planeOfBit info bit)
      (overlay allOnes offset (fun i => bytes.getD i 0) bytes.length) }

theorem obey_programLoad {op : UInt8} {speed : Speed} {chip : NandChip}
    (loads : ∀ args, model.obey op args chip =
      ChipModel.withData (model.programLoad true) speed args chip)
    (idle : chip.busy = 0) {bit offset : ℕ} (known : bit = 0 ∨ bit = 1) (small : offset < 4096)
    (bytes : List UInt8) :
    exec (chipOnBus model) (commandWrite (op :: (columnHigh model.info bit offset ++
      [UInt8.ofNat offset])) bytes speed) (between chip) =
      some ((), between (loaded bit model.info offset bytes chip)) := by
  obtain ⟨high, sent, column, plane⟩ := columnHigh_eq model known small
  rw [sent, exec_commandWrite]
  show some ((), between (if chip.busy = 0 then model.obey op ((.single, high) ::
    (.single, UInt8.ofNat offset) :: bytes.map fun b => (speed, b)) chip else chip)) = _
  rw [if_pos idle, loads, ChipModel.withData, bytesAt_map]
  simp only [ChipModel.programLoad, plane, column, if_true, loaded]

theorem exec_programLoadSingle (model : ChipModel) {chip : NandChip} (idle : chip.busy = 0)
    {bit offset : ℕ} (known : bit = 0 ∨ bit = 1) (small : offset < 4096) (bytes : List UInt8) :
    exec (chipOnBus model)
      (spiNandProtocolProgramLoadSingleSpeed model.info bit offset bytes) (between chip) =
      some ((), between (loaded bit model.info offset bytes chip)) :=
  obey_programLoad (fun _ => rfl) idle known small bytes

theorem exec_programLoadQuad (model : ChipModel) {chip : NandChip} (idle : chip.busy = 0)
    {bit offset : ℕ} (known : bit = 0 ∨ bit = 1) (small : offset < 4096) (bytes : List UInt8) :
    exec (chipOnBus model)
      (spiNandProtocolProgramLoadQuadSpeed model.info bit offset bytes) (between chip) =
      some ((), between (loaded bit model.info offset bytes chip)) :=
  obey_programLoad (fun _ => rfl) idle known small bytes

end Frames

end En7512.Spi
