/-
# Starting the flash chip

`SPI_NAND_Flash_Init` asks the chip for its numbers, looks them up in the device table, takes
the protection off all blocks and switches the four data lines on. Chips take the command for
the numbers in two forms, with an address byte and without one; the driver tries both, and the
answer to the wrong form is no entry of the table.

What the page layer needs is there afterwards, whatever the registers of the chip held before.
-/

import En7512.Spi.PageLayer

namespace En7512.Spi

open En7512.Logic En7512.Nand
open En7512.Logic.Program (exec)

/-! ## The functions of the source -/

/-- Clear bits of the protection register, and look at the result. -/
def unlockAll (mask : UInt8) : Program BusOp BusResp Unit := do
  let feature ← spiNandProtocolGetStatusReg1
  spiNandProtocolSetStatusReg1 (feature &&& mask)
  let _ ← spiNandProtocolGetStatusReg1
  pure ()

/-- Switch the four data lines on, and look at the result. -/
def enableQuad : Program BusOp BusResp Unit := do
  let feature ← spiNandProtocolGetStatusReg2
  spiNandProtocolSetStatusReg2 (feature ||| 0x1)
  let _ ← spiNandProtocolGetStatusReg2
  pure ()

/-- `spi_nand_manufacute_init`. The branches for ESMT and Zentel are behind the one for
GigaDevice, which has the same number. -/
def spiNandManufacuteInit (info : FlashInfo) : Program BusOp BusResp Unit :=
  if info.mfrId = mfrGigadevice ∨ info.mfrId = mfrMxic then do
    unlockAll 0xc1
    enableQuad
  else if info.mfrId = mfrWinbond then do
    spiNandProtocolSetStatusReg2 0x58
    spiNandProtocolSetStatusReg1 0x81
    spiNandProtocolSetStatusReg2 0x18
    let _ ← spiNandProtocolGetStatusReg1
    pure ()
  else if info.mfrId = mfrEsmt then unlockAll 0xc1
  else if info.mfrId = mfrZentel then unlockAll 0xc7
  else if info.mfrId = mfrEtron then do
    unlockAll 0xc7
    enableQuad
  else if info.mfrId = mfrToshiba then unlockAll 0xc7
  else if info.mfrId = mfrMicron then unlockAll 0x83
  else do
    unlockAll 0xc1
    enableQuad

/-- The loop through `spi_nand_flash_tables`. -/
def findDevice (ids : UInt8 × UInt8) : Option FlashInfo :=
  spiNandFlashTables.find? fun entry => ids.1 = entry.mfrId ∧ ids.2 = entry.devId

/-- The part of `spi_nand_probe` that looks for the chip, with both forms of the command. -/
def identify : Program BusOp BusResp (Option FlashInfo) := do
  let ids ← spiNandProtocolReadId
  match findDevice ids with
  | some info => pure (some info)
  | none => do
      let ids ← spiNandProtocolReadId2
      pure (findDevice ids)

/-- `spi_nand_probe`: the entry of the chip, or no entry for `SPI_NAND_FLASH_RTN_PROBE_ERROR`. -/
def spiNandProbe : Program BusOp BusResp (Option FlashInfo) := do
  match ← identify with
  | some info => do
      spiNandManufacuteInit info
      pure (some info)
  | none => pure none

/-- `SPI_NAND_Flash_Init`, and with the chip found a client of the page layer. -/
def initAndServe {α : Type} (polls : ℕ) (m : Program NandOp NandResp α) :
    Program BusOp BusResp (Option (α × PageRam)) := do
  match ← spiNandProbe with
  | some info => do
      let out ← (Routine.expand (wiredBody info polls) m).run ⟨.initial, 0⟩
      pure (some out)
  | none => pure none

/-! ## Finding the chip -/

section Finding

variable {model : ChipModel} {chip : NandChip}

theorem exec_readId {args : List UInt8} {bytes : ℕ → UInt8}
    (answers : ∀ given,
      model.answer opReadId (onLine args) given .single chip = (bytes given, chip)) :
    exec (chipOnBus model) (protocolReadId (opReadId :: args)) (between chip) =
      some ((bytes 0, bytes 1), between chip) := by
  have ignored : model.commit (onLine (opReadId :: args)) chip = chip := by
    show (if chip.busy = 0 then model.obey opReadId _ chip else chip) = chip
    split <;> rfl
  have given (n : ℕ) := receive_answers model answers 1 n
  rw [protocolReadId]
  show exec _ (writeBytes _ >>= _) (between chip) = _
  rw [Program.exec_bind, exec_writeBytes]
  show some ((((model.slave.receive .single 1 ⟨chip, onLine (opReadId :: args), 0⟩).1.headD 0),
    ((model.slave.receive .single 1
      (model.slave.receive .single 1 ⟨chip, onLine (opReadId :: args), 0⟩).2).1.headD 0)),
    ChipModel.OnWires.mk (model.commit (model.slave.receive .single 1
        (model.slave.receive .single 1 ⟨chip, onLine (opReadId :: args), 0⟩).2).2.frame
      (model.slave.receive .single 1
        (model.slave.receive .single 1 ⟨chip, onLine (opReadId :: args), 0⟩).2).2.chip) [] 0) = _
  rw [show onLine (opReadId :: args) = (.single, opReadId) :: onLine args from rfl, given 0,
    given (0 + 1)]
  exact congrArg (fun chip => some (_, between chip)) ignored

/-- Every entry is the first one with its numbers. -/
theorem findDevice_listed {info : FlashInfo} (listed : info ∈ spiNandFlashTables) :
    findDevice (info.mfrId, info.devId) = some info := by
  simp only [spiNandFlashTables, List.mem_cons, List.not_mem_nil, or_false] at listed
  rcases listed with rfl | rfl | rfl | rfl | rfl | rfl | rfl | rfl | rfl | rfl | rfl | rfl | rfl |
    rfl | rfl | rfl | rfl | rfl <;> rfl

/-- No entry has the device number `0`, which a chip that takes no address byte gives where the
driver expects the number. -/
theorem findDevice_shifted (mfr : UInt8) : findDevice (mfr, 0) = none := by
  have numbered : ∀ entry ∈ spiNandFlashTables, entry.devId ≠ 0 := by decide
  apply List.find?_eq_none.mpr
  intro entry listed matched
  exact numbered entry listed (of_decide_eq_true matched).2.symm

/-- No entry has the numbers of wires that nobody drives. -/
theorem findDevice_undriven : findDevice (0xff, 0xff) = none := rfl

end Finding

/-! ## Taking the protection off -/

section Unlocking

variable {model : ChipModel} {chip : NandChip}

theorem exec_unlockAll (idle : chip.busy = 0) (mask : UInt8) :
    exec (chipOnBus model) (unlockAll mask) (between chip) =
      some ((), between { chip with protection := chip.protection &&& mask }) := by
  rw [unlockAll, Program.exec_bind, spiNandProtocolGetStatusReg1, exec_getFeature]
  show exec _ (protocolSetFeature addrProtection (chip.protection &&& mask) >>= _)
    (between chip) = _
  rw [Program.exec_bind, exec_setFeature idle]
  show exec _ (protocolGetFeature addrProtection >>= _) (between _) = _
  rw [Program.exec_bind, exec_getFeature]
  rfl

theorem exec_enableQuad (idle : chip.busy = 0) :
    exec (chipOnBus model) enableQuad (between chip) =
      some ((), between { chip with feature := chip.feature ||| 0x1 }) := by
  rw [enableQuad, Program.exec_bind, spiNandProtocolGetStatusReg2, exec_getFeature]
  show exec _ (protocolSetFeature addrFeature (chip.feature ||| 0x1) >>= _) (between chip) = _
  rw [Program.exec_bind, exec_setFeature idle]
  show exec _ (protocolGetFeature addrFeature >>= _) (between _) = _
  rw [Program.exec_bind, exec_getFeature]
  rfl

/-- The block protect bits of the protection register. -/
def blockProtect (info : FlashInfo) : UInt8 :=
  if info.mfrId = mfrWinbond ∨ info.mfrId = mfrMicron then 0x78 else 0x38

/-- The chip with other values in its two registers. -/
def withRegisters (chip : NandChip) (protection feature : UInt8) : NandChip :=
  { chip with protection := protection, feature := feature }

/-- The program takes the protection off, and leaves the rest of the chip alone. -/
def Unprotects (model : ChipModel) (bits : UInt8) (p : Program BusOp BusResp Unit) : Prop :=
  ∀ chip : NandChip, chip.busy = 0 → ∃ protection feature,
    exec (chipOnBus model) p (between chip) =
      some ((), between (withRegisters chip protection feature)) ∧ protection &&& bits = 0

theorem unprotects_unlockAll {mask bits : UInt8} (apart : mask &&& bits = 0) :
    Unprotects model bits (unlockAll mask) := by
  intro chip idle
  use chip.protection &&& mask, chip.feature, exec_unlockAll idle mask
  rw [UInt8.and_assoc, apart, UInt8.and_zero]

theorem unprotects_unlockAll_enableQuad {mask bits : UInt8} (apart : mask &&& bits = 0) :
    Unprotects model bits (unlockAll mask >>= fun _ => enableQuad) := by
  intro chip idle
  use chip.protection &&& mask, chip.feature ||| 0x1
  apply And.intro
  · rw [Program.exec_bind, exec_unlockAll idle]
    exact @exec_enableQuad model { chip with protection := chip.protection &&& mask } idle
  · rw [UInt8.and_assoc, apart, UInt8.and_zero]

theorem unprotects_manufacuteInit (model : ChipModel) (info : FlashInfo) :
    Unprotects model (blockProtect info) (spiNandManufacuteInit info) := by
  rw [spiNandManufacuteInit]
  split_ifs with general winbond esmt zentel etron toshiba micron
  · apply unprotects_unlockAll_enableQuad
    rcases general with same | same <;> (rw [blockProtect, same]; rfl)
  · intro chip idle
    use 0x81, 0x18
    apply And.intro
    · have first := @exec_setFeature model chip idle addrFeature 0x58
      have second := @exec_setFeature model { chip with feature := 0x58 } idle addrProtection 0x81
      have third := @exec_setFeature model { chip with protection := 0x81, feature := 0x58 } idle
        addrFeature 0x18
      rw [spiNandProtocolSetStatusReg2, Program.exec_bind, first]
      show exec _ (protocolSetFeature addrProtection 0x81 >>= _)
        (between { chip with feature := 0x58 }) = _
      rw [Program.exec_bind, second]
      show exec _ (protocolSetFeature addrFeature 0x18 >>= _)
        (between { chip with protection := 0x81, feature := 0x58 }) = _
      rw [Program.exec_bind, third]
      show exec _ (protocolGetFeature addrProtection >>= _) (between _) = _
      rw [Program.exec_bind, exec_getFeature]
      rfl
    · rw [blockProtect, winbond]
      rfl
  · apply unprotects_unlockAll
    rw [blockProtect, esmt]
    rfl
  · apply unprotects_unlockAll
    rw [blockProtect, zentel]
    rfl
  · apply unprotects_unlockAll_enableQuad
    rw [blockProtect, etron]
    rfl
  · apply unprotects_unlockAll
    rw [blockProtect, toshiba]
    rfl
  · apply unprotects_unlockAll
    rw [blockProtect, micron]
    rfl
  · apply unprotects_unlockAll_enableQuad
    rw [blockProtect, if_neg (not_or.mpr ⟨winbond, micron⟩)]
    rfl

end Unlocking

/-! ## The probe -/

section Probing

variable {model : ChipModel} {chip : NandChip}

theorem answer_readId (model : ChipModel) {chip : NandChip} (idle : chip.busy = 0)
    (args : List UInt8) (given : ℕ) :
    model.answer opReadId (onLine args) given .single chip =
      (if model.idAddress then if args.length = 1 then model.idByte given else 0xff
        else model.idByte (args.length + given), chip) := by
  have length : (onLine args).length = args.length := List.length_map _
  unfold ChipModel.answer
  rw [if_neg (by decide), if_neg (not_not.mpr idle), if_pos rfl, length]
  split
  · split <;> rfl
  · rfl

/-- What the first form of the command gets. -/
theorem exec_readId_address (model : ChipModel) {chip : NandChip} (idle : chip.busy = 0) :
    exec (chipOnBus model) spiNandProtocolReadId (between chip) =
      some (if model.idAddress then (model.info.mfrId, model.info.devId)
        else (model.info.devId, 0), between chip) := by
  rw [spiNandProtocolReadId, exec_readId (answer_readId model idle [0x00])]
  split <;> rfl

/-- What the second form of the command gets. -/
theorem exec_readId_bare (model : ChipModel) {chip : NandChip} (idle : chip.busy = 0) :
    exec (chipOnBus model) spiNandProtocolReadId2 (between chip) =
      some (if model.idAddress then (0xff, 0xff) else (model.info.mfrId, model.info.devId),
        between chip) := by
  rw [spiNandProtocolReadId2, exec_readId (answer_readId model idle [])]
  split <;> rfl

/-- Both forms of the command together find the entry with the numbers of the chip. -/
theorem exec_identify (model : ChipModel) {chip : NandChip} (idle : chip.busy = 0) :
    exec (chipOnBus model) identify (between chip) =
      some (findDevice (model.info.mfrId, model.info.devId), between chip) := by
  rw [identify, Program.exec_bind, exec_readId_address model idle]
  cases address : model.idAddress with
  | true =>
      cases found : findDevice (model.info.mfrId, model.info.devId) with
      | some info =>
          simp only [Option.bind_some, if_true, found]
          rfl
      | none =>
          simp only [Option.bind_some, if_true, found]
          rw [Program.exec_bind, exec_readId_bare model idle, address]
          rfl
  | false =>
      simp only [Option.bind_some, Bool.false_eq_true, if_false, findDevice_shifted]
      rw [Program.exec_bind, exec_readId_bare model idle, address]
      rfl

/-- A chip of the table is found, and its protection is off then. -/
theorem exec_probe (listed : model.info ∈ spiNandFlashTables) (idle : chip.busy = 0) :
    ∃ protection feature, exec (chipOnBus model) spiNandProbe (between chip) =
        some (some model.info, between (withRegisters chip protection feature)) ∧
      protection &&& blockProtect model.info = 0 := by
  obtain ⟨protection, feature, run, off⟩ := unprotects_manufacuteInit model model.info chip idle
  use protection, feature
  apply And.intro _ off
  rw [spiNandProbe, Program.exec_bind, exec_identify model idle, findDevice_listed listed]
  show exec _ (spiNandManufacuteInit model.info >>= _) (between chip) = _
  rw [Program.exec_bind, run]
  rfl

/-- A chip that is not in the table is left as it was. -/
theorem exec_probe_unlisted (unlisted : findDevice (model.info.mfrId, model.info.devId) = none)
    (idle : chip.busy = 0) :
    exec (chipOnBus model) spiNandProbe (between chip) = some (none, between chip) := by
  rw [spiNandProbe, Program.exec_bind, exec_identify model idle, unlisted]
  rfl

end Probing

/-! ## From power-up -/

section Start

variable {model : ChipModel} {polls : ℕ} {chip : NandChip}

/-- The protection register locks a block only by its block protect bits. -/
def Protects (model : ChipModel) : Prop :=
  ∀ protection block, protection &&& blockProtect model.info = 0 →
    model.locked protection block = false

/-- After the probe the page layer can begin. -/
theorem exec_probe_agrees (listed : model.info ∈ spiNandFlashTables) (protects : Protects model)
    (idle : chip.busy = 0) :
    ∃ chip', exec (chipOnBus model) spiNandProbe (between chip) =
        some (some model.info, between chip') ∧
      Agrees model ⟨.initial, 0⟩ chip' ⟨chip.array, .initial⟩ := by
  obtain ⟨protection, feature, found, off⟩ := exec_probe listed idle
  use withRegisters chip protection feature, found
  exact ⟨⟨idle, fun block => protects protection block off⟩, .inl rfl, rfl,
    fun _ => PageAgrees.refl _ _, rfl, fun _ _ => rfl, fun _ _ => rfl, rfl⟩

/-- Whatever the registers of a chip of the table hold at power-up, and whichever form of the
command for its numbers it takes, the driver finds it, and a client that looks only at the bytes
a page has is served as by the array the chip holds. -/
theorem page_layer_from_power_up {α : Type} {result : α → α → Prop} {d : Depths}
    (listed : model.info ∈ spiNandFlashTables) (protects : Protects model)
    (prompt : ∀ n, model.busyFor n < polls) (idle : chip.busy = 0)
    {c : Controller ChipModel.OnWires} (quiet : Quiet c) (wired : c.slave = between chip)
    {m : Program NandOp NandResp α} (looks : Program.Alike likeAnswers result m m)
    (addressable : Program.Keeps (nandMachine model.env) (fun op _ => Addressable op) m
      ⟨chip.array, .initial⟩)
    {a : α} {s' : Nand.Spi}
    (run : exec (nandMachine model.env) m ⟨chip.array, .initial⟩ = some (a, s')) :
    Program.Served (tick model.slave d) (ready d) (controllerMachine d)
        (Program.expand busBody (initAndServe polls m)) c ∧
      Program.wp (Program.paced (tick model.slave d) (ready d) (controllerMachine d))
        (Program.expand busBody (initAndServe polls m))
        (fun out c' => ∃ b ram chip', out = some (b, ram) ∧ result a b ∧
          Rests model.slave d c' (between chip') ∧ Agrees model ram chip' s') c := by
  obtain ⟨chip₁, found, agrees⟩ := exec_probe_agrees listed protects idle
  obtain ⟨b, ram, chip', served, same, agrees'⟩ :=
    exec_client prompt agrees looks addressable run
  have performed : exec (busMachine model.slave) (initAndServe polls m) c.slave =
      some (some (b, ram), between chip') := by
    rw [wired, initAndServe, Program.exec_bind, found]
    show exec _ ((Routine.expand (wiredBody model.info polls) m).run ⟨.initial, 0⟩ >>= _)
      (between _) = _
    rw [Program.exec_bind, served]
    rfl
  exact paced_of_exec quiet performed fun _ rests =>
    ⟨b, ram, chip', rfl, same, rests, agrees'⟩

end Start

/-- A GigaDevice chip of type C, which takes no address byte in front of its numbers. -/
def bareChip : ChipModel :=
  { patientChip with
    info := gigadeviceC 0xb1 chipSize1Gbit
    busyFor := fun _ => 1
    idAddress := false
    locked := fun protection _ => protection &&& 0x38 != 0 }

theorem page_layer_from_power_up_read_back :
    Program.wp
      (Program.paced (tick bareChip.slave narrow) (ready narrow) (controllerMachine narrow))
      (Program.expand busBody (initAndServe 2 writeAndReadBack))
      (fun out _ => ∃ ram, out = some (5, ram))
      ⟨0, [], ⟨.out, .single, 0⟩, [], between factoryChip⟩ := by
  have prompt (n : ℕ) : bareChip.busyFor n < 2 := Nat.one_lt_two
  have protects : Protects bareChip := fun _ _ off => bne_eq_false_iff_eq.mpr off
  have quiet : Quiet (⟨0, [], ⟨.out, .single, 0⟩, [], between factoryChip⟩ :
      Controller ChipModel.OnWires) := ⟨rfl, rfl, rfl⟩
  have addressable : Program.Keeps (nandMachine bareChip.env) (fun op _ => Addressable op)
      writeAndReadBack ⟨factoryChip.array, .initial⟩ :=
    ⟨show 1 < 2 ^ 18 by decide, show 64 < 2 ^ 24 by decide, show 64 < 2 ^ 24 by decide, trivial⟩
  have runs := (page_layer_from_power_up (d := narrow) (a := 5)
    (.tail _ (.tail _ (.head _))) protects prompt rfl quiet rfl alike_writeAndReadBack addressable
    rfl).2
  apply Program.wp_mono _ runs
  rintro out c' ⟨b, ram, chip', told, same, -⟩
  exact ⟨ram, same ▸ told⟩

end En7512.Spi
