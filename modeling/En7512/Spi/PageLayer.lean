/-
# The page layer on the wires

`SpiNand.lean` gives the page layer as functions on the flash array. Here stand the functions
of the source again, down to the commands they send: load a page into the register of the chip,
poll the status, read the register, send a page and program it, erase a block. The chip answers
as `NandChip.lean` says, and in particular after a delay and with an error correction code of
its own choice.

`page_layer_on_wires` says that nothing is lost on the way. What a client of the page layer
gets from the chip at the end of the controller's queues is what it gets from the array, in
every byte a page has.
-/

import En7512.Nand.SpiNand
import En7512.Spi.Protocol

namespace En7512.Spi

open En7512.Logic En7512.Nand

/-! ## The functions of the source -/

/-- The variables of the page layer. -/
structure PageRam where
  /-- The page in memory. -/
  cache : Cache
  /-- `_plane_select_bit`. -/
  planeSelectBit : ℕ

/-- The functions of the page layer are programs over the bus with these variables. -/
abbrev Wired : Type → Type := Routine BusOp BusResp PageRam

/-- Send a command. -/
def send {α : Type} (p : Program BusOp BusResp α) : Wired α := StateT.lift p

/-- `do { spi_nand_protocol_get_status_reg_3( &status ); } while( status & _SPI_NAND_VAL_OIP )`,
for a number of polls. -/
def awaitReady : ℕ → Program BusOp BusResp UInt8
  | 0 => .stuck
  | polls + 1 => do
      let status ← spiNandProtocolGetStatusReg3
      if status &&& 0x1 ≠ 0 then awaitReady polls else pure status

/-- The comparisons of `ecc_fail_check`. -/
def eccFailed (info : FlashInfo) (status : UInt8) : Bool :=
  let two := (status &&& 0x30) >>> 4 = 0x2
  let seven := (status &&& 0x70) >>> 4 = 0x7
  let twoOfThree := (status &&& 0x70) >>> 4 = 0x2
  (info.mfrId = mfrGigadevice ∧
      (info.devId = 0xf1 ∧ two ∨ info.devId = 0xd1 ∧ two ∨ info.devId = 0xd2 ∧ two ∨
        info.devId = 0xb1 ∧ seven ∨ info.devId = 0xb2 ∧ seven)) ∨
    info.mfrId = mfrMxic ∧ two ∨
    info.mfrId = mfrWinbond ∧ two ∨
    info.mfrId = mfrEsmt ∧ two ∨
    info.mfrId = mfrZentel ∧ two ∨
    info.mfrId = mfrEtron ∧ two ∨
    info.mfrId = mfrToshiba ∧ two ∨
    info.mfrId = mfrMicron ∧ twoOfThree

variable (info : FlashInfo) (polls : ℕ)

/-- `ecc_fail_check`. -/
def eccFailCheck : Wired Rtn := do
  let status ← send spiNandProtocolGetStatusReg3
  pure (if eccFailed info status then .detectedBadBlock else .noError)

/-- `spi_nand_load_page_into_cache`. -/
def loadPageIntoCache (page : ℕ) : Wired Rtn := do
  let ram ← get
  if ram.cache.pageNum = some page then pure .noError
  else do
    send (spiNandProtocolPageRead page)
    let _ ← send (awaitReady polls)
    eccFailCheck info

/-- The lines that set `_plane_select_bit`. -/
def selectPlane (page : ℕ) (ram : PageRam) : PageRam :=
  match info.planeSelect with
  | .selectHave => { ram with planeSelectBit := (page >>> 6) &&& 0x1 }
  | .selectNone => ram

/-- The page that was read is divided into its parts. -/
def divide (page : ℕ) (bytes : List UInt8) (ram : PageRam) : PageRam :=
  let data := overlay ram.cache.data 0 (fun i => bytes.getD i 0) pageSize
  let oob := overlay ram.cache.oob 0 (fun i => bytes.getD (pageSize + i) 0) info.oobSize
  { ram with
    cache := ⟨some page, data, oob, info.oobFreeLayout.gather oob ram.cache.oobMapping⟩ }

/-- `spi_nand_read_page`. -/
def readPage (page : ℕ) (speed : Speed) : Wired Rtn := do
  let rtn ← loadPageIntoCache info polls page
  let ram ← get
  if rtn = .noError ∧ ram.cache.pageNum ≠ some page then do
    modify (selectPlane info page)
    let ram ← get
    let bytes ← send (spiNandProtocolReadFromCache info ram.planeSelectBit 0
      (pageSize + info.oobSize) speed)
    modify (divide info page bytes)
    pure .noError
  else pure rtn

/-- `SPI_NAND_FLASH_WRITE_SPEED_MODE_T`. -/
inductive WriteSpeed
  | single
  | quad

/-- The `switch` of `spi_nand_write_page`. -/
def programLoad (speed : WriteSpeed) (planeSelectBit : ℕ) (bytes : List UInt8) :
    Program BusOp BusResp Unit :=
  match speed with
  | .single => spiNandProtocolProgramLoadSingleSpeed info planeSelectBit 0 bytes
  | .quad => spiNandProtocolProgramLoadQuadSpeed info planeSelectBit 0 bytes

/-- The bytes of `_current_cache_page` that are sent. -/
def cachePage (cache : Cache) : List UInt8 :=
  (List.range (pageSize + info.oobSize)).map fun i =>
    if i < pageSize then cache.data i else cache.oob (i - pageSize)

/-- Enable writing and send the page, in the order of the manufacturer. -/
def enableAndLoad (load : Program BusOp BusResp Unit) : Program BusOp BusResp Unit :=
  if info.mfrId = mfrMxic ∨ info.mfrId = mfrWinbond ∨ info.mfrId = mfrEsmt ∨
      info.mfrId = mfrEtron then do
    spiNandProtocolWriteEnable
    load
  else if info.mfrId = mfrGigadevice then do
    load
    spiNandProtocolWriteEnable
  else do
    spiNandProtocolWriteEnable
    load

/-- The page in memory after the bytes of a write. -/
def rewrite (dataOffset : ℕ) (dat : Bytes) (dataLen : ℕ) (oob : Bytes) (oobLen : ℕ)
    (ram : PageRam) : PageRam :=
  { ram with
    cache := { ram.cache with
      data := overlay ram.cache.data dataOffset dat dataLen
      oob := info.oobFreeLayout.scatter ram.cache.oob oob oobLen } }

/-- `spi_nand_write_page`. The value of the protection register it reads is not used. -/
def writePage (page dataOffset : ℕ) (dat : Bytes) (dataLen : ℕ) (oob : Bytes) (oobLen : ℕ)
    (speed : WriteSpeed) : Wired Rtn := do
  let _ ← readPage info polls page .single
  modify (rewrite info dataOffset dat dataLen oob oobLen)
  modify (selectPlane info page)
  let ram ← get
  send (enableAndLoad info (programLoad info speed ram.planeSelectBit (cachePage info ram.cache)))
  send (spiNandProtocolProgramExecute page)
  let status ← send (awaitReady polls)
  send spiNandProtocolWriteDisable
  let _ ← send spiNandProtocolGetStatusReg1
  pure (if status &&& 0x8 ≠ 0 then .programFail else .noError)

/-- `spi_nand_erase_block`. -/
def eraseBlock (block : ℕ) : Wired Rtn := do
  send spiNandProtocolWriteEnable
  send (spiNandProtocolBlockErase block)
  let status ← send (awaitReady polls)
  send spiNandProtocolWriteDisable
  pure (if status &&& 0x4 ≠ 0 then .eraseFail else .noError)

/-- The functions of `nandMachine`, on the wires. -/
def wiredBody : (op : NandOp) → Wired (NandResp op)
  | .readPage page => do
      let rtn ← readPage info polls page .single
      let ram ← get
      pure (if rtn = .noError then some (ram.cache.data, ram.cache.oobMapping) else none)
  | .checkBlockBad offset kind => do
      let _ ← readPage info polls (foldReserved offset / pageSize) .single
      let ram ← get
      pure (ram.cache.oobMapping kind.index != 0xff)
  | .markBadblock offset kind => do
      let rtn ← writePage info polls (offset / pageSize) 0 allOnes 0 kind.mark 8 .single
      pure (rtn = .noError)
  | .eraseBlock block => do
      let rtn ← eraseBlock polls block
      pure (rtn = .noError)
  | .writePage page dataOffset dat dataLen oob oobLen => do
      let rtn ← writePage info polls page dataOffset dat dataLen oob oobLen .single
      pure (rtn = .noError)
  | .clearCache => modify fun ram => { ram with cache := { ram.cache with pageNum := none } }

/-! ## Runs -/

section Runs

variable (model : ChipModel)

/-- The run on the chip returns, and leaves the variables and the chip so. -/
def Runs {α : Type} (m : Wired α) (ram : PageRam) (chip : NandChip) (a : α) (ram' : PageRam)
    (chip' : NandChip) : Prop :=
  Routine.exec (chipOnBus model) m ram (between chip) = some (a, ram', between chip')

variable {model} {α β : Type} {ram ram' ram'' : PageRam} {chip chip' chip'' : NandChip}

theorem runs_pure (a : α) : Runs model (pure a) ram chip a ram chip := rfl

theorem runs_get : Runs model get ram chip ram ram chip := rfl

theorem runs_modify (f : PageRam → PageRam) :
    Runs model (modify f : Wired PUnit) ram chip ⟨⟩ (f ram) chip := rfl

theorem Runs.bind {m : Wired α} {f : α → Wired β} {a : α} {b : β}
    (first : Runs model m ram chip a ram' chip')
    (second : Runs model (f a) ram' chip' b ram'' chip'') :
    Runs model (m >>= f) ram chip b ram'' chip'' := by
  rw [Runs, Routine.exec_bind, first]
  exact second

theorem runs_send {p : Program BusOp BusResp α} {a : α}
    (run : Program.exec (chipOnBus model) p (between chip) = some (a, between chip')) :
    Runs model (send p) ram chip a ram chip' := by
  show Option.map _ (Program.exec (chipOnBus model) (p >>= fun a => pure (a, ram))
    (between chip)) = _
  rw [Program.exec_bind, run]
  rfl

end Runs

/-! ## The status -/

theorem busy_bit (ecc : Fin 8) (programFail eraseFail writeEnabled busy : Bool) :
    (statusByte ecc programFail eraseFail writeEnabled busy &&& 0x1 ≠ 0) = (busy = true) := by
  revert ecc programFail eraseFail writeEnabled busy
  decide

theorem eraseFail_bit (ecc : Fin 8) (programFail eraseFail writeEnabled busy : Bool) :
    (statusByte ecc programFail eraseFail writeEnabled busy &&& 0x4 ≠ 0) =
      (eraseFail = true) := by
  revert ecc programFail eraseFail writeEnabled busy
  decide

theorem programFail_bit (ecc : Fin 8) (programFail eraseFail writeEnabled busy : Bool) :
    (statusByte ecc programFail eraseFail writeEnabled busy &&& 0x8 ≠ 0) =
      (programFail = true) := by
  revert ecc programFail eraseFail writeEnabled busy
  decide

/-- The error correction code as the only content of the status. -/
def eccStatus (ecc : Fin 8) : UInt8 := statusByte ecc false false false false

theorem eccFailed_status (ecc : Fin 8) (programFail eraseFail writeEnabled busy : Bool) :
    eccFailed info (statusByte ecc programFail eraseFail writeEnabled busy) =
      eccFailed info (eccStatus ecc) := by
  have three : ∀ (ecc : Fin 8) (programFail eraseFail writeEnabled busy : Bool),
      statusByte ecc programFail eraseFail writeEnabled busy &&& 0x30 = eccStatus ecc &&& 0x30 ∧
        statusByte ecc programFail eraseFail writeEnabled busy &&& 0x70 =
          eccStatus ecc &&& 0x70 := by decide
  obtain ⟨low, all⟩ := three ecc programFail eraseFail writeEnabled busy
  simp only [eccFailed, low, all]

/-- The environment the chip is for the page layer: what the driver makes of the code of the
error correction is the verdict on the page. -/
def ChipModel.env (model : ChipModel) : Env :=
  ⟨model.info.oobFreeLayout, model.outcome, fun t p => eccFailed model.info
    (eccStatus (model.ecc t p))⟩

/-! ## Agreement -/

section Agreement

variable (model : ChipModel)

/-- Two pages that are the same in every byte a page of the chip has. -/
structure PageAgrees (info : FlashInfo) (p q : Page) : Prop where
  data : ∀ i < pageSize, p.data i = q.data i
  oob : ∀ i < info.oobSize, p.oob i = q.oob i

/-- The chip takes commands, and none of its blocks is locked. -/
structure Free (chip : NandChip) : Prop where
  ready : chip.busy = 0
  unlocked : ∀ block, model.locked chip.protection block = false

/-- The chip and the variables agree with the array and the page in memory. -/
structure Agrees (ram : PageRam) (chip : NandChip) (s : Nand.Spi) : Prop where
  free : Free model chip
  bit : ram.planeSelectBit = 0 ∨ ram.planeSelectBit = 1
  ticks : chip.array.ticks = s.chip.ticks
  pages : ∀ p, PageAgrees model.info (chip.array.pages p) (s.chip.pages p)
  pageNum : ram.cache.pageNum = s.cache.pageNum
  data : ∀ i < pageSize, ram.cache.data i = s.cache.data i
  oob : ∀ i < model.info.oobSize, ram.cache.oob i = s.cache.oob i
  oobMapping : ram.cache.oobMapping = s.cache.oobMapping

variable {model} {polls : ℕ} {ram : PageRam} {chip : NandChip} {s : Nand.Spi}

theorem PageAgrees.refl (p : Page) : PageAgrees info p p := ⟨fun _ _ => rfl, fun _ _ => rfl⟩

theorem PageAgrees.trans {info : FlashInfo} {p q r : Page} (first : PageAgrees info p q)
    (second : PageAgrees info q r) : PageAgrees info p r where
  data i inside := (first.data i inside).trans (second.data i inside)
  oob i inside := (first.oob i inside).trans (second.oob i inside)

theorem exec_awaitReady (prompt : chip.busy < polls) :
    Program.exec (chipOnBus model) (awaitReady polls) (between chip) =
      some (({ chip with busy := 0 } : NandChip).status, between { chip with busy := 0 }) := by
  induction polls generalizing chip with
  | zero => exact absurd prompt (Nat.not_lt_zero _)
  | succ polls ih =>
      have polled : (chip.status &&& 0x1 ≠ 0) = (decide (chip.busy ≠ 0) = true) := busy_bit ..
      rw [awaitReady, Program.exec_bind, spiNandProtocolGetStatusReg3, exec_getFeature]
      show Program.exec (chipOnBus model) (if chip.status &&& 0x1 ≠ 0 then _ else _)
        (between { chip with busy := chip.busy - 1 }) = _
      by_cases busy : chip.busy = 0
      · rw [if_neg (by rw [polled]; simp [busy])]
        have same : { chip with busy := 0 } = chip := by rw [← busy]
        rw [busy, Nat.zero_sub, same]
        rfl
      · rw [if_pos (by rw [polled]; simp [busy])]
        exact ih (by show chip.busy - 1 < polls; omega)

/-- The chip when a load is over. -/
def afterLoad (model : ChipModel) (page : ℕ) (chip : NandChip) : NandChip :=
  { model.loadPage page chip with busy := 0 }

theorem runs_loadPageIntoCache (prompt : ∀ n, model.busyFor n < polls) (free : Free model chip)
    {page : ℕ} (small : page < 2 ^ 24) (other : ram.cache.pageNum ≠ some page) :
    Runs model (loadPageIntoCache model.info polls page) ram chip
      (if model.env.uncorrectable chip.array.ticks page then .detectedBadBlock else .noError) ram
      (afterLoad model page chip) := by
  apply runs_get.bind
  rw [if_neg other]
  apply (runs_send (exec_pageRead free.ready small)).bind
  have polled := exec_getFeature model addrStatus (afterLoad model page chip)
  apply (runs_send (exec_awaitReady (prompt _))).bind
  apply (runs_send polled).bind
  show some (if eccFailed model.info (statusByte _ _ _ _ _) then _ else _, _, _) = _
  rw [eccFailed_status]
  rfl

/-! ### Reading -/

theorem selectPlane_cache (info : FlashInfo) (page : ℕ) (ram : PageRam) :
    (selectPlane info page ram).cache = ram.cache := by
  rw [selectPlane]
  split <;> rfl

theorem selectPlane_bit (info : FlashInfo) (page : ℕ) {ram : PageRam}
    (bit : ram.planeSelectBit = 0 ∨ ram.planeSelectBit = 1) :
    (selectPlane info page ram).planeSelectBit = 0 ∨
      (selectPlane info page ram).planeSelectBit = 1 := by
  rw [selectPlane]
  split
  · show (page >>> 6) &&& 0x1 = 0 ∨ (page >>> 6) &&& 0x1 = 1
    rw [Nat.and_one_is_mod]
    exact Nat.mod_two_eq_zero_or_one _
  · exact bit

/-- `_plane_select_bit` names the plane of the page. -/
theorem planeOfBit_selectPlane (model : ChipModel) (page : ℕ) (ram : PageRam) :
    planeOfBit model.info (selectPlane model.info page ram).planeSelectBit =
      model.planeOfRow page := by
  rw [planeOfBit, ChipModel.planeOfRow, selectPlane]
  cases model.info.planeSelect with
  | selectNone => simp
  | selectHave =>
      show decide (_ ∧ (page >>> 6) &&& 0x1 = 1) = _
      rw [Nat.and_one_is_mod, Nat.shiftRight_eq_div_pow]
      rfl

theorem getD_range_map (f : ℕ → UInt8) {n i : ℕ} (inside : i < n) :
    ((List.range n).map f).getD i 0 = f i := by
  rw [List.getD_eq_getElem _ _ (by simpa using inside)]
  simp

/-- The page that was read is divided as it lies in the array. -/
theorem Agrees.divide (agrees : Agrees model ram chip s) (page : ℕ) {bytes : List UInt8}
    (given : ∀ i < pageSize + model.info.oobSize,
      bytes.getD i 0 = ChipModel.columns (chip.array.pages page) i) :
    Agrees model (Spi.divide model.info page bytes ram) chip
      ⟨s.chip, ⟨some page, (s.chip.pages page).data, (s.chip.pages page).oob,
        model.info.oobFreeLayout.gather (s.chip.pages page).oob s.cache.oobMapping⟩⟩ := by
  have pageAgrees := agrees.pages page
  have data : ∀ i < pageSize, bytes.getD i 0 = (s.chip.pages page).data i := by
    intro i inside
    rw [given i (by omega), ChipModel.columns, if_pos inside, pageAgrees.data i inside]
  have oob : ∀ i < model.info.oobSize,
      bytes.getD (pageSize + i) 0 = (s.chip.pages page).oob i := by
    intro i inside
    rw [given _ (by omega), ChipModel.columns, if_neg (by omega), Nat.add_sub_cancel_left,
      pageAgrees.oob i inside]
  have spare : ∀ i < model.info.oobSize, overlay ram.cache.oob 0
      (fun i => bytes.getD (pageSize + i) 0) model.info.oobSize i =
        (s.chip.pages page).oob i := by
    intro i inside
    rw [overlay_of_mem ⟨Nat.zero_le i, by omega⟩, Nat.sub_zero, oob i inside]
  constructor
  case free => exact agrees.free
  case bit => exact agrees.bit
  case ticks => exact agrees.ticks
  case pages => exact agrees.pages
  case pageNum => rfl
  case data =>
    intro i inside
    simp only [Spi.divide]
    rw [overlay_of_mem ⟨Nat.zero_le i, by omega⟩, Nat.sub_zero, data i inside]
  case oob => exact spare
  case oobMapping =>
    funext i
    simp only [Spi.divide, OobLayout.gather, agrees.oobMapping]
    split
    · next logical =>
      have member : i < model.info.oobFreeLayout.positions.length := by
        rw [OobLayout.positions_length]
        exact logical
      apply spare
      apply model.info.inside
      rw [OobLayout.pos_eq_getElem _ member]
      exact List.getElem_mem member
    · rfl

/-- What of the agreement a change of the chip outside the array and a choice of the plane
leave. -/
theorem Agrees.of_same (agrees : Agrees model ram chip s) {ram' : PageRam} {chip' : NandChip}
    (cache : ram'.cache = ram.cache)
    (bit : ram'.planeSelectBit = 0 ∨ ram'.planeSelectBit = 1) (free : Free model chip')
    (array : chip'.array = chip.array) : Agrees model ram' chip' s where
  free := free
  bit := bit
  ticks := by rw [array]; exact agrees.ticks
  pages := by rw [array]; exact agrees.pages
  pageNum := by rw [cache]; exact agrees.pageNum
  data := by rw [cache]; exact agrees.data
  oob := by rw [cache]; exact agrees.oob
  oobMapping := by rw [cache]; exact agrees.oobMapping

/-- Reading a page on the wires is reading it from the array. -/
theorem runs_readPage (prompt : ∀ n, model.busyFor n < polls) (agrees : Agrees model ram chip s)
    {page : ℕ} (small : page < 2 ^ 24) (speed : Speed) :
    ∃ ram' chip', Runs model (readPage model.info polls page speed) ram chip
        (spiNandReadPage model.env page s).1 ram' chip' ∧
      Agrees model ram' chip' (spiNandReadPage model.env page s).2 := by
  by_cases held : s.cache.pageNum = some page
  · have held' : ram.cache.pageNum = some page := agrees.pageNum.trans held
    refine ⟨ram, chip, ?_, ?_⟩
    · rw [spiNandReadPage, if_pos held]
      have load :
          Runs model (loadPageIntoCache model.info polls page) ram chip .noError ram chip := by
        apply runs_get.bind
        rw [if_pos held']
        exact runs_pure _
      apply load.bind
      apply runs_get.bind
      rw [if_neg fun h => h.2 held']
      exact runs_pure _
    · rw [spiNandReadPage, if_pos held]
      exact agrees
  have other : ram.cache.pageNum ≠ some page := by rw [agrees.pageNum]; exact held
  have free : Free model (afterLoad model page chip) := ⟨rfl, agrees.free.unlocked⟩
  have load := runs_loadPageIntoCache prompt agrees.free small other
  rw [agrees.ticks] at load
  by_cases bad : model.env.uncorrectable s.chip.ticks page
  · rw [if_pos bad] at load
    refine ⟨ram, afterLoad model page chip, ?_, ?_⟩
    · rw [spiNandReadPage, if_neg held, if_pos bad]
      apply load.bind
      apply runs_get.bind
      rw [if_neg fun h => Rtn.noConfusion h.1]
      exact runs_pure _
    · rw [spiNandReadPage, if_neg held, if_pos bad]
      exact agrees.of_same rfl agrees.bit free rfl
  · rw [if_neg bad] at load
    have bit := selectPlane_bit model.info page agrees.bit
    have register : (afterLoad model page chip).registers (planeOfBit model.info
        (selectPlane model.info page ram).planeSelectBit) =
        ChipModel.columns (chip.array.pages page) := by
      rw [planeOfBit_selectPlane]
      exact Function.update_self ..
    refine ⟨divide model.info page ((List.range (pageSize + model.info.oobSize)).map fun i =>
      (afterLoad model page chip).registers (planeOfBit model.info
        (selectPlane model.info page ram).planeSelectBit) (0 + i))
        (selectPlane model.info page ram),
      afterLoad model page chip, ?_, ?_⟩
    · rw [spiNandReadPage, if_neg held, if_neg bad]
      apply load.bind
      apply runs_get.bind
      rw [if_pos ⟨rfl, other⟩]
      apply (runs_modify _).bind
      apply runs_get.bind
      apply (runs_send (exec_readFromCache free.ready bit (by decide) _ speed)).bind
      apply (runs_modify _).bind
      exact runs_pure _
    · rw [spiNandReadPage, if_neg held, if_neg bad]
      have chosen : Agrees model (selectPlane model.info page ram) (afterLoad model page chip) s :=
        agrees.of_same (selectPlane_cache model.info page ram) bit free rfl
      apply chosen.divide page
      intro i inside
      rw [getD_range_map _ inside, register, Nat.zero_add]
      rfl

/-! ### Writing -/

theorem exec_programLoad (model : ChipModel) (chip : NandChip) (ready : chip.busy = 0) {bit : ℕ}
    (known : bit = 0 ∨ bit = 1) (speed : WriteSpeed) (bytes : List UInt8) :
    Program.exec (chipOnBus model) (programLoad model.info speed bit bytes) (between chip) =
      some ((), between (loaded bit model.info 0 bytes chip)) := by
  cases speed with
  | single => exact exec_programLoadSingle model ready known (by decide) bytes
  | quad => exact exec_programLoadQuad model ready known (by decide) bytes

/-- In either order the page is in the register and writing is enabled. -/
theorem exec_enableAndLoad (model : ChipModel) (chip : NandChip) (ready : chip.busy = 0)
    {bit : ℕ} (known : bit = 0 ∨ bit = 1) (speed : WriteSpeed) (bytes : List UInt8) :
    Program.exec (chipOnBus model)
      (enableAndLoad model.info (programLoad model.info speed bit bytes)) (between chip) =
      some ((), between { loaded bit model.info 0 bytes chip with writeEnabled := true }) := by
  have enabled := exec_programLoad model { chip with writeEnabled := true } ready known speed bytes
  have full : (loaded bit model.info 0 bytes chip).busy = 0 := ready
  rw [enableAndLoad]
  split
  · rw [Program.exec_bind, exec_writeEnable model ready]
    exact enabled
  split
  · rw [Program.exec_bind, exec_programLoad model chip ready known]
    exact exec_writeEnable model full
  · rw [Program.exec_bind, exec_writeEnable model ready]
    exact enabled

/-- What is sent is what is in memory. -/
theorem getD_cachePage (cache : Cache) {i : ℕ} (inside : i < pageSize + info.oobSize) :
    (cachePage info cache).getD i 0 =
      if i < pageSize then cache.data i else cache.oob (i - pageSize) :=
  getD_range_map _ inside

/-- What arrives in the page register is what is in memory. -/
theorem pageOf_loaded (model : ChipModel) (cache : Cache) (bit : ℕ) (chip : NandChip) :
    PageAgrees model.info (model.pageOf ((loaded bit model.info 0
      (cachePage model.info cache) chip).registers (planeOfBit model.info bit)))
      ⟨cache.data, cache.oob⟩ := by
  have length : (cachePage model.info cache).length = pageSize + model.info.oobSize := by
    rw [cachePage, List.length_map, List.length_range]
  have arrived : ∀ i < pageSize + model.info.oobSize,
      (loaded bit model.info 0 (cachePage model.info cache) chip).registers
        (planeOfBit model.info bit) i =
        if i < pageSize then cache.data i else cache.oob (i - pageSize) := by
    intro i inside
    show Function.update chip.registers _ _ _ i = _
    rw [Function.update_self, overlay_of_mem ⟨Nat.zero_le i, by omega⟩, Nat.sub_zero,
      getD_cachePage _ _ inside]
  constructor
  · intro i inside
    simp only [ChipModel.pageOf]
    rw [if_pos inside, arrived i (by omega), if_pos inside]
  · intro i inside
    simp only [ChipModel.pageOf]
    rw [if_pos inside, arrived _ (by omega), if_neg (by omega), Nat.add_sub_cancel_left]

/-- The arrays agree as far as the pages of the chip go. -/
structure ArraysAgree (info : FlashInfo) (c c' : Chip) : Prop where
  ticks : c.ticks = c'.ticks
  pages : ∀ p, PageAgrees info (c.pages p) (c'.pages p)

theorem ArraysAgree.program {c c' : Chip} (agree : ArraysAgree model.info c c') (page : ℕ)
    {new new' : Page} (same : PageAgrees model.info new new') :
    (c.program model.arrayEnv page new).1 = (c'.program model.env page new').1 ∧
      ArraysAgree model.info (c.program model.arrayEnv page new).2
        (c'.program model.env page new').2 := by
  simp only [Chip.program, ChipModel.arrayEnv, ChipModel.env, agree.ticks]
  cases model.outcome c'.ticks with
  | done =>
      refine ⟨rfl, rfl, ?_⟩
      intro p
      show PageAgrees model.info (if p = page then _ else _) (if p = page then _ else _)
      split
      · constructor
        · intro i inside
          rw [Page.and_data, Page.and_data, (agree.pages p).data i inside, same.data i inside]
        · intro i inside
          rw [Page.and_oob, Page.and_oob, (agree.pages p).oob i inside, same.oob i inside]
      · exact agree.pages p
  | fail left =>
      refine ⟨rfl, rfl, ?_⟩
      intro p
      show PageAgrees model.info (if p = page then _ else _) (if p = page then _ else _)
      split
      · exact PageAgrees.refl _ _
      · exact agree.pages p

theorem ArraysAgree.eraseBlock {c c' : Chip} (agree : ArraysAgree model.info c c')
    (block : ℕ) :
    (c.eraseBlock model.arrayEnv block).1 = (c'.eraseBlock model.env block).1 ∧
      ArraysAgree model.info (c.eraseBlock model.arrayEnv block).2
        (c'.eraseBlock model.env block).2 := by
  simp only [Chip.eraseBlock, ChipModel.arrayEnv, ChipModel.env, agree.ticks]
  cases model.outcome c'.ticks with
  | done =>
      refine ⟨rfl, rfl, ?_⟩
      intro p
      show PageAgrees model.info (if p / pagePerBlock = block then _ else _)
        (if p / pagePerBlock = block then _ else _)
      split
      · exact PageAgrees.refl _ _
      · exact agree.pages p
  | fail left =>
      refine ⟨rfl, rfl, ?_⟩
      intro p
      show PageAgrees model.info (if p / pagePerBlock = block then _ else _)
        (if p / pagePerBlock = block then _ else _)
      split
      · exact PageAgrees.refl _ _
      · exact agree.pages p

theorem Agrees.arrays (agrees : Agrees model ram chip s) :
    ArraysAgree model.info chip.array s.chip := ⟨agrees.ticks, agrees.pages⟩

/-- The page in memory changes alike. -/
theorem Agrees.rewrite (agrees : Agrees model ram chip s) (dataOffset : ℕ) (dat : Bytes)
    (dataLen : ℕ) (oob : Bytes) (oobLen : ℕ) :
    Agrees model (Spi.rewrite model.info dataOffset dat dataLen oob oobLen ram) chip
      ⟨s.chip, { s.cache with
        data := overlay s.cache.data dataOffset dat dataLen
        oob := model.info.oobFreeLayout.scatter s.cache.oob oob oobLen }⟩ := by
  constructor
  case free => exact agrees.free
  case bit => exact agrees.bit
  case ticks => exact agrees.ticks
  case pages => exact agrees.pages
  case pageNum => exact agrees.pageNum
  case data =>
    intro i inside
    simp only [Spi.rewrite, overlay, agrees.data i inside]
  case oob =>
    intro i inside
    simp only [Spi.rewrite, OobLayout.scatter, agrees.oob i inside]
  case oobMapping => exact agrees.oobMapping

theorem Agrees.of_arrays (agrees : Agrees model ram chip s) {array array' : Chip}
    (agree : ArraysAgree model.info array array') {chip' : NandChip}
    (held : chip'.array = array) (free : Free model chip') :
    Agrees model ram chip' { s with chip := array' } where
  free := free
  bit := agrees.bit
  ticks := by rw [held]; exact agree.ticks
  pages := by rw [held]; exact agree.pages
  pageNum := agrees.pageNum
  data := agrees.data
  oob := agrees.oob
  oobMapping := agrees.oobMapping

/-- The chip when a program or an erase is over and writing is disabled. -/
def afterChange (chip : NandChip) : NandChip := { chip with busy := 0, writeEnabled := false }

theorem programExecute_free (free : Free model chip) (enabled : chip.writeEnabled) (page : ℕ) :
    model.programExecute page chip = model.start { chip with
      array := (chip.array.program model.arrayEnv page
        (model.pageOf (chip.registers (model.planeOfRow page)))).2
      writeEnabled := false
      programFail := !(chip.array.program model.arrayEnv page
        (model.pageOf (chip.registers (model.planeOfRow page)))).1 } := by
  rw [ChipModel.programExecute, if_pos enabled, if_neg (by rw [free.unlocked]; simp)]

theorem blockErase_free (free : Free model chip) (enabled : chip.writeEnabled) (block : ℕ) :
    model.blockErase (block * pagePerBlock) chip = model.start { chip with
      array := (chip.array.eraseBlock model.arrayEnv block).2
      writeEnabled := false
      eraseFail := !(chip.array.eraseBlock model.arrayEnv block).1 } := by
  have number : block * pagePerBlock / pagePerBlock = block := Nat.mul_div_cancel _ (by decide)
  rw [ChipModel.blockErase, number, if_pos enabled, if_neg (by rw [free.unlocked]; simp)]

/-- The chip is busy, and then says how the program went. -/
theorem runs_afterProgram (prompt : chip.busy < polls) :
    Runs model (do
      let status ← send (awaitReady polls)
      send spiNandProtocolWriteDisable
      let _ ← send spiNandProtocolGetStatusReg1
      pure (if status &&& 0x8 ≠ 0 then Rtn.programFail else .noError)) ram chip
      (if chip.programFail then .programFail else .noError) ram (afterChange chip) := by
  have value : (if ({ chip with busy := 0 } : NandChip).status &&& 0x8 ≠ 0 then Rtn.programFail
      else .noError) = if chip.programFail then .programFail else .noError :=
    if_congr (iff_of_eq (programFail_bit ..)) rfl rfl
  have disabled : Program.exec (chipOnBus model) spiNandProtocolWriteDisable
      (between { chip with busy := 0 }) = some ((), between (afterChange chip)) :=
    exec_writeDisable model rfl
  rw [← value]
  apply (runs_send (exec_awaitReady prompt)).bind
  apply (runs_send disabled).bind
  apply (runs_send (exec_getFeature model addrProtection _)).bind
  exact runs_pure _

/-- The chip is busy, and then says how the erase went. -/
theorem runs_afterErase (prompt : chip.busy < polls) :
    Runs model (do
      let status ← send (awaitReady polls)
      send spiNandProtocolWriteDisable
      pure (if status &&& 0x4 ≠ 0 then Rtn.eraseFail else .noError)) ram chip
      (if chip.eraseFail then .eraseFail else .noError) ram (afterChange chip) := by
  have value : (if ({ chip with busy := 0 } : NandChip).status &&& 0x4 ≠ 0 then Rtn.eraseFail
      else .noError) = if chip.eraseFail then .eraseFail else .noError :=
    if_congr (iff_of_eq (eraseFail_bit ..)) rfl rfl
  have disabled : Program.exec (chipOnBus model) spiNandProtocolWriteDisable
      (between { chip with busy := 0 }) = some ((), between (afterChange chip)) :=
    exec_writeDisable model rfl
  rw [← value]
  apply (runs_send (exec_awaitReady prompt)).bind
  apply (runs_send disabled).bind
  exact runs_pure _

/-- Programming the page register is programming a page that agrees with it. -/
theorem runs_program (prompt : ∀ n, model.busyFor n < polls) (agrees : Agrees model ram chip s)
    (enabled : chip.writeEnabled) {page : ℕ} (small : page < 2 ^ 24) {new : Page}
    (arrived : PageAgrees model.info
      (model.pageOf (chip.registers (model.planeOfRow page))) new) :
    ∃ chip', Runs model (do
        send (spiNandProtocolProgramExecute page)
        let status ← send (awaitReady polls)
        send spiNandProtocolWriteDisable
        let _ ← send spiNandProtocolGetStatusReg1
        pure (if status &&& 0x8 ≠ 0 then Rtn.programFail else .noError)) ram chip
        (if (s.chip.program model.env page new).1 then .noError else .programFail) ram chip' ∧
      Agrees model ram chip' { s with chip := (s.chip.program model.env page new).2 } := by
  obtain ⟨ok, arrays⟩ := agrees.arrays.program page arrived
  have programmed := programExecute_free agrees.free enabled page
  have execute := exec_programExecute model agrees.free.ready small
  generalize model.programExecute page chip = chip' at programmed execute
  refine ⟨afterChange chip', ?_, ?_⟩
  · have busy : chip'.busy < polls := by
      rw [programmed]
      exact prompt _
    have outcome : (if chip'.programFail then Rtn.programFail else .noError) =
        if (s.chip.program model.env page new).1 then .noError else .programFail := by
      rw [programmed, ← ok]
      show (if (!_) = true then Rtn.programFail else .noError) = _
      cases (chip.array.program model.arrayEnv page
        (model.pageOf (chip.registers (model.planeOfRow page)))).1 <;> rfl
    rw [← outcome]
    exact (runs_send execute).bind (runs_afterProgram busy)
  · rw [programmed]
    exact agrees.of_arrays arrays rfl ⟨rfl, agrees.free.unlocked⟩

/-- Writing a page on the wires is writing it to the array. -/
theorem runs_writePage (prompt : ∀ n, model.busyFor n < polls)
    (agrees : Agrees model ram chip s) {page : ℕ} (small : page < 2 ^ 24) (dataOffset : ℕ)
    (dat : Bytes) (dataLen : ℕ) (oob : Bytes) (oobLen : ℕ) (speed : WriteSpeed) :
    ∃ ram' chip', Runs model
        (writePage model.info polls page dataOffset dat dataLen oob oobLen speed) ram chip
        (spiNandWritePage model.env page dataOffset dat dataLen oob oobLen s).1 ram' chip' ∧
      Agrees model ram' chip'
        (spiNandWritePage model.env page dataOffset dat dataLen oob oobLen s).2 := by
  obtain ⟨ram₁, chip₁, read, agrees₁⟩ := runs_readPage prompt agrees small .single
  have agrees₂ := agrees₁.rewrite dataOffset dat dataLen oob oobLen
  have bit := selectPlane_bit model.info page agrees₂.bit
  have plane := planeOfBit_selectPlane model page
    (rewrite model.info dataOffset dat dataLen oob oobLen ram₁)
  have cache := selectPlane_cache model.info page
    (rewrite model.info dataOffset dat dataLen oob oobLen ram₁)
  generalize chosen : selectPlane model.info page
    (rewrite model.info dataOffset dat dataLen oob oobLen ram₁) = ram₂ at bit plane cache
  have load := exec_enableAndLoad model chip₁ agrees₁.free.ready bit speed
    (cachePage model.info ram₂.cache)
  have arrived := pageOf_loaded model ram₂.cache ram₂.planeSelectBit chip₁
  rw [plane] at arrived
  have free : Free model { loaded ram₂.planeSelectBit model.info 0
      (cachePage model.info ram₂.cache) chip₁ with writeEnabled := true } :=
    ⟨agrees₁.free.ready, agrees₁.free.unlocked⟩
  have agrees₃ := agrees₂.of_same cache bit free rfl
  have inMemory : PageAgrees model.info ⟨ram₂.cache.data, ram₂.cache.oob⟩
      ⟨overlay (spiNandReadPage model.env page s).2.cache.data dataOffset dat dataLen,
        model.info.oobFreeLayout.scatter (spiNandReadPage model.env page s).2.cache.oob oob
          oobLen⟩ :=
    ⟨agrees₃.data, agrees₃.oob⟩
  obtain ⟨chip₃, program, agrees₄⟩ := runs_program prompt agrees₃ rfl small
    (arrived.trans inMemory)
  refine ⟨ram₂, chip₃, ?_, agrees₄⟩
  apply read.bind
  apply (runs_modify _).bind
  apply (runs_modify _).bind
  rw [chosen]
  apply runs_get.bind
  apply (runs_send load).bind
  exact program

/-- Erasing a block on the wires is erasing it in the array. -/
theorem runs_eraseBlock (prompt : ∀ n, model.busyFor n < polls)
    (agrees : Agrees model ram chip s) {block : ℕ} (small : block < 2 ^ 18) :
    ∃ chip', Runs model (eraseBlock polls block) ram chip
        (spiNandEraseBlock model.env block s).1 ram chip' ∧
      Agrees model ram chip' (spiNandEraseBlock model.env block s).2 := by
  obtain ⟨ok, arrays⟩ := agrees.arrays.eraseBlock block
  have free : Free model { chip with writeEnabled := true } :=
    ⟨agrees.free.ready, agrees.free.unlocked⟩
  have erased := blockErase_free free rfl block
  have erase := exec_blockErase model free.ready small
  generalize model.blockErase (block * pagePerBlock) { chip with writeEnabled := true } = chip'
    at erased erase
  refine ⟨afterChange chip', ?_, ?_⟩
  · have busy : chip'.busy < polls := by
      rw [erased]
      exact prompt _
    have outcome : (if chip'.eraseFail then Rtn.eraseFail else .noError) =
        (spiNandEraseBlock model.env block s).1 := by
      rw [erased, spiNandEraseBlock]
      show (if (!(chip.array.eraseBlock model.arrayEnv block).1) = true then Rtn.eraseFail
        else .noError) = if (s.chip.eraseBlock model.env block).1 then .noError else .eraseFail
      rw [← ok]
      cases (chip.array.eraseBlock model.arrayEnv block).1 <;> rfl
    rw [← outcome]
    exact (runs_send (exec_writeEnable model agrees.free.ready)).bind
      ((runs_send erase).bind (runs_afterErase busy))
  · rw [erased]
    exact agrees.of_arrays arrays rfl ⟨rfl, free.unlocked⟩

end Agreement

/-! ## Clients of the page layer -/

section Clients

/-- Answers that are the same in every byte a page has. -/
def likeAnswers : (op : NandOp) → NandResp op → NandResp op → Prop
  | .readPage _, first, second =>
      Option.Rel (fun x y => (∀ i < pageSize, x.1 i = y.1 i) ∧ x.2 = y.2) first second
  | .checkBlockBad _ _, first, second => first = second
  | .markBadblock _ _, first, second => first = second
  | .eraseBlock _, first, second => first = second
  | .writePage _ _ _ _ _ _, first, second => first = second
  | .clearCache, _, _ => True

/-- The page or block can be addressed on the wires. -/
def Addressable : NandOp → Prop
  | .readPage page => page < 2 ^ 24
  | .checkBlockBad offset _ => foldReserved offset / pageSize < 2 ^ 24
  | .markBadblock offset _ => offset / pageSize < 2 ^ 24
  | .eraseBlock block => block < 2 ^ 18
  | .writePage page _ _ _ _ _ => page < 2 ^ 24
  | .clearCache => True

variable {model : ChipModel} {polls : ℕ} {ram : PageRam} {chip : NandChip} {s : Nand.Spi}

/-- Every function of the page layer does on the wires what it does to the array. -/
theorem runs_wiredBody (prompt : ∀ n, model.busyFor n < polls) (agrees : Agrees model ram chip s)
    (op : NandOp) (addressable : Addressable op) :
    ∃ answer ram' chip', Runs model (wiredBody model.info polls op) ram chip answer ram' chip' ∧
      likeAnswers op (nandMachine model.env op s).1 answer ∧
      Agrees model ram' chip' (nandMachine model.env op s).2 := by
  cases op with
  | readPage page =>
      obtain ⟨ram', chip', read, agrees'⟩ := runs_readPage prompt agrees addressable .single
      refine ⟨_, ram', chip', read.bind (runs_get.bind (runs_pure _)), ?_, agrees'⟩
      simp only [likeAnswers, nandMachine, en7512NandExecReadPage]
      split
      · exact .some ⟨fun i inside => (agrees'.data i inside).symm, agrees'.oobMapping.symm⟩
      · exact .none
  | checkBlockBad offset kind =>
      obtain ⟨ram', chip', read, agrees'⟩ := runs_readPage prompt agrees addressable .single
      refine ⟨_, ram', chip', read.bind (runs_get.bind (runs_pure _)), ?_, agrees'⟩
      show ((spiNandReadPage _ _ _).2.cache.oobMapping _ != 0xff) =
        (ram'.cache.oobMapping _ != 0xff)
      rw [agrees'.oobMapping]
  | markBadblock offset kind =>
      obtain ⟨ram', chip', write, agrees'⟩ :=
        runs_writePage prompt agrees addressable 0 allOnes 0 kind.mark 8 .single
      exact ⟨_, ram', chip', write.bind (runs_pure _), rfl, agrees'⟩
  | eraseBlock block =>
      obtain ⟨chip', erase, agrees'⟩ := runs_eraseBlock prompt agrees addressable
      exact ⟨_, ram, chip', erase.bind (runs_pure _), rfl, agrees'⟩
  | writePage page dataOffset dat dataLen oob oobLen =>
      obtain ⟨ram', chip', write, agrees'⟩ :=
        runs_writePage prompt agrees addressable dataOffset dat dataLen oob oobLen .single
      exact ⟨_, ram', chip', write.bind (runs_pure _), rfl, agrees'⟩
  | clearCache => exact ⟨(), _, chip, runs_modify _, trivial, { agrees with pageNum := rfl }⟩

/-- A client of the page layer that looks only at the bytes a page has runs on the chip as on
the array. -/
theorem exec_client {α : Type} {result : α → α → Prop} (prompt : ∀ n, model.busyFor n < polls)
    (agrees : Agrees model ram chip s) {m : Program NandOp NandResp α}
    (looks : Program.Alike likeAnswers result m m)
    (addressable : Program.Keeps (nandMachine model.env) (fun op _ => Addressable op) m s)
    {a : α} {s' : Nand.Spi} (run : Program.exec (nandMachine model.env) m s = some (a, s')) :
    ∃ b ram' chip', Program.exec (chipOnBus model)
        ((Routine.expand (wiredBody model.info polls) m).run ram) (between chip) =
          some ((b, ram'), between chip') ∧
      result a b ∧ Agrees model ram' chip' s' := by
  obtain ⟨b, ram', w', performed, same, chip', rfl, agrees'⟩ := Routine.exec_expand
    (N := chipOnBus model)
    (fun s ram w => ∃ chip, w = between chip ∧ Agrees model ram chip s)
    (fun op s ram w fits ⟨chip, same, agrees⟩ => by
      obtain ⟨answer, ram', chip', runs, like, agrees'⟩ := runs_wiredBody prompt agrees op fits
      subst same
      exact ⟨answer, ram', between chip', runs, like, chip', rfl, agrees'⟩)
    looks (t := between chip) ⟨chip, rfl, agrees⟩ addressable run
  exact ⟨b, ram', chip', Routine.exec_eq_some_iff.mp performed, same, agrees'⟩

/-- A client of the page layer that looks only at the bytes a page has cannot tell the chip at
the end of the controller's queues from the array. Whatever the chip, its outcomes and its
delays, and at any pace of the controller, the client comes to its end with the answers the
array gives, and the chip is left as the array is. -/
theorem page_layer_on_wires {α : Type} {result : α → α → Prop} {d : Depths}
    (prompt : ∀ n, model.busyFor n < polls) (agrees : Agrees model ram chip s)
    {c : Controller ChipModel.OnWires} (quiet : Quiet c) (wired : c.slave = between chip)
    {m : Program NandOp NandResp α} (looks : Program.Alike likeAnswers result m m)
    (addressable : Program.Keeps (nandMachine model.env) (fun op _ => Addressable op) m s)
    {a : α} {s' : Nand.Spi} (run : Program.exec (nandMachine model.env) m s = some (a, s')) :
    Program.Served (tick model.slave d) (ready d) (controllerMachine d)
        (Program.expand busBody ((Routine.expand (wiredBody model.info polls) m).run ram)) c ∧
      Program.wp (Program.paced (tick model.slave d) (ready d) (controllerMachine d))
        (Program.expand busBody ((Routine.expand (wiredBody model.info polls) m).run ram))
        (fun out c' => result a out.1 ∧ ∃ chip', Rests model.slave d c' (between chip') ∧
          Agrees model out.2 chip' s') c := by
  obtain ⟨b, ram', chip', performed, same, agrees'⟩ :=
    exec_client prompt agrees looks addressable run
  rw [← wired] at performed
  exact paced_of_exec quiet performed fun _ rests => ⟨same, chip', rests, agrees'⟩

end Clients

/-- A chip with two planes that does what it is told, after three polls. -/
def patientChip : ChipModel :=
  ⟨mxic 0x22 chipSize2Gbit .selectHave, fun _ => .done, fun _ _ => 0, fun _ => 3, true,
    fun _ _ => false⟩

/-- That chip as it leaves the factory. -/
def factoryChip : NandChip :=
  ⟨⟨fun _ => .erased, 0⟩, fun _ => allOnes, false, 0, 0, 0, false, false, 0x38, 0x10⟩

/-- A client that erases a block, writes a page of it and reads a byte back. -/
def writeAndReadBack : Program NandOp NandResp UInt8 := do
  let _ ← Program.perform (.eraseBlock 1)
  let _ ← Program.perform (.writePage 64 0 (fun i => UInt8.ofNat i) pageSize allOnes 0)
  let page ← Program.perform (.readPage 64)
  pure ((page.getD (allOnes, allOnes)).1 5)

theorem alike_writeAndReadBack :
    Program.Alike likeAnswers (fun first second => first = second) writeAndReadBack
      writeAndReadBack := by
  refine .call fun _ _ _ => .call fun _ _ _ => .call fun _ _ like => .pure ?_
  cases like with
  | none => rfl
  | some same => exact same.1 5 (by decide)

theorem page_layer_on_wires_read_back :
    Program.wp
      (Program.paced (tick patientChip.slave narrow) (ready narrow) (controllerMachine narrow))
      (Program.expand busBody ((Routine.expand (wiredBody patientChip.info 4)
        writeAndReadBack).run ⟨.initial, 0⟩))
      (fun out _ => out.1 = 5) ⟨0, [], ⟨.out, .single, 0⟩, [], between factoryChip⟩ := by
  have agrees : Agrees patientChip ⟨.initial, 0⟩ factoryChip
      ⟨⟨fun _ => .erased, 0⟩, .initial⟩ :=
    ⟨⟨rfl, fun _ => rfl⟩, .inl rfl, rfl, fun _ => PageAgrees.refl _ _, rfl, fun _ _ => rfl,
      fun _ _ => rfl, rfl⟩
  have prompt (n : ℕ) : patientChip.busyFor n < 4 := show 3 < 4 by decide
  have quiet : Quiet (⟨0, [], ⟨.out, .single, 0⟩, [], between factoryChip⟩ :
      Controller ChipModel.OnWires) := ⟨rfl, rfl, rfl⟩
  have addressable : Program.Keeps (nandMachine patientChip.env) (fun op _ => Addressable op)
      writeAndReadBack ⟨⟨fun _ => .erased, 0⟩, .initial⟩ :=
    ⟨show 1 < 2 ^ 18 by decide, show 64 < 2 ^ 24 by decide, show 64 < 2 ^ 24 by decide, trivial⟩
  have runs := (page_layer_on_wires (d := narrow) (a := 5) prompt agrees quiet rfl
    alike_writeAndReadBack addressable rfl).2
  exact Program.wp_mono (fun _ _ told => told.1.symm) runs

end En7512.Spi
