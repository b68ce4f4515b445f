/-
# The driver on the wires

What `spi_nand_flash.c` does for the kernel is to find the chip, to set up the tables of bad
blocks, and then to write, erase and read ranges of logical addresses. All that is said about
tables and blocks is said of the driver on an array of pages. `driver_on_wires` carries it to
the wires: with the commands of the chip, the functions of the controller and its queues below,
the driver gives the same replies, ends with the same tables, and leaves the same array.
-/

import En7512.Flash.Looks
import En7512.Flash.WriteLength
import En7512.Spi.Probe

namespace En7512.Flash

open En7512.Logic En7512.Nand En7512.Bmt En7512.Spi

/-! ## Requests -/

/-- What the kernel asks the driver for. -/
inductive Request
  /-- `SPI_NAND_Flash_Write_Nbyte`. -/
  | write (addr len : ℕ) (buf : Bytes)
  /-- `SPI_NAND_Flash_Erase`. -/
  | erase (addr len : ℕ)
  /-- `SPI_NAND_Flash_Read_NByte`. -/
  | read (addr len : ℕ) (speed : Speed)

/-- What the driver returns. -/
inductive Reply
  | written (rtn : Rtn) (len : ℕ)
  | erased (rtn : Rtn)
  | bytes (rtn : Rtn) (buf : List UInt8)
  deriving DecidableEq, Repr

section Array

variable (env : Env) (g : Geometry) (depth : ℕ)

/-- A request on the array. -/
def answer : Request → Ram → Nand.Spi → Option (Reply × Ram × Nand.Spi)
  | .write addr len buf, r, s =>
      (Routine.exec (nandMachine env) (spiNandFlashWriteNbyte g depth addr len buf) r s).map
        fun out => (.written out.1.1 out.1.2, out.2)
  | .erase addr len, r, s =>
      (Routine.exec (nandMachine env) (spiNandEraseInternal g depth addr len) r s).map
        fun out => (.erased out.1, out.2)
  | .read addr len _, r, s =>
      let out := spiNandReadInternal env g r addr len (fun _ => 0) s
      some (.bytes out.1 ((List.range len).map out.2.1), r, out.2.2)

/-- Requests in a row on the array. -/
def answers : List Request → Ram → Nand.Spi → Option (List Reply × Ram × Nand.Spi)
  | [], r, s => some ([], r, s)
  | request :: requests, r, s => do
      let (reply, r, s) ← answer env g depth request r s
      let (replies, r, s) ← answers requests r s
      some (reply :: replies, r, s)

/-- The set-up of the tables and then the requests; no replies when the set-up fails. -/
def session (requests : List Request) (s : Nand.Spi) :
    Option (Option (List Reply) × Ram × Nand.Spi) := do
  let (listed, r, s) ← Routine.exec (nandMachine env) (spiNandSetup g depth) .initial s
  if listed then
    let (replies, r, s) ← answers env g depth requests r s
    some (some replies, r, s)
  else some (none, r, s)

/-- The function names no page and no block that the address bytes do not hold. -/
abbrev Reaches {α : Type} (m : Drv α) (r : Ram) (s : Nand.Spi) : Prop :=
  Routine.Keeps (nandMachine env) (fun op _ => Addressable op) m r s

/-- So for a request. -/
def RequestReaches : Request → Ram → Nand.Spi → Prop
  | .write addr len buf, r, s => Reaches env (spiNandFlashWriteNbyte g depth addr len buf) r s
  | .erase addr len, r, s => Reaches env (spiNandEraseInternal g depth addr len) r s
  | .read addr len _, r, _ => ∀ a, foldReserved addr ≤ a → a < foldReserved addr + len →
      physicalAddr g r a / pageSize < 2 ^ 24

/-- So for every request of a row. -/
def RequestsReach : List Request → Ram → Nand.Spi → Prop
  | [], _, _ => True
  | request :: requests, r, s => RequestReaches env g depth request r s ∧
      ∀ out ∈ answer env g depth request r s, RequestsReach requests out.2.1 out.2.2

/-- So for the set-up of the tables, and for the requests if they come. -/
def SessionReaches (requests : List Request) (s : Nand.Spi) : Prop :=
  Reaches env (spiNandSetup g depth) .initial s ∧
    ∀ out ∈ Routine.exec (nandMachine env) (spiNandSetup g depth) .initial s,
      out.1 = true → RequestsReach env g depth requests out.2.1 out.2.2

instance : DecidablePred Addressable
  | .readPage page => inferInstanceAs (Decidable (page < 2 ^ 24))
  | .checkBlockBad offset _ =>
      inferInstanceAs (Decidable (foldReserved offset / pageSize < 2 ^ 24))
  | .markBadblock offset _ => inferInstanceAs (Decidable (offset / pageSize < 2 ^ 24))
  | .eraseBlock block => inferInstanceAs (Decidable (block < 2 ^ 18))
  | .writePage page _ _ _ _ _ => inferInstanceAs (Decidable (page < 2 ^ 24))
  | .clearCache => .isTrue trivial

instance : (request : Request) → (r : Ram) → (s : Nand.Spi) →
    Decidable (RequestReaches env g depth request r s)
  | .write addr len buf, r, s =>
      inferInstanceAs (Decidable (Reaches env (spiNandFlashWriteNbyte g depth addr len buf) r s))
  | .erase addr len, r, s =>
      inferInstanceAs (Decidable (Reaches env (spiNandEraseInternal g depth addr len) r s))
  | .read addr len _, r, _ =>
      inferInstanceAs (Decidable (∀ a, foldReserved addr ≤ a → a < foldReserved addr + len →
        physicalAddr g r a / pageSize < 2 ^ 24))

instance decidableRequestsReach : (requests : List Request) → (r : Ram) → (s : Nand.Spi) →
    Decidable (RequestsReach env g depth requests r s)
  | [], _, _ => .isTrue trivial
  | request :: requests, r, s =>
      have := fun out : Reply × Ram × Nand.Spi =>
        decidableRequestsReach requests out.2.1 out.2.2
      inferInstanceAs (Decidable (RequestReaches env g depth request r s ∧
        ∀ out ∈ answer env g depth request r s, RequestsReach env g depth requests _ _))

instance (requests : List Request) (s : Nand.Spi) :
    Decidable (SessionReaches env g depth requests s) :=
  inferInstanceAs (Decidable (_ ∧ ∀ out ∈ Routine.exec _ _ _ _, _))

end Array

/-! ## The same on the wires -/

section Wires

variable (info : FlashInfo) (polls : ℕ) (g : Geometry) (depth : ℕ)

/-- A function of the bad-block layer. -/
def wiredCall {α : Type} (m : Drv α) (r : Ram) : Wired (α × Ram) :=
  Routine.expand (wiredBody info polls) (m.run r)

/-- The loop of `spi_nand_read_internal`. -/
def wiredReadPieces (r : Ram) (len : ℕ) (speed : Speed) : ℕ → ℕ → ℕ → Bytes → Wired Bytes
  | 0, _, _, out => pure out
  | rounds + 1, readAddr, remainLen, out =>
      if remainLen = 0 then pure out
      else do
        let dataOffset := physicalAddr g r readAddr % pageSize
        let _ ← readPage info polls (physicalAddr g r readAddr / pageSize) speed
        let ram ← get
        let dataLen := readDataLen dataOffset remainLen
        let out :=
          overlay out (len - remainLen) (fun i => ram.cache.data (dataOffset + i)) dataLen
        wiredReadPieces r len speed rounds (readAddr + dataLen) (remainLen - dataLen) out

/-- A request. -/
def wiredAnswer : Request → Ram → Wired (Reply × Ram)
  | .write addr len buf, r => do
      let (out, r) ← wiredCall info polls (spiNandFlashWriteNbyte g depth addr len buf) r
      pure (.written out.1 out.2, r)
  | .erase addr len, r => do
      let (rtn, r) ← wiredCall info polls (spiNandEraseInternal g depth addr len) r
      pure (.erased rtn, r)
  | .read addr len speed, r => do
      let out ← wiredReadPieces info polls g r len speed len (foldReserved addr) len fun _ => 0
      pure (.bytes .noError ((List.range len).map out), r)

/-- Requests in a row. -/
def wiredAnswers : List Request → Ram → Wired (List Reply × Ram)
  | [], r => pure ([], r)
  | request :: requests, r => do
      let (reply, r) ← wiredAnswer info polls g depth request r
      let (replies, r) ← wiredAnswers requests r
      pure (reply :: replies, r)

/-- The set-up of the tables and then the requests. -/
def wiredSession (requests : List Request) : Wired (Option (List Reply) × Ram) := do
  let (listed, r) ← wiredCall info polls (spiNandSetup g depth) .initial
  if listed then
    let (replies, r) ← wiredAnswers info polls g depth requests r
    pure (some replies, r)
  else pure (none, r)

end Wires

/-- From power-up: find the chip, and then the session. -/
def initAndRun (polls : ℕ) (g : Geometry) (depth : ℕ) (requests : List Request) :
    Program BusOp BusResp (Option ((Option (List Reply) × Ram) × PageRam)) := do
  match ← spiNandProbe with
  | some info => do
      let out ← (wiredSession info polls g depth requests).run ⟨.initial, 0⟩
      pure (some out)
  | none => pure none

/-! ## One request -/

section Requests

variable {model : ChipModel} {polls : ℕ} {ram : PageRam} {chip : NandChip} {s s' : Nand.Spi}
  {g : Geometry} {depth : ℕ} {r r' : Ram}

theorem runs_wiredCall {α : Type} {m : Drv α} {a : α}
    (prompt : ∀ n, model.busyFor n < polls) (agrees : Agrees model ram chip s) (looks : Looks m)
    (reaches : Reaches model.env m r s)
    (run : Routine.exec (nandMachine model.env) m r s = some (a, r', s')) :
    ∃ ram' chip', Runs model (wiredCall model.info polls m r) ram chip (a, r') ram' chip' ∧
      Agrees model ram' chip' s' := by
  obtain ⟨b, ram', chip', performed, rfl, agrees'⟩ :=
    exec_client prompt agrees (looks r) reaches (Routine.exec_eq_some_iff.mp run)
  exact ⟨ram', chip', Routine.exec_eq_some_iff.mpr performed, agrees'⟩

/-- The loop copies the same bytes, by induction on the rounds. -/
theorem runs_wiredReadPieces (prompt : ∀ n, model.busyFor n < polls)
    (agrees : Agrees model ram chip s)
    (len : ℕ) (speed : Speed) (rounds readAddr remainLen : ℕ) (out : Bytes)
    (small : ∀ a, readAddr ≤ a → a < readAddr + remainLen →
      physicalAddr g r a / pageSize < 2 ^ 24) :
    ∃ ram' chip',
      Runs model (wiredReadPieces model.info polls g r len speed rounds readAddr remainLen out)
        ram chip (readPieces model.env g r len rounds readAddr remainLen out s).1 ram' chip' ∧
      Agrees model ram' chip' (readPieces model.env g r len rounds readAddr remainLen out s).2 := by
  induction rounds generalizing readAddr remainLen out ram chip s with
  | zero => exact ⟨ram, chip, runs_pure _, agrees⟩
  | succ rounds ih =>
      rw [wiredReadPieces, readPieces]
      by_cases none : remainLen = 0
      · rw [if_pos none, if_pos none]
        exact ⟨ram, chip, runs_pure _, agrees⟩
      · rw [if_neg none, if_neg none]
        obtain ⟨ram₁, chip₁, read, agrees₁⟩ :=
          runs_readPage prompt agrees (small readAddr le_rfl (by omega)) speed
        have inPage : physicalAddr g r readAddr % pageSize < pageSize := Nat.mod_lt _ (by decide)
        have piece := readDataLen_eq inPage remainLen
        dsimp only
        generalize readDataLen (physicalAddr g r readAddr % pageSize) remainLen = n at piece ⊢
        have copied : overlay out (len - remainLen)
            (fun i => ram₁.cache.data (physicalAddr g r readAddr % pageSize + i)) n =
          overlay out (len - remainLen) (fun i =>
            (spiNandReadPage model.env (physicalAddr g r readAddr / pageSize) s).2.cache.data
              (physicalAddr g r readAddr % pageSize + i)) n := by
          funext i
          rw [overlay, overlay]
          split
          · next inside => exact agrees₁.data _ (by omega)
          · rfl
        obtain ⟨ram', chip', rest, agrees'⟩ := ih agrees₁ (readAddr + n) (remainLen - n) _
          fun a low high => small a (by omega) (by omega)
        refine ⟨ram', chip', read.bind (runs_get.bind ?_), agrees'⟩
        rw [copied]
        exact rest

/-- Every request gets the same reply on the wires as on the array. -/
theorem runs_wiredAnswer (prompt : ∀ n, model.busyFor n < polls)
    (agrees : Agrees model ram chip s) {request : Request}
    (reaches : RequestReaches model.env g depth request r s) {reply : Reply}
    (told : answer model.env g depth request r s = some (reply, r', s')) :
    ∃ ram' chip', Runs model (wiredAnswer model.info polls g depth request r) ram chip (reply, r')
        ram' chip' ∧ Agrees model ram' chip' s' := by
  cases request with
  | write addr len buf =>
      obtain ⟨⟨out, r₁, s₁⟩, run, same⟩ := Option.map_eq_some_iff.mp told
      cases same
      have looks : Looks (spiNandFlashWriteNbyte g depth addr len buf) :=
        ((looks_spiNandWriteInternal g depth addr len buf).bind fun _ => looks_pure _).bind
          fun _ => looks_pure _
      obtain ⟨ram', chip', call, agrees'⟩ := runs_wiredCall prompt agrees looks reaches run
      exact ⟨ram', chip', call.bind (runs_pure _), agrees'⟩
  | erase addr len =>
      obtain ⟨⟨rtn, r₁, s₁⟩, run, same⟩ := Option.map_eq_some_iff.mp told
      cases same
      obtain ⟨ram', chip', call, agrees'⟩ := runs_wiredCall prompt agrees
        (looks_spiNandEraseInternal g depth addr len) reaches run
      exact ⟨ram', chip', call.bind (runs_pure _), agrees'⟩
  | read addr len speed =>
      cases told
      obtain ⟨ram', chip', pieces, agrees'⟩ := runs_wiredReadPieces prompt agrees len speed len
        (foldReserved addr) len (fun _ => 0) reaches
      exact ⟨ram', chip', pieces.bind (runs_pure _), agrees'⟩

/-- And so do requests in a row, by induction on them. -/
theorem runs_wiredAnswers (prompt : ∀ n, model.busyFor n < polls)
    (agrees : Agrees model ram chip s) {requests : List Request}
    (reach : RequestsReach model.env g depth requests r s) {replies : List Reply}
    (told : answers model.env g depth requests r s = some (replies, r', s')) :
    ∃ ram' chip', Runs model (wiredAnswers model.info polls g depth requests r) ram chip
        (replies, r') ram' chip' ∧ Agrees model ram' chip' s' := by
  induction requests generalizing ram chip r s replies with
  | nil =>
      cases told
      exact ⟨ram, chip, runs_pure _, agrees⟩
  | cons request requests ih =>
      obtain ⟨⟨reply, r₁, s₁⟩, first, told⟩ := Option.bind_eq_some_iff.mp told
      obtain ⟨⟨replies', r₂, s₂⟩, rest, same⟩ := Option.bind_eq_some_iff.mp told
      cases same
      obtain ⟨ram₁, chip₁, run, agrees₁⟩ := runs_wiredAnswer prompt agrees reach.1 first
      obtain ⟨ram', chip', runs, agrees'⟩ := ih agrees₁ (reach.2 _ first) rest
      exact ⟨ram', chip', run.bind (runs.bind (runs_pure _)), agrees'⟩

/-- And so does the session. -/
theorem runs_wiredSession (prompt : ∀ n, model.busyFor n < polls)
    (agrees : Agrees model ram chip s) {requests : List Request}
    (reaches : SessionReaches model.env g depth requests s)
    {replies : Option (List Reply)}
    (run : session model.env g depth requests s = some (replies, r', s')) :
    ∃ ram' chip', Runs model (wiredSession model.info polls g depth requests) ram chip
        (replies, r') ram' chip' ∧ Agrees model ram' chip' s' := by
  obtain ⟨⟨listed, r₁, s₁⟩, setup, told⟩ := Option.bind_eq_some_iff.mp run
  obtain ⟨ram₁, chip₁, call, agrees₁⟩ :=
    runs_wiredCall prompt agrees (looks_spiNandSetup g depth) reaches.1 setup
  cases listed with
  | false =>
      cases told
      exact ⟨ram₁, chip₁, call.bind (runs_pure _), agrees₁⟩
  | true =>
      obtain ⟨⟨replies', r₂, s₂⟩, rest, same⟩ := Option.bind_eq_some_iff.mp told
      cases same
      obtain ⟨ram', chip', runs, agrees'⟩ :=
        runs_wiredAnswers prompt agrees₁ (reaches.2 _ setup rfl) rest
      exact ⟨ram', chip', call.bind (runs.bind (runs_pure _)), agrees'⟩

end Requests

/-! ## The session -/

section Session

variable {model : ChipModel} {polls : ℕ} {chip : NandChip} {g : Geometry} {depth : ℕ}

/-- From power-up of a chip of the table, whatever its registers hold, its outcomes, its
correction codes and its delays are, and at any pace of the controller, the set-up of the tables
and any requests in a row come to their end on the wires as on the array. The replies are the
same, the tables are the same, and the chip holds what the array holds. -/
theorem driver_on_wires {d : Depths} (listed : model.info ∈ spiNandFlashTables)
    (protects : Protects model) (prompt : ∀ n, model.busyFor n < polls) (idle : chip.busy = 0)
    {c : Controller ChipModel.OnWires} (quiet : Quiet c) (wired : c.slave = between chip)
    {requests : List Request}
    (reaches : SessionReaches model.env g depth requests ⟨chip.array, .initial⟩)
    {replies : Option (List Reply)} {r' : Ram} {s' : Nand.Spi}
    (run : session model.env g depth requests ⟨chip.array, .initial⟩ = some (replies, r', s')) :
    Program.Served (tick model.slave d) (ready d) (controllerMachine d)
        (Program.expand busBody (initAndRun polls g depth requests)) c ∧
      Program.wp (Program.paced (tick model.slave d) (ready d) (controllerMachine d))
        (Program.expand busBody (initAndRun polls g depth requests))
        (fun out c' => ∃ ram chip', out = some ((replies, r'), ram) ∧
          Rests model.slave d c' (between chip') ∧ Agrees model ram chip' s') c := by
  obtain ⟨chip₁, found, agrees⟩ := exec_probe_agrees listed protects idle
  obtain ⟨ram', chip', session, agrees'⟩ := runs_wiredSession prompt agrees reaches run
  have performed : Program.exec (busMachine model.slave) (initAndRun polls g depth requests)
      c.slave = some (some ((replies, r'), ram'), between chip') := by
    rw [wired, initAndRun, Program.exec_bind, found]
    show Program.exec _ ((wiredSession model.info polls g depth requests).run ⟨.initial, 0⟩ >>= _)
      (between _) = _
    rw [Program.exec_bind, Routine.exec_eq_some_iff.mp session]
    rfl
  exact paced_of_exec quiet performed fun _ rests => ⟨ram', chip', rfl, rests, agrees'⟩

end Session

/-- A byte is written to logical block 1, and read back with its neighbour. -/
def writeAndRead : List Request := [.write eraseSize 1 fun _ => 7, .read eraseSize 2 .quad]

/-- A chip with two planes whose first program and erase operations fail. -/
def clumsyChip : ChipModel :=
  { patientChip with outcome := fun t => if t < 2 then .fail fun _ => .erased else .done }

theorem driver_on_wires_read_back :
    Program.wp
      (Program.paced (tick clumsyChip.slave narrow) (ready narrow) (controllerMachine narrow))
      (Program.expand busBody (initAndRun 4 eightBlocks 5 writeAndRead))
      (fun out _ => ∃ r ram, out = some ((some [.written .noError 1, .bytes .noError [7, 0xff]],
        r), ram)) ⟨0, [], ⟨.out, .single, 0⟩, [], between factoryChip⟩ := by
  have told : (session clumsyChip.env eightBlocks 5 writeAndRead ⟨factoryChip.array, .initial⟩).map
      (fun out => out.1) = some (some [.written .noError 1, .bytes .noError [7, 0xff]]) := by
    decide +kernel
  obtain ⟨⟨replies, r, s⟩, run, rfl⟩ := Option.map_eq_some_iff.mp told
  have reaches : SessionReaches clumsyChip.env eightBlocks 5 writeAndRead
      ⟨factoryChip.array, .initial⟩ := by decide +kernel
  have protects : Protects clumsyChip := fun _ _ _ => rfl
  have prompt (n : ℕ) : clumsyChip.busyFor n < 4 := show 3 < 4 by decide
  have quiet : Quiet (⟨0, [], ⟨.out, .single, 0⟩, [], between factoryChip⟩ :
      Controller ChipModel.OnWires) := ⟨rfl, rfl, rfl⟩
  have listed : clumsyChip.info ∈ spiNandFlashTables :=
    List.mem_of_getElem? (i := 10) rfl
  have runs := (driver_on_wires (d := narrow) listed protects prompt rfl quiet rfl reaches run).2
  apply Program.wp_mono _ runs
  rintro out c' ⟨ram, chip', same, -⟩
  exact ⟨r, ram, same⟩

end En7512.Flash
