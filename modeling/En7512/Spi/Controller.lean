/-
# The serial flash controller

`spi_controller.c` drives the flash by hand: it puts operations (select the chip, shift bytes
out, shift bytes in) into one queue and data bytes into another, and an engine works on them
at its own pace. Between two register accesses of the driver the engine may have done nothing
or everything there was. The driver waits at some places, by polling a register.

Here stand the registers and the engine, for queues of any depth and any chip on the wires,
and the functions of the driver as programs over register accesses. `bus_at_any_pace` says that
the waits are the right ones. At any pace the functions come to their end, and the chip and
the caller see exactly the bytes of a bus without queues, `busMachine`.
-/

import En7512.Logic.Asynchrony

namespace En7512.Spi

open En7512.Logic
open En7512.Logic.Program (Performs expand exec paced Served Settles wp perform)

/-! ## The wires -/

/-- `SPI_CONTROLLER_SPEED_T`: how many data lines carry the bytes. -/
inductive Speed
  | single
  | dual
  | quad
  deriving DecidableEq, Repr

/-- The chip at the other end of the wires. -/
structure Slave (σ : Type) where
  /-- Chip select goes low. -/
  select : σ → σ
  /-- Chip select goes high. -/
  deselect : σ → σ
  /-- The clock runs and no data line is driven. -/
  clock : ℕ → σ → σ
  /-- A byte goes to the chip. -/
  shiftOut : Speed → UInt8 → σ → σ
  /-- A byte comes from the chip. -/
  shiftIn : Speed → σ → UInt8 × σ

namespace Slave

variable {σ : Type} (dev : Slave σ)

/-- Bytes go to the chip, one after another. -/
def sendAll (speed : Speed) (bytes : List UInt8) (s : σ) : σ :=
  bytes.foldl (fun s b => dev.shiftOut speed b s) s

/-- That many bytes come from the chip. -/
def receive (speed : Speed) : ℕ → σ → List UInt8 × σ
  | 0, s => ([], s)
  | n + 1, s =>
      let (b, s) := dev.shiftIn speed s
      let (rest, s) := receive speed n s
      (b :: rest, s)

@[simp] theorem sendAll_nil (speed : Speed) (s : σ) : dev.sendAll speed [] s = s := rfl

@[simp] theorem sendAll_cons (speed : Speed) (b : UInt8) (bytes : List UInt8) (s : σ) :
    dev.sendAll speed (b :: bytes) s = dev.sendAll speed bytes (dev.shiftOut speed b s) := rfl

theorem sendAll_append (speed : Speed) (first second : List UInt8) (s : σ) :
    dev.sendAll speed (first ++ second) s =
      dev.sendAll speed second (dev.sendAll speed first s) := List.foldl_append

@[simp] theorem receive_zero (speed : Speed) (s : σ) : dev.receive speed 0 s = ([], s) := rfl

theorem receive_succ (speed : Speed) (n : ℕ) (s : σ) :
    dev.receive speed (n + 1) s =
      ((dev.shiftIn speed s).1 :: (dev.receive speed n (dev.shiftIn speed s).2).1,
        (dev.receive speed n (dev.shiftIn speed s).2).2) := rfl

theorem receive_add (speed : Speed) (m n : ℕ) (s : σ) :
    dev.receive speed (m + n) s =
      ((dev.receive speed m s).1 ++ (dev.receive speed n (dev.receive speed m s).2).1,
        (dev.receive speed n (dev.receive speed m s).2).2) := by
  induction m generalizing s with
  | zero => simp
  | succ m ih =>
      rw [Nat.add_right_comm, receive_succ, receive_succ, ih]
      rfl

theorem length_receive (speed : Speed) (n : ℕ) (s : σ) :
    (dev.receive speed n s).1.length = n := by
  induction n generalizing s with
  | zero => rfl
  | succ n ih => rw [receive_succ, List.length_cons, ih]

end Slave

/-! ## The operations of the controller -/

/-- `_SPI_CONTROLLER_VAL_OP_LEN_MAX`. -/
def opLenMax : ℕ := 0x1ff

/-- What `spi_controller_set_opfifo` writes to `OPFIFO_WDATA`. -/
def opWord (opCmd opLen : ℕ) : ℕ := ((opCmd &&& 0x1f) <<< 9) ||| (opLen &&& 0x1ff)

theorem opWord_eq (opCmd opLen : ℕ) : opWord opCmd opLen = opCmd % 32 * 512 + opLen % 512 := by
  have cmd : opCmd &&& 0x1f = opCmd % 32 := Nat.and_two_pow_sub_one_eq_mod opCmd 5
  have len : opLen &&& 0x1ff = opLen % 512 := Nat.and_two_pow_sub_one_eq_mod opLen 9
  have small : opLen % 512 < 2 ^ 9 := Nat.mod_lt _ (by decide)
  rw [opWord, cmd, len, Nat.shiftLeft_eq, Nat.mul_comm, ← Nat.two_pow_add_eq_or_of_lt small,
    Nat.mul_comm]

/-- The direction of a transfer, seen from the driver. -/
inductive Direction
  | out
  | inn
  deriving DecidableEq, Repr

/-- The transfer the engine works on; with nothing `left` it is over. -/
structure Transfer where
  direction : Direction
  speed : Speed
  /-- Bytes still to be shifted. -/
  left : ℕ
  deriving DecidableEq, Repr

section Engine

variable {σ : Type} (dev : Slave σ)

/-- The engine takes up an operation: `_SPI_CONTROLLER_VAL_OP_CSH` and so on. -/
def beginOp (word : ℕ) (transfer : Transfer) (s : σ) : Transfer × σ :=
  let len := word % 512
  match word / 512 with
  | 0x00 => (transfer, dev.deselect s)
  | 0x01 => (transfer, dev.select s)
  | 0x02 => (transfer, dev.clock len s)
  | 0x08 => (⟨.out, .single, len⟩, s)
  | 0x09 => (⟨.out, .dual, len⟩, s)
  | 0x0a => (⟨.out, .quad, len⟩, s)
  | 0x0c => (⟨.inn, .single, len⟩, s)
  | 0x0e => (⟨.inn, .dual, len⟩, s)
  | 0x0f => (⟨.inn, .quad, len⟩, s)
  | _ => (transfer, s)

/-- The queues and the engine, with the chip. -/
structure Controller (σ : Type) where
  /-- `MANUAL_OPFIFO_WDATA`. -/
  opWdata : ℕ
  /-- The queue of operations. -/
  ops : List ℕ
  transfer : Transfer
  /-- The queue of data bytes, which serves both directions. -/
  fifo : List UInt8
  /-- The chip. -/
  slave : σ

/-- The depths of the queues. -/
structure Depths where
  ops : ℕ
  data : ℕ
  ops_pos : 0 < ops
  data_pos : 0 < data

variable (d : Depths)

/-- The engine takes up the next operation. -/
def Controller.beginNext (word : ℕ) (rest : List ℕ) (c : Controller σ) : Controller σ :=
  let (transfer, slave) := beginOp dev word c.transfer c.slave
  { c with ops := rest, transfer := transfer, slave := slave }

/-- The engine takes a byte from the queue and shifts it out. -/
def Controller.byteOut (b : UInt8) (rest : List UInt8) (c : Controller σ) : Controller σ :=
  { c with
    fifo := rest
    slave := dev.shiftOut c.transfer.speed b c.slave
    transfer := { c.transfer with left := c.transfer.left - 1 } }

/-- The engine shifts a byte in and puts it into the queue. -/
def Controller.byteIn (c : Controller σ) : Controller σ :=
  let (b, slave) := dev.shiftIn c.transfer.speed c.slave
  { c with
    fifo := c.fifo ++ [b]
    slave := slave
    transfer := { c.transfer with left := c.transfer.left - 1 } }

/-- One step of the engine. -/
def tick (c : Controller σ) : Controller σ :=
  if c.transfer.left = 0 then
    match c.ops with
    | [] => c
    | word :: rest => c.beginNext dev word rest
  else
    match c.transfer.direction with
    | .out =>
        match c.fifo with
        | [] => c
        | b :: rest => c.byteOut dev b rest
    | .inn => if c.fifo.length < d.data then c.byteIn dev else c

/-- Nothing is queued and nothing is being shifted. -/
structure Quiet (c : Controller σ) : Prop where
  ops : c.ops = []
  left : c.transfer.left = 0
  fifo : c.fifo = []

end Engine

/-! ## The registers -/

/-- The register accesses of the driver. A polling loop is one access: it is over when the
register no longer reads what the loop waits for. -/
inductive Access
  /-- `WriteReg(.._OPFIFO_WDATA, word)`. -/
  | writeOpWdata (word : ℕ)
  /-- `while(ReadReg(.._OPFIFO_FULL))`. -/
  | awaitOpRoom
  /-- `WriteReg(.._OPFIFO_WR, 1)`. -/
  | writeOpWr
  /-- `while(!ReadReg(.._OPFIFO_EMPTY))`. -/
  | awaitOpEmpty
  /-- `while(ReadReg(.._DFIFO_FULL))`. -/
  | awaitDataRoom
  /-- `WriteReg(.._DFIFO_WDATA, data)`. -/
  | writeDataWdata (data : UInt8)
  /-- `while(ReadReg(.._DFIFO_EMPTY))`. -/
  | awaitData
  /-- `ReadReg(.._DFIFO_RDATA)`. -/
  | readDataRdata
  /-- `WriteReg(.._DFIFO_RD, 1)`. -/
  | writeDataRd

/-- What an access reads. -/
@[reducible] def AccessResp : Access → Type
  | .readDataRdata => UInt8
  | _ => Unit

section Registers

variable {σ : Type} (d : Depths)

/-- The accesses on the controller. What is written to a full queue is lost. -/
def controllerMachine : Machine Access AccessResp (Controller σ)
  | .writeOpWdata word, c => ((), { c with opWdata := word })
  | .awaitOpRoom, c => ((), c)
  | .writeOpWr, c =>
      ((), { c with ops := if c.ops.length < d.ops then c.ops ++ [c.opWdata] else c.ops })
  | .awaitOpEmpty, c => ((), c)
  | .awaitDataRoom, c => ((), c)
  | .writeDataWdata data, c =>
      ((), { c with fifo := if c.fifo.length < d.data then c.fifo ++ [data] else c.fifo })
  | .awaitData, c => ((), c)
  | .readDataRdata, c => (c.fifo.headD 0, c)
  | .writeDataRd, c => ((), { c with fifo := c.fifo.tail })

/-- When a polling loop is over. -/
def ready : Access → Controller σ → Prop
  | .awaitOpRoom, c => c.ops.length < d.ops
  | .awaitOpEmpty, c => c.ops = []
  | .awaitDataRoom, c => c.fifo.length < d.data
  | .awaitData, c => c.fifo ≠ []
  | _, _ => True

end Registers

/-! ## The functions of the driver -/

/-- Make one access. -/
def access (a : Access) : Program Access AccessResp (AccessResp a) := perform a

/-- `spi_controller_set_opfifo`. -/
def setOpfifo (opCmd opLen : ℕ) : Program Access AccessResp Unit := do
  access (.writeOpWdata (opWord opCmd opLen))
  access .awaitOpRoom
  access .writeOpWr
  access .awaitOpEmpty

/-- `spi_controller_read_data_fifo`. -/
def readDataFifo : ℕ → Program Access AccessResp (List UInt8)
  | 0 => pure []
  | dataLen + 1 => do
      access .awaitData
      let b ← access .readDataRdata
      access .writeDataRd
      let rest ← readDataFifo dataLen
      pure (b :: rest)

/-- `spi_controller_write_data_fifo`. -/
def writeDataFifo : List UInt8 → Program Access AccessResp Unit
  | [] => pure ()
  | b :: rest => do
      access .awaitDataRoom
      access (.writeDataWdata b)
      access .awaitDataRoom
      writeDataFifo rest

/-- The operation that shifts bytes out: `_SPI_CONTROLLER_VAL_OP_OUTS` and so on. -/
def outCmd : Speed → ℕ
  | .single => 0x08
  | .dual => 0x09
  | .quad => 0x0a

/-- The operation that shifts bytes in: `_SPI_CONTROLLER_VAL_OP_INS` and so on. -/
def inCmd : Speed → ℕ
  | .single => 0x0c
  | .dual => 0x0e
  | .quad => 0x0f

/-- `SPI_CONTROLLER_Write_One_Byte`. -/
def writeOneByte (data : UInt8) : Program Access AccessResp Unit := do
  setOpfifo (outCmd .single) 1
  writeDataFifo [data]

/-- The bytes of one round: no more than the controller can process at one time. -/
def roundLen (remainLen : ℕ) : ℕ := if remainLen > opLenMax then opLenMax else remainLen

theorem roundLen_le (remainLen : ℕ) : roundLen remainLen ≤ remainLen := by
  rw [roundLen]
  split <;> omega

theorem roundLen_le_max (remainLen : ℕ) : roundLen remainLen ≤ 511 := by
  rw [roundLen, opLenMax]
  split <;> omega

theorem roundLen_pos {remainLen : ℕ} (some : remainLen ≠ 0) : 0 < roundLen remainLen := by
  rw [roundLen, opLenMax]
  split <;> omega

/-- The loop of `SPI_CONTROLLER_Write_NByte`; the argument is `remain_len`. -/
def writeRounds (bytes : List UInt8) (opCmd : ℕ) : ℕ → Program Access AccessResp Unit
  | 0 => pure ()
  | n + 1 => do
      setOpfifo opCmd (roundLen (n + 1))
      writeDataFifo ((bytes.drop (bytes.length - (n + 1))).take (roundLen (n + 1)))
      writeRounds bytes opCmd (n + 1 - roundLen (n + 1))
  decreasing_by exact Nat.sub_lt (Nat.succ_pos n) (roundLen_pos (Nat.succ_ne_zero n))

/-- `SPI_CONTROLLER_Write_NByte`. -/
def writeNByte (bytes : List UInt8) (speed : Speed) : Program Access AccessResp Unit :=
  writeRounds bytes (outCmd speed) bytes.length

/-- The loop of `SPI_CONTROLLER_Read_NByte`; the argument is `remain_len`. -/
def readRounds (opCmd : ℕ) : ℕ → Program Access AccessResp (List UInt8)
  | 0 => pure []
  | n + 1 => do
      setOpfifo opCmd (roundLen (n + 1))
      let first ← readDataFifo (roundLen (n + 1))
      let rest ← readRounds opCmd (n + 1 - roundLen (n + 1))
      pure (first ++ rest)
  decreasing_by exact Nat.sub_lt (Nat.succ_pos n) (roundLen_pos (Nat.succ_ne_zero n))

/-- `SPI_CONTROLLER_Read_NByte`. -/
def readNByte (len : ℕ) (speed : Speed) : Program Access AccessResp (List UInt8) :=
  readRounds (inCmd speed) len

/-- `SPI_CONTROLLER_Chip_Select_Low`. -/
def chipSelectLow : Program Access AccessResp Unit := do
  setOpfifo 0x01 1
  setOpfifo 0x01 1

/-- `SPI_CONTROLLER_Chip_Select_High`. -/
def chipSelectHigh : Program Access AccessResp Unit := do
  setOpfifo 0x00 1
  setOpfifo 0x02 5

/-! ## The bus without queues -/

/-- The functions the flash driver uses. -/
inductive BusOp
  | writeOneByte (data : UInt8)
  | writeNByte (bytes : List UInt8) (speed : Speed)
  | readNByte (len : ℕ) (speed : Speed)
  | chipSelectLow
  | chipSelectHigh

/-- What they return: the bytes that were read. -/
@[reducible] def BusResp : BusOp → Type
  | .readNByte _ _ => List UInt8
  | _ => Unit

/-- The functions as programs over register accesses. -/
def busBody : (op : BusOp) → Program Access AccessResp (BusResp op)
  | .writeOneByte data => writeOneByte data
  | .writeNByte bytes speed => writeNByte bytes speed
  | .readNByte len speed => readNByte len speed
  | .chipSelectLow => chipSelectLow
  | .chipSelectHigh => chipSelectHigh

/-- What the functions are to do to the chip. -/
def busMachine {σ : Type} (dev : Slave σ) : Machine BusOp BusResp σ
  | .writeOneByte data, s => ((), dev.shiftOut .single data s)
  | .writeNByte bytes speed, s => ((), dev.sendAll speed bytes s)
  | .readNByte len speed, s => dev.receive speed len s
  | .chipSelectLow, s => ((), dev.select (dev.select s))
  | .chipSelectHigh, s => ((), dev.clock 5 (dev.deselect s))

/-! ## What has been given to the controller -/

section Plain

variable {σ : Type} (dev : Slave σ)

/-- The controller when everything it was given has been done: the bytes the driver has still
to write are `left`, and the bytes that came in are all there. -/
structure Line (σ : Type) where
  transfer : Transfer
  received : List UInt8
  slave : σ

/-- An operation is done as far as it can be. -/
def Line.beginOp (word : ℕ) (line : Line σ) : Line σ :=
  let (transfer, slave) := Spi.beginOp dev word line.transfer line.slave
  match transfer.direction with
  | .out => ⟨transfer, line.received, slave⟩
  | .inn =>
      let (bytes, slave) := dev.receive transfer.speed transfer.left slave
      ⟨{ transfer with left := 0 }, line.received ++ bytes, slave⟩

/-- What the transfer of the controller comes to. -/
def Controller.shifted (c : Controller σ) : Line σ :=
  match c.transfer.direction with
  | .out => ⟨{ c.transfer with left := c.transfer.left - c.fifo.length }, [],
      dev.sendAll c.transfer.speed c.fifo c.slave⟩
  | .inn =>
      let (bytes, slave) := dev.receive c.transfer.speed c.transfer.left c.slave
      ⟨{ c.transfer with left := 0 }, c.fifo ++ bytes, slave⟩

/-- What the controller comes to. -/
def Controller.settled (c : Controller σ) : Line σ :=
  c.ops.foldl (fun line word => line.beginOp dev word) (c.shifted dev)

/-- The plain controller, with what the driver knows from its last polls. -/
structure Plain (σ : Type) where
  opWdata : ℕ
  line : Line σ
  /-- The queue of operations is empty. -/
  opEmpty : Bool
  /-- There is room for a byte. -/
  dataRoom : Bool
  /-- There is a byte. -/
  dataHere : Bool

/-- The accesses on the plain controller. -/
def plainMachine : Machine Access AccessResp (Plain σ)
  | .writeOpWdata word, p => ((), { p with opWdata := word })
  | .awaitOpRoom, p => ((), p)
  | .writeOpWr, p => ((), ⟨p.opWdata, p.line.beginOp dev p.opWdata, false, false, false⟩)
  | .awaitOpEmpty, p => ((), { p with opEmpty := true })
  | .awaitDataRoom, p => ((), { p with dataRoom := true })
  | .writeDataWdata data, p =>
      ((), { p with
        line := { p.line with
          transfer := { p.line.transfer with left := p.line.transfer.left - 1 }
          slave := dev.shiftOut p.line.transfer.speed data p.line.slave }
        dataRoom := false })
  | .awaitData, p => ((), { p with dataHere := true })
  | .readDataRdata, p => (p.line.received.headD 0, p)
  | .writeDataRd, p =>
      ((), { p with line := { p.line with received := p.line.received.tail }, dataHere := false })

/-- What the driver must have seen to before an access. -/
def allowed : Access → Plain σ → Prop
  | .awaitOpRoom, p => p.opEmpty
  | .writeOpWr, p => p.opEmpty ∧ p.line.transfer.left = 0 ∧ p.line.received = []
  | .awaitDataRoom, p => p.opEmpty ∧ p.line.transfer.direction = .out
  | .writeDataWdata _, p => p.dataRoom ∧ 0 < p.line.transfer.left
  | .awaitData, p => p.opEmpty ∧ p.line.received ≠ []
  | .readDataRdata, p => p.dataHere
  | .writeDataRd, p => p.dataHere
  | _, _ => True

end Plain

/-! ## The engine does not show -/

section Stands

variable {σ : Type} {dev : Slave σ} {d : Depths}

/-- The transfer under way needs nothing more from the driver. -/
def Controller.Supplied (c : Controller σ) : Prop :=
  c.transfer.direction = .out ∧ c.fifo.length = c.transfer.left ∨
    c.transfer.direction = .inn ∧ c.transfer.left = 0 ∧ c.fifo = []

/-- The plain controller is what the controller comes to, and the driver is right in what it
knows. -/
structure Stands (dev : Slave σ) (d : Depths) (c : Controller σ) (p : Plain σ) : Prop where
  opWdata : c.opWdata = p.opWdata
  settled : c.settled dev = p.line
  fits : c.fifo.length ≤ d.data
  /-- No byte waits that the transfer has no place for. -/
  owed : c.transfer.direction = .out → c.fifo.length ≤ c.transfer.left
  /-- One operation waits at most, and then the transfer before it can end. -/
  queued : c.ops = [] ∨ ∃ word, c.ops = [word] ∧ c.Supplied
  opEmpty : p.opEmpty → c.ops = []
  dataRoom : p.dataRoom →
    c.ops = [] ∧ c.transfer.direction = .out ∧ c.fifo.length < d.data
  dataHere : p.dataHere → c.ops = [] ∧ c.transfer.direction = .inn ∧ c.fifo ≠ []

theorem Controller.Supplied.fifo_nil {c : Controller σ} (supplied : c.Supplied)
    (finished : c.transfer.left = 0) : c.fifo = [] := by
  rcases supplied with ⟨-, all⟩ | ⟨-, -, none⟩
  · exact List.length_eq_zero_iff.mp (all.trans finished)
  · exact none

theorem settled_of_ops_nil {c : Controller σ} (empty : c.ops = []) :
    c.settled dev = c.shifted dev := by
  rw [Controller.settled, empty, List.foldl_nil]

theorem shifted_out {c : Controller σ} (out : c.transfer.direction = .out) :
    c.shifted dev = ⟨{ c.transfer with left := c.transfer.left - c.fifo.length }, [],
      dev.sendAll c.transfer.speed c.fifo c.slave⟩ := by
  rw [Controller.shifted, out]

theorem shifted_inn {c : Controller σ} (inn : c.transfer.direction = .inn) :
    c.shifted dev = ⟨{ c.transfer with left := 0 },
      c.fifo ++ (dev.receive c.transfer.speed c.transfer.left c.slave).1,
      (dev.receive c.transfer.speed c.transfer.left c.slave).2⟩ := by
  rw [Controller.shifted, inn]

/-- With nothing left to shift and no byte in the queue, the controller has come to what it
comes to. -/
theorem shifted_of_finished {c : Controller σ} (finished : c.transfer.left = 0)
    (empty : c.fifo = []) : c.shifted dev = ⟨c.transfer, [], c.slave⟩ := by
  have same : { c.transfer with left := 0 } = c.transfer := by rw [← finished]
  rw [Controller.shifted, finished, empty]
  cases c.transfer.direction with
  | out => simp only [List.length_nil, Nat.sub_zero, Slave.sendAll_nil, same]
  | inn => simp only [Slave.receive_zero, List.append_nil, same]

/-- The engine takes up the next operation. -/
theorem Stands.tick_begin {c : Controller σ} {p : Plain σ} (now : Stands dev d c p)
    (finished : c.transfer.left = 0) : Stands dev d (tick dev d c) p := by
  rcases now.queued with empty | ⟨word, one, supplied⟩
  · rw [tick, if_pos finished, empty]
    exact now
  have none := supplied.fifo_nil finished
  have busy : ¬ c.ops = [] := by rw [one]; exact List.cons_ne_nil _ _
  have next : tick dev d c = c.beginNext dev word [] := by rw [tick, if_pos finished, one]
  have line : Line.beginOp dev word ⟨c.transfer, [], c.slave⟩ = p.line := by
    rw [← shifted_of_finished finished none, ← now.settled, Controller.settled, one]
    rfl
  have settled : (c.beginNext dev word []).shifted dev = p.line := by
    rw [← line, Line.beginOp, Controller.shifted, Controller.beginNext]
    simp only [none]
    rcases (beginOp dev word c.transfer c.slave).1 with ⟨_ | _, speed, left⟩
    · rfl
    · rfl
  rw [next]
  constructor
  case opWdata => exact now.opWdata
  case settled => rw [settled_of_ops_nil rfl, settled]
  case fits => exact now.fits
  case owed => exact fun _ => by simp [Controller.beginNext, none]
  case queued => exact .inl rfl
  case opEmpty => exact fun _ => rfl
  case dataRoom => exact fun room => absurd (now.dataRoom room).1 busy
  case dataHere => exact fun here => absurd (now.dataHere here).1 busy

/-- The engine shifts a byte out. -/
theorem Stands.tick_out {c : Controller σ} {p : Plain σ} (now : Stands dev d c p)
    (more : c.transfer.left ≠ 0) (out : c.transfer.direction = .out) :
    Stands dev d (tick dev d c) p := by
  cases bytes : c.fifo with
  | nil =>
      rw [tick, if_neg more, out, bytes]
      exact now
  | cons b rest =>
      have next : tick dev d c = c.byteOut dev b rest := by rw [tick, if_neg more, out, bytes]
      have length : c.fifo.length = rest.length + 1 := by rw [bytes, List.length_cons]
      have fits := now.fits
      have owed := now.owed out
      have same : (c.byteOut dev b rest).shifted dev = c.shifted dev := by
        rw [shifted_out out, shifted_out (c := c.byteOut dev b rest) out, bytes]
        simp only [Controller.byteOut, List.length_cons, Slave.sendAll_cons, Nat.sub_sub,
          Nat.add_comm 1]
      rw [next]
      constructor
      case opWdata => exact now.opWdata
      case settled => rw [← now.settled, Controller.settled, Controller.settled, same]; rfl
      case fits => show rest.length ≤ d.data; omega
      case owed => intro _; show rest.length ≤ c.transfer.left - 1; omega
      case queued =>
        apply now.queued.imp_right
        rintro ⟨word, one, ⟨-, all⟩ | ⟨inn, -⟩⟩
        · refine ⟨word, one, .inl ⟨out, ?_⟩⟩
          show rest.length = c.transfer.left - 1
          omega
        · cases out.symm.trans inn
      case opEmpty => exact now.opEmpty
      case dataRoom =>
        intro room
        obtain ⟨empty, -, below⟩ := now.dataRoom room
        refine ⟨empty, out, ?_⟩
        show rest.length < d.data
        omega
      case dataHere =>
        intro here
        cases out.symm.trans (now.dataHere here).2.1

/-- The engine shifts a byte in. -/
theorem Stands.tick_inn {c : Controller σ} {p : Plain σ} (now : Stands dev d c p)
    (more : c.transfer.left ≠ 0) (inn : c.transfer.direction = .inn) :
    Stands dev d (tick dev d c) p := by
  by_cases room : c.fifo.length < d.data
  · have next : tick dev d c = c.byteIn dev := by
      rw [tick, if_neg more, inn]
      exact if_pos room
    have same : (c.byteIn dev).shifted dev = c.shifted dev := by
      obtain ⟨n, left⟩ := Nat.exists_eq_succ_of_ne_zero more
      rw [shifted_inn inn, shifted_inn (c := c.byteIn dev) inn, left, Slave.receive_succ]
      simp [Controller.byteIn, left]
    rw [next]
    constructor
    case opWdata => exact now.opWdata
    case settled => rw [← now.settled, Controller.settled, Controller.settled, same]; rfl
    case fits => show (c.fifo ++ [_]).length ≤ d.data; rw [List.length_append]; exact room
    case owed => intro out; cases inn.symm.trans out
    case queued =>
      apply now.queued.imp_right
      rintro ⟨word, one, ⟨out, -⟩ | ⟨-, finished, -⟩⟩
      · cases inn.symm.trans out
      · exact absurd finished more
    case opEmpty => exact now.opEmpty
    case dataRoom => intro here; cases inn.symm.trans (now.dataRoom here).2.1
    case dataHere =>
      intro here
      exact ⟨(now.dataHere here).1, inn,
        List.append_ne_nil_of_right_ne_nil _ (List.cons_ne_nil _ _)⟩
  · have same : tick dev d c = c := by
      rw [tick, if_neg more, inn]
      exact if_neg room
    rw [same]
    exact now

theorem Stands.tick {c : Controller σ} {p : Plain σ} (now : Stands dev d c p) :
    Stands dev d (tick dev d c) p := by
  by_cases finished : c.transfer.left = 0
  · exact now.tick_begin finished
  · cases direction : c.transfer.direction with
    | out => exact now.tick_out finished direction
    | inn => exact now.tick_inn finished direction

/-! ## The accesses -/

theorem Stands.direction {c : Controller σ} {p : Plain σ} (now : Stands dev d c p)
    (empty : c.ops = []) : c.transfer.direction = p.line.transfer.direction := by
  rw [← now.settled, settled_of_ops_nil empty]
  cases direction : c.transfer.direction with
  | out => rw [shifted_out direction, direction]
  | inn => rw [shifted_inn direction, direction]

/-- What came in is what the transfer under way shifts in. -/
theorem Stands.inn_of_received {c : Controller σ} {p : Plain σ} (now : Stands dev d c p)
    (empty : c.ops = []) (some : p.line.received ≠ []) : c.transfer.direction = .inn := by
  rw [← now.settled, settled_of_ops_nil empty] at some
  cases direction : c.transfer.direction with
  | out => exact absurd (by rw [shifted_out direction]) some
  | inn => rfl

/-- When the driver has written all bytes and read all bytes, the transfer can end. -/
theorem Stands.supplied {c : Controller σ} {p : Plain σ} (now : Stands dev d c p)
    (empty : c.ops = []) (written : p.line.transfer.left = 0) (read : p.line.received = []) :
    c.Supplied := by
  rw [← now.settled, settled_of_ops_nil empty] at written read
  cases direction : c.transfer.direction with
  | out =>
      have owed := now.owed direction
      rw [shifted_out direction] at written
      exact .inl ⟨direction, Nat.le_antisymm owed (Nat.le_of_sub_eq_zero written)⟩
  | inn =>
      rw [shifted_inn direction] at read
      obtain ⟨none, rest⟩ := List.append_eq_nil_iff.mp read
      rw [← List.length_eq_zero_iff, Slave.length_receive] at rest
      exact .inr ⟨direction, rest, none⟩

theorem Stands.writeOpWr {c : Controller σ} {p : Plain σ} (now : Stands dev d c p)
    (known : p.opEmpty) (written : p.line.transfer.left = 0) (read : p.line.received = []) :
    Stands dev d (controllerMachine d .writeOpWr c).2 (plainMachine dev .writeOpWr p).2 := by
  have empty := now.opEmpty known
  have queue : (controllerMachine d .writeOpWr c).2 = { c with ops := [c.opWdata] } := by
    simp only [controllerMachine, empty, List.length_nil, if_pos d.ops_pos, List.nil_append]
  rw [queue]
  constructor
  case opWdata => exact now.opWdata
  case settled =>
    show Line.beginOp dev c.opWdata (c.shifted dev) = Line.beginOp dev p.opWdata p.line
    rw [now.opWdata, ← now.settled, settled_of_ops_nil empty]
  case fits => exact now.fits
  case owed => exact now.owed
  case queued => exact .inr ⟨c.opWdata, rfl, now.supplied empty written read⟩
  case opEmpty => exact fun h => absurd h Bool.false_ne_true
  case dataRoom => exact fun h => absurd h Bool.false_ne_true
  case dataHere => exact fun h => absurd h Bool.false_ne_true

theorem Stands.writeDataWdata {c : Controller σ} {p : Plain σ} (now : Stands dev d c p)
    (data : UInt8) (known : p.dataRoom) (wanted : 0 < p.line.transfer.left) :
    Stands dev d (controllerMachine d (.writeDataWdata data) c).2
      (plainMachine dev (.writeDataWdata data) p).2 := by
  obtain ⟨empty, out, room⟩ := now.dataRoom known
  have queue : (controllerMachine d (.writeDataWdata data) c).2 =
      { c with fifo := c.fifo ++ [data] } := by
    simp only [controllerMachine, if_pos room]
  have line : p.line = c.shifted dev := by rw [← now.settled, settled_of_ops_nil empty]
  rw [shifted_out out] at line
  have owed : c.fifo.length < c.transfer.left := by
    rw [line] at wanted
    exact Nat.lt_of_sub_pos wanted
  rw [queue]
  constructor
  case opWdata => exact now.opWdata
  case settled =>
    rw [settled_of_ops_nil (by exact empty), shifted_out (by exact out)]
    simp only [plainMachine, line, List.length_append, List.length_singleton, Nat.sub_sub,
      Slave.sendAll_append, Slave.sendAll_cons, Slave.sendAll_nil]
  case fits => show (c.fifo ++ [data]).length ≤ d.data; rw [List.length_append]; exact room
  case owed => intro _; show (c.fifo ++ [data]).length ≤ _; rw [List.length_append]; exact owed
  case queued => exact .inl empty
  case opEmpty => exact fun _ => empty
  case dataRoom => exact fun h => absurd h Bool.false_ne_true
  case dataHere => intro here; cases out.symm.trans (now.dataHere here).2.1

theorem Stands.received {c : Controller σ} {p : Plain σ} (now : Stands dev d c p)
    (known : p.dataHere) : ∃ b rest, c.fifo = b :: rest ∧ p.line.received =
      b :: (rest ++ (dev.receive c.transfer.speed c.transfer.left c.slave).1) := by
  obtain ⟨empty, inn, some⟩ := now.dataHere known
  obtain ⟨b, rest, bytes⟩ := List.exists_cons_of_ne_nil some
  refine ⟨b, rest, bytes, ?_⟩
  rw [← now.settled, settled_of_ops_nil empty, shifted_inn inn, bytes, List.cons_append]

theorem Stands.writeDataRd {c : Controller σ} {p : Plain σ} (now : Stands dev d c p)
    (known : p.dataHere) :
    Stands dev d (controllerMachine d .writeDataRd c).2 (plainMachine dev .writeDataRd p).2 := by
  obtain ⟨empty, inn, -⟩ := now.dataHere known
  obtain ⟨b, rest, bytes, received⟩ := now.received known
  have line : p.line = c.shifted dev := by rw [← now.settled, settled_of_ops_nil empty]
  have fits := now.fits
  constructor
  case opWdata => exact now.opWdata
  case settled =>
    rw [settled_of_ops_nil (by exact empty), shifted_inn (by exact inn)]
    simp only [plainMachine, controllerMachine, bytes, received, List.tail_cons]
    rw [line, shifted_inn inn]
  case fits => show c.fifo.tail.length ≤ d.data; rw [List.length_tail]; omega
  case owed => intro out; cases inn.symm.trans out
  case queued => exact .inl empty
  case opEmpty => exact fun _ => empty
  case dataRoom => intro room; cases inn.symm.trans (now.dataRoom room).2.1
  case dataHere => exact fun h => absurd h Bool.false_ne_true

/-- A call is answered as by the plain controller. -/
theorem Stands.call {op : Access} {c : Controller σ} {p : Plain σ} (now : Stands dev d c p)
    (meets : allowed op p) (isReady : ready d op c) :
    (controllerMachine d op c).1 = (plainMachine dev op p).1 ∧
      Stands dev d (controllerMachine d op c).2 (plainMachine dev op p).2 := by
  cases op with
  | writeOpWdata word => exact ⟨rfl, { now with opWdata := rfl }⟩
  | awaitOpRoom => exact ⟨rfl, now⟩
  | writeOpWr => exact ⟨rfl, now.writeOpWr meets.1 meets.2.1 meets.2.2⟩
  | awaitOpEmpty => exact ⟨rfl, { now with opEmpty := fun _ => isReady }⟩
  | awaitDataRoom =>
      have empty := now.opEmpty meets.1
      have out := (now.direction empty).trans meets.2
      exact ⟨rfl, { now with dataRoom := fun _ => ⟨empty, out, isReady⟩ }⟩
  | writeDataWdata data => exact ⟨rfl, now.writeDataWdata data meets.1 meets.2⟩
  | awaitData =>
      have empty := now.opEmpty meets.1
      have inn := now.inn_of_received empty meets.2
      exact ⟨rfl, { now with dataHere := fun _ => ⟨empty, inn, isReady⟩ }⟩
  | readDataRdata =>
      obtain ⟨b, rest, bytes, received⟩ := now.received meets
      apply And.intro _ now
      show c.fifo.headD 0 = p.line.received.headD 0
      rw [bytes, received]
      rfl
  | writeDataRd => exact ⟨rfl, now.writeDataRd meets⟩

/-! ## The polling loops end -/

theorem tick_ops_nil (dev : Slave σ) (d : Depths) {c : Controller σ} (empty : c.ops = []) :
    (tick dev d c).ops = [] := by
  rw [tick]
  split
  · rw [empty]
    exact empty
  · cases c.transfer.direction with
    | out =>
        cases c.fifo with
        | nil => exact empty
        | cons b rest => exact empty
    | inn =>
        show (if _ then _ else _ : Controller σ).ops = []
        split <;> exact empty

theorem iterate_tick_ops_nil (dev : Slave σ) (d : Depths) {c : Controller σ} (empty : c.ops = [])
    (k : ℕ) : ((tick dev d)^[k] c).ops = [] := by
  induction k with
  | zero => exact empty
  | succ k ih =>
      rw [Function.iterate_succ_apply']
      exact tick_ops_nil dev d ih

/-- The engine ends a transfer that has all its bytes, and takes up the operation behind it. -/
theorem Controller.Supplied.drains {c : Controller σ} {word : ℕ} (supplied : c.Supplied)
    (one : c.ops = [word]) : ∃ n, ((tick dev d)^[n] c).ops = [] := by
  cases left : c.transfer.left with
  | zero =>
      apply Exists.intro 1
      rw [Function.iterate_one, tick, if_pos left, one]
      rfl
  | succ n =>
      rcases supplied with ⟨out, all⟩ | ⟨-, finished, -⟩
      · obtain ⟨b, rest, bytes⟩ := List.exists_cons_of_length_eq_add_one (all.trans left)
        have next : Spi.tick dev d c = c.byteOut dev b rest := by
          rw [Spi.tick, if_neg (by omega), out, bytes]
        have shorter : rest.length = c.transfer.left - 1 := by
          rw [bytes, List.length_cons] at all
          omega
        have decreases : (c.byteOut dev b rest).transfer.left < c.transfer.left := by
          show c.transfer.left - 1 < c.transfer.left
          omega
        obtain ⟨m, drained⟩ := Supplied.drains (c := c.byteOut dev b rest) (.inl ⟨out, shorter⟩) one
        apply Exists.intro (m + 1)
        rw [Function.iterate_succ_apply, next]
        exact drained
      · exact absurd finished (by omega)
  termination_by c.transfer.left

theorem Stands.drains {c : Controller σ} {p : Plain σ} (now : Stands dev d c p) :
    ∃ n, ∀ k ≥ n, ((Spi.tick dev d)^[k] c).ops = [] := by
  rcases now.queued with empty | ⟨word, one, supplied⟩
  · exact ⟨0, fun k _ => iterate_tick_ops_nil dev d empty k⟩
  · obtain ⟨n, drained⟩ := supplied.drains one
    apply Exists.intro n
    intro k later
    rw [← Nat.sub_add_cancel later, Function.iterate_add_apply]
    exact iterate_tick_ops_nil dev d drained _

/-- Sending, one step makes room if there was none. -/
theorem Stands.room_after_tick {c : Controller σ} {p : Plain σ} (now : Stands dev d c p)
    (out : c.transfer.direction = .out) (empty : c.ops = []) :
    (Spi.tick dev d c).fifo.length < d.data := by
  have fits := now.fits
  have owed := now.owed out
  have depth := d.data_pos
  rw [Spi.tick]
  split
  · rw [empty]
    show c.fifo.length < d.data
    omega
  · rw [out]
    cases bytes : c.fifo with
    | nil =>
        show c.fifo.length < d.data
        rw [bytes]
        exact depth
    | cons b rest =>
        rw [bytes, List.length_cons] at fits
        exact fits

/-- Receiving, one step brings a byte if there was none. -/
theorem Stands.data_after_tick {c : Controller σ} {p : Plain σ} (now : Stands dev d c p)
    (some : p.line.received ≠ []) (empty : c.ops = []) : (Spi.tick dev d c).fifo ≠ [] := by
  have inn := now.inn_of_received empty some
  have depth := d.data_pos
  rw [← now.settled, settled_of_ops_nil empty, shifted_inn inn] at some
  rw [Spi.tick]
  split
  · next finished =>
    rw [empty]
    rw [finished] at some
    simpa using some
  · rw [inn]
    show (if _ then _ else _ : Controller σ).fifo ≠ []
    split
    · exact List.append_ne_nil_of_right_ne_nil _ (List.cons_ne_nil _ _)
    · next full =>
      intro none
      rw [none] at full
      exact full depth

/-- The plain controller stands for the one with the queues. -/
theorem settles (dev : Slave σ) (d : Depths) :
    Settles (Spi.tick dev d) (ready d) (controllerMachine d) (plainMachine dev) allowed
      (Stands dev d) where
  unseen now := now.tick
  call now meets isReady := now.call meets isReady
  progress := by
    intro op c p now meets
    have later (k : ℕ) : Stands dev d ((Spi.tick dev d)^[k] c) p := by
      induction k with
      | zero => exact now
      | succ k ih =>
          rw [Function.iterate_succ_apply']
          exact ih.tick
    cases op with
    | awaitOpRoom =>
        apply Exists.intro 0
        intro k _
        show ((Spi.tick dev d)^[k] c).ops.length < d.ops
        rw [iterate_tick_ops_nil dev d (now.opEmpty meets)]
        exact d.ops_pos
    | awaitOpEmpty => exact now.drains
    | awaitDataRoom =>
        apply Exists.intro 1
        intro k some
        obtain ⟨j, rfl⟩ := Nat.exists_eq_add_of_le' some
        have empty := iterate_tick_ops_nil dev d (now.opEmpty meets.1) j
        rw [Function.iterate_succ_apply']
        exact (later j).room_after_tick (((later j).direction empty).trans meets.2) empty
    | awaitData =>
        apply Exists.intro 1
        intro k some
        obtain ⟨j, rfl⟩ := Nat.exists_eq_add_of_le' some
        have empty := iterate_tick_ops_nil dev d (now.opEmpty meets.1) j
        rw [Function.iterate_succ_apply']
        exact (later j).data_after_tick meets.2 empty
    | writeOpWdata word => exact ⟨0, fun _ _ => trivial⟩
    | writeOpWr => exact ⟨0, fun _ _ => trivial⟩
    | writeDataWdata data => exact ⟨0, fun _ _ => trivial⟩
    | readDataRdata => exact ⟨0, fun _ _ => trivial⟩
    | writeDataRd => exact ⟨0, fun _ _ => trivial⟩

end Stands

/-! ## The functions on the plain controller -/

section Functions

variable {σ : Type} (dev : Slave σ) {p : Plain σ} {s : σ}

/-- Nothing is to be written or read. -/
structure Idle (p : Plain σ) (s : σ) : Prop where
  left : p.line.transfer.left = 0
  received : p.line.received = []
  slave : p.line.slave = s
  opEmpty : p.opEmpty

/-- That many bytes are to be written. -/
structure Sending (p : Plain σ) (speed : Speed) (left : ℕ) (s : σ) : Prop where
  transfer : p.line.transfer = ⟨.out, speed, left⟩
  received : p.line.received = []
  slave : p.line.slave = s
  opEmpty : p.opEmpty

/-- These bytes are to be read. -/
structure Receiving (p : Plain σ) (bytes : List UInt8) (s : σ) : Prop where
  left : p.line.transfer.left = 0
  received : p.line.received = bytes
  slave : p.line.slave = s
  opEmpty : p.opEmpty

theorem Sending.idle {speed : Speed} (sent : Sending p speed 0 s) : Idle p s :=
  ⟨by rw [sent.transfer], sent.received, sent.slave, sent.opEmpty⟩

theorem Receiving.idle (read : Receiving p [] s) : Idle p s :=
  ⟨read.left, read.received, read.slave, read.opEmpty⟩

theorem Idle.line (idle : Idle p s) : p.line = ⟨p.line.transfer, [], s⟩ := by
  rw [← idle.received, ← idle.slave]

theorem opWord_div {opCmd opLen : ℕ} (cmd : opCmd < 32) : opWord opCmd opLen / 512 = opCmd := by
  rw [opWord_eq]
  omega

theorem opWord_mod {opCmd opLen : ℕ} (len : opLen ≤ 511) : opWord opCmd opLen % 512 = opLen := by
  rw [opWord_eq]
  omega

theorem performs_setOpfifo (idle : Idle p s) (opCmd opLen : ℕ) :
    ∃ p', Performs (plainMachine dev) allowed (setOpfifo opCmd opLen) p () p' ∧
      p'.line = Line.beginOp dev (opWord opCmd opLen) ⟨p.line.transfer, [], s⟩ ∧ p'.opEmpty := by
  rw [← idle.line]
  exact ⟨_, Program.performs_call trivial (Program.performs_call idle.opEmpty
    (Program.performs_call ⟨idle.opEmpty, idle.left, idle.received⟩
      (Program.performs_call trivial (Program.performs_pure _ _)))), rfl, rfl⟩

/-- An operation without data. -/
theorem performs_command (idle : Idle p s) {opCmd opLen : ℕ} {s' : σ}
    (does : ∀ transfer, beginOp dev (opWord opCmd opLen) transfer s = (transfer, s')) :
    ∃ p', Performs (plainMachine dev) allowed (setOpfifo opCmd opLen) p () p' ∧ Idle p' s' := by
  obtain ⟨p', performs, line, empty⟩ := performs_setOpfifo dev idle opCmd opLen
  refine ⟨p', performs, ?_⟩
  have left := idle.left
  rw [Line.beginOp, does] at line
  cases direction : p.line.transfer.direction with
  | out =>
      simp only [direction] at line
      exact ⟨by rw [line]; exact left, by rw [line], by rw [line], empty⟩
  | inn =>
      simp only [direction, left, Slave.receive_zero, List.append_nil] at line
      exact ⟨by rw [line], by rw [line], by rw [line], empty⟩

theorem performs_setOpfifo_out (idle : Idle p s) (speed : Speed) {len : ℕ} (short : len ≤ 511) :
    ∃ p', Performs (plainMachine dev) allowed (setOpfifo (outCmd speed) len) p () p' ∧
      Sending p' speed len s := by
  obtain ⟨p', performs, line, empty⟩ := performs_setOpfifo dev idle (outCmd speed) len
  refine ⟨p', performs, ?_⟩
  have begun (transfer : Transfer) : beginOp dev (opWord (outCmd speed) len) transfer s =
      (⟨.out, speed, len⟩, s) := by
    cases speed <;> simp [beginOp, outCmd, opWord_div, opWord_mod short]
  rw [Line.beginOp, begun] at line
  exact ⟨by rw [line], by rw [line], by rw [line], empty⟩

theorem performs_setOpfifo_in (idle : Idle p s) (speed : Speed) {len : ℕ} (short : len ≤ 511) :
    ∃ p', Performs (plainMachine dev) allowed (setOpfifo (inCmd speed) len) p () p' ∧
      Receiving p' (dev.receive speed len s).1 (dev.receive speed len s).2 := by
  obtain ⟨p', performs, line, empty⟩ := performs_setOpfifo dev idle (inCmd speed) len
  refine ⟨p', performs, ?_⟩
  have begun (transfer : Transfer) : beginOp dev (opWord (inCmd speed) len) transfer s =
      (⟨.inn, speed, len⟩, s) := by
    cases speed <;> simp [beginOp, inCmd, opWord_div, opWord_mod short]
  rw [Line.beginOp, begun] at line
  exact ⟨by rw [line], by rw [line]; rfl, by rw [line], empty⟩

theorem performs_writeDataFifo {speed : Speed} {bytes : List UInt8} {more : ℕ}
    (sending : Sending p speed (bytes.length + more) s) :
    ∃ p', Performs (plainMachine dev) allowed (writeDataFifo bytes) p () p' ∧
      Sending p' speed more (dev.sendAll speed bytes s) := by
  induction bytes generalizing p s with
  | nil => exact ⟨p, Program.performs_pure _ _, by simpa using sending⟩
  | cons b rest ih =>
      have out : p.line.transfer.direction = .out := by rw [sending.transfer]
      have wanted : 0 < p.line.transfer.left := by
        rw [sending.transfer, List.length_cons]
        exact Nat.lt_add_right more (Nat.succ_pos _)
      let written : Plain σ := ⟨p.opWdata, { p.line with
        transfer := { p.line.transfer with left := p.line.transfer.left - 1 }
        slave := dev.shiftOut p.line.transfer.speed b p.line.slave }, p.opEmpty, true, p.dataHere⟩
      have next : Sending written speed (rest.length + more) (dev.shiftOut speed b s) := by
        constructor
        case transfer =>
          show Transfer.mk _ _ (p.line.transfer.left - 1) = _
          rw [sending.transfer, List.length_cons, Nat.add_right_comm, Nat.add_sub_cancel]
        case received => exact sending.received
        case slave =>
          show dev.shiftOut p.line.transfer.speed b p.line.slave = _
          rw [sending.transfer, sending.slave]
        case opEmpty => exact sending.opEmpty
      obtain ⟨p', performs, done⟩ := ih next
      exact ⟨p', Program.performs_call ⟨sending.opEmpty, out⟩ (Program.performs_call ⟨rfl, wanted⟩
        (Program.performs_call ⟨sending.opEmpty, out⟩ performs)), done⟩

theorem performs_readDataFifo {bytes more : List UInt8}
    (receiving : Receiving p (bytes ++ more) s) :
    ∃ p', Performs (plainMachine dev) allowed (readDataFifo bytes.length) p bytes p' ∧
      Receiving p' more s := by
  induction bytes generalizing p with
  | nil => exact ⟨p, Program.performs_pure _ _, receiving⟩
  | cons b rest ih =>
      have some : p.line.received ≠ [] := by
        rw [receiving.received]
        exact List.cons_ne_nil _ _
      let read : Plain σ := ⟨p.opWdata, { p.line with received := p.line.received.tail },
        p.opEmpty, p.dataRoom, false⟩
      have next : Receiving read (rest ++ more) s := by
        constructor
        case left => exact receiving.left
        case received =>
          show p.line.received.tail = _
          rw [receiving.received]
          rfl
        case slave => exact receiving.slave
        case opEmpty => exact receiving.opEmpty
      obtain ⟨p', performs, done⟩ := ih next
      have first : p.line.received.headD 0 = b := by
        rw [receiving.received]
        rfl
      have collected : Performs (plainMachine dev) allowed
          (readDataFifo rest.length >>= fun rest => pure (p.line.received.headD 0 :: rest))
          read (b :: rest) p' := by
        rw [first]
        exact performs.bind (Program.performs_pure _ _)
      exact ⟨p', Program.performs_call ⟨receiving.opEmpty, some⟩ (Program.performs_call rfl
        (Program.performs_call rfl collected)), done⟩

theorem performs_writeRounds (idle : Idle p s) (speed : Speed) (bytes : List UInt8) (n : ℕ)
    (inside : n ≤ bytes.length) :
    ∃ p', Performs (plainMachine dev) allowed (writeRounds bytes (outCmd speed) n) p () p' ∧
      Idle p' (dev.sendAll speed (bytes.drop (bytes.length - n)) s) := by
  induction n using Nat.strong_induction_on generalizing p s with
  | _ n ih =>
  cases n with
  | zero =>
      rw [writeRounds, Nat.sub_zero, List.drop_length]
      exact ⟨p, Program.performs_pure _ _, idle⟩
  | succ n =>
      have atMost := roundLen_le (n + 1)
      have some := roundLen_pos (Nat.succ_ne_zero n)
      generalize size : roundLen (n + 1) = len at atMost some
      have short : len ≤ 511 := by
        rw [← size]
        exact roundLen_le_max _
      -- this round sends the next bytes, the later rounds the ones behind them
      have split : bytes.drop (bytes.length - (n + 1)) =
          (bytes.drop (bytes.length - (n + 1))).take len ++
            bytes.drop (bytes.length - (n + 1 - len)) := by
        conv_lhs => rw [← List.take_append_drop len (bytes.drop (bytes.length - (n + 1)))]
        rw [List.drop_drop]
        congr 3
        omega
      have length : ((bytes.drop (bytes.length - (n + 1))).take len).length = len := by
        rw [List.length_take, List.length_drop]
        omega
      obtain ⟨p₁, begun, sending⟩ := performs_setOpfifo_out dev idle speed short
      rw [← Nat.add_zero len, ← length] at sending
      obtain ⟨p₂, written, sent⟩ := performs_writeDataFifo dev sending
      obtain ⟨p₃, rest, done⟩ := ih (n + 1 - len) (by omega) sent.idle (by omega)
      rw [writeRounds, size]
      refine ⟨p₃, begun.bind (written.bind rest), ?_⟩
      rw [split, Slave.sendAll_append]
      exact done

theorem performs_readRounds (idle : Idle p s) (speed : Speed) (n : ℕ) :
    ∃ p', Performs (plainMachine dev) allowed (readRounds (inCmd speed) n) p
      (dev.receive speed n s).1 p' ∧ Idle p' (dev.receive speed n s).2 := by
  induction n using Nat.strong_induction_on generalizing p s with
  | _ n ih =>
  cases n with
  | zero =>
      rw [readRounds]
      exact ⟨p, Program.performs_pure _ _, idle⟩
  | succ n =>
      have atMost := roundLen_le (n + 1)
      have some := roundLen_pos (Nat.succ_ne_zero n)
      generalize size : roundLen (n + 1) = len at atMost some
      have short : len ≤ 511 := by
        rw [← size]
        exact roundLen_le_max _
      have split : n + 1 = len + (n + 1 - len) := by omega
      obtain ⟨p₁, begun, receiving⟩ := performs_setOpfifo_in dev idle speed short
      rw [← List.append_nil (dev.receive speed len s).1] at receiving
      obtain ⟨p₂, read, received⟩ := performs_readDataFifo dev receiving
      rw [Slave.length_receive] at read
      obtain ⟨p₃, rest, done⟩ := ih (n + 1 - len) (by omega) received.idle
      rw [readRounds, size]
      rw [split, Slave.receive_add, ← split]
      exact ⟨p₃, begun.bind (read.bind (rest.bind (Program.performs_pure _ _))), done⟩

/-- Every function does to the chip what the bus without queues does. -/
theorem performs_busBody (idle : Idle p s) (op : BusOp) :
    ∃ p', Performs (plainMachine dev) allowed (busBody op) p (busMachine dev op s).1 p' ∧
      Idle p' (busMachine dev op s).2 := by
  cases op with
  | writeOneByte data =>
      obtain ⟨p₁, begun, sending⟩ :=
        performs_setOpfifo_out dev idle .single (show 1 ≤ 511 by decide)
      have one : Sending p₁ .single ([data].length + 0) s := sending
      obtain ⟨p₂, written, sent⟩ := performs_writeDataFifo dev one
      exact ⟨p₂, begun.bind written, sent.idle⟩
  | writeNByte bytes speed =>
      have all := performs_writeRounds dev idle speed bytes bytes.length le_rfl
      rw [Nat.sub_self, List.drop_zero] at all
      exact all
  | readNByte len speed => exact performs_readRounds dev idle speed len
  | chipSelectLow =>
      have selects (s : σ) (transfer : Transfer) :
          beginOp dev (opWord 0x01 1) transfer s = (transfer, dev.select s) := by
        simp [beginOp, opWord]
      obtain ⟨p₁, first, idle₁⟩ := performs_command dev idle (selects s)
      obtain ⟨p₂, second, idle₂⟩ := performs_command dev idle₁ (selects _)
      exact ⟨p₂, first.bind second, idle₂⟩
  | chipSelectHigh =>
      have deselects (s : σ) (transfer : Transfer) :
          beginOp dev (opWord 0x00 1) transfer s = (transfer, dev.deselect s) := by
        simp [beginOp, opWord]
      have clocks (s : σ) (transfer : Transfer) :
          beginOp dev (opWord 0x02 5) transfer s = (transfer, dev.clock 5 s) := by
        simp [beginOp, opWord]
      obtain ⟨p₁, first, idle₁⟩ := performs_command dev idle (deselects s)
      obtain ⟨p₂, second, idle₂⟩ := performs_command dev idle₁ (clocks _)
      exact ⟨p₂, first.bind second, idle₂⟩

end Functions

/-! ## The bus -/

section Bus

variable {σ α : Type} {dev : Slave σ} {d : Depths}

/-- A quiet controller is its own plain controller. -/
theorem Quiet.stands {c : Controller σ} (quiet : Quiet c) (dev : Slave σ) (d : Depths) :
    ∃ p, Stands dev d c p ∧ Idle p c.slave := by
  refine ⟨⟨c.opWdata, ⟨c.transfer, [], c.slave⟩, true, false, false⟩, ?_, ?_⟩
  · constructor
    case opWdata => rfl
    case settled => rw [settled_of_ops_nil quiet.ops, shifted_of_finished quiet.left quiet.fifo]
    case fits => simp [quiet.fifo]
    case owed => simp [quiet.fifo]
    case queued => exact .inl quiet.ops
    case opEmpty => exact fun _ => quiet.ops
    case dataRoom => exact fun h => absurd h Bool.false_ne_true
    case dataHere => exact fun h => absurd h Bool.false_ne_true
  · exact ⟨quiet.left, rfl, rfl, rfl⟩

theorem Quiet.tick {c : Controller σ} (quiet : Quiet c) : Spi.tick dev d c = c := by
  rw [Spi.tick, if_pos quiet.left, quiet.ops]

theorem Quiet.iterate {c : Controller σ} (quiet : Quiet c) (k : ℕ) :
    (Spi.tick dev d)^[k] c = c := Function.iterate_fixed quiet.tick k

/-- The engine ends the last transfer. -/
theorem Controller.Supplied.quiets (dev : Slave σ) (d : Depths) {c : Controller σ}
    (supplied : c.Supplied) (empty : c.ops = []) : ∃ n, Quiet ((Spi.tick dev d)^[n] c) := by
  cases left : c.transfer.left with
  | zero => exact ⟨0, empty, left, supplied.fifo_nil left⟩
  | succ n =>
      rcases supplied with ⟨out, all⟩ | ⟨-, finished, -⟩
      · obtain ⟨b, rest, bytes⟩ := List.exists_cons_of_length_eq_add_one (all.trans left)
        have next : Spi.tick dev d c = c.byteOut dev b rest := by
          rw [Spi.tick, if_neg (by omega), out, bytes]
        have shorter : rest.length = c.transfer.left - 1 := by
          rw [bytes, List.length_cons] at all
          omega
        have decreases : (c.byteOut dev b rest).transfer.left < c.transfer.left := by
          show c.transfer.left - 1 < c.transfer.left
          omega
        obtain ⟨m, quiet⟩ :=
          Supplied.quiets dev d (c := c.byteOut dev b rest) (.inl ⟨out, shorter⟩) empty
        apply Exists.intro (m + 1)
        rw [Function.iterate_succ_apply, next]
        exact quiet
      · exact absurd finished (by omega)
  termination_by c.transfer.left

/-- When the driver has nothing to write or read, the controller comes to rest. -/
theorem Stands.quiets {c : Controller σ} {p : Plain σ} {s : σ} (now : Stands dev d c p)
    (idle : Idle p s) :
    ∃ n, ∀ k ≥ n, Quiet ((Spi.tick dev d)^[k] c) ∧ ((Spi.tick dev d)^[k] c).slave = s := by
  obtain ⟨n, drained⟩ := now.drains
  have later := (settles dev d).ticks n now
  obtain ⟨m, quiet⟩ := (later.supplied (drained n le_rfl) idle.left idle.received).quiets
    dev d (drained n le_rfl)
  have rest := (settles dev d).ticks m later
  apply Exists.intro (m + n)
  intro k after
  rw [← Function.iterate_add_apply] at quiet rest
  rw [← Nat.sub_add_cancel after, Function.iterate_add_apply, quiet.iterate]
  apply And.intro quiet
  rw [← idle.slave, ← rest.settled, settled_of_ops_nil quiet.ops,
    shifted_of_finished quiet.left quiet.fifo]

/-- At any pace a program over the bus gets the answers of the bus without queues, and leaves
the controller with what stands for an idle bus. -/
theorem paced_expand {c : Controller σ} (quiet : Quiet c) {m : Program BusOp BusResp α} {a : α}
    {s' : σ} (run : exec (busMachine dev) m c.slave = some (a, s')) :
    ∃ p', Idle p' s' ∧
      Served (Spi.tick dev d) (ready d) (controllerMachine d) (expand busBody m) c ∧
      wp (paced (Spi.tick dev d) (ready d) (controllerMachine d)) (expand busBody m)
        (fun a' c' => a' = a ∧ Stands dev d c' p') c := by
  obtain ⟨p, stands, idle⟩ := quiet.stands dev d
  obtain ⟨p', performs, idle'⟩ := Program.performs_expand (N := plainMachine dev)
    (M := busMachine dev) (fun s p => Idle p s)
    (fun op s p idle => performs_busBody dev idle op) idle run
  exact ⟨p', idle', (settles dev d).served stands performs,
    (settles dev d).wp_paced stands performs⟩

/-- The controller comes to rest, with the chip so. -/
def Rests (dev : Slave σ) (d : Depths) (c : Controller σ) (s : σ) : Prop :=
  ∃ n, ∀ k ≥ n, Quiet ((Spi.tick dev d)^[k] c) ∧ ((Spi.tick dev d)^[k] c).slave = s

/-- What is shown of the answer and of a controller that comes to rest, holds at any pace. -/
theorem paced_of_exec {c : Controller σ} (quiet : Quiet c) {m : Program BusOp BusResp α} {a : α}
    {s' : σ} (run : exec (busMachine dev) m c.slave = some (a, s'))
    {post : α → Controller σ → Prop} (shown : ∀ c', Rests dev d c' s' → post a c') :
    Served (Spi.tick dev d) (ready d) (controllerMachine d) (expand busBody m) c ∧
      wp (paced (Spi.tick dev d) (ready d) (controllerMachine d)) (expand busBody m) post c := by
  obtain ⟨p', idle, served, runs⟩ := paced_expand (d := d) quiet run
  apply And.intro served
  apply Program.wp_mono _ runs
  rintro a' c' ⟨rfl, stands⟩
  exact shown c' (stands.quiets idle)

/-- However deep the queues are and however the engine keeps pace with the driver, every
program over the functions of the controller comes to its end, with the bytes of the bus
without queues, and the controller comes to rest with the chip as that bus leaves it. -/
theorem bus_at_any_pace {c : Controller σ} (quiet : Quiet c) {m : Program BusOp BusResp α}
    {a : α} {s' : σ} (run : exec (busMachine dev) m c.slave = some (a, s')) :
    Served (Spi.tick dev d) (ready d) (controllerMachine d) (expand busBody m) c ∧
      wp (paced (Spi.tick dev d) (ready d) (controllerMachine d)) (expand busBody m)
        (fun a' c' => a' = a ∧ Rests dev d c' s') c :=
  paced_of_exec quiet run fun _ rests => ⟨rfl, rests⟩

end Bus

/-- A chip that answers with what was sent to it, the last byte first. -/
def stackChip : Slave (List UInt8) where
  select s := s
  deselect s := s
  clock _ s := s
  shiftOut _ b s := b :: s
  shiftIn _ s := (s.headD 0xff, s.tail)

/-- Queues of one place each, the narrowest there are. -/
def narrow : Depths := ⟨1, 1, Nat.one_pos, Nat.one_pos⟩

theorem bus_at_any_pace_stack :
    Served (tick stackChip narrow) (ready narrow) (controllerMachine narrow)
      (expand busBody (do
        let _ ← perform .chipSelectLow
        let _ ← perform (.writeNByte [1, 2, 3] .quad)
        let bytes ← perform (.readNByte 2 .single)
        let _ ← perform .chipSelectHigh
        Pure.pure bytes)) ⟨0, [], ⟨.out, .single, 0⟩, [], []⟩ :=
  (@bus_at_any_pace _ _ stackChip narrow ⟨0, [], ⟨.out, .single, 0⟩, [], []⟩ ⟨rfl, rfl, rfl⟩ _
    [3, 2] [1] rfl).1

end En7512.Spi
