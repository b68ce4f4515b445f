/-
# The multi-boot upgrade

`MultiBootHandle` of `ip.c` receives an image in numbered packets that must come in order,
beginning with number 0. A packet says how long its data are and how long the image is. The
data go to the place of its number, at multiples of 1024, while the end of the image is told
from the sum of the lengths; the lengths are not checked against anything.

A session keeps beside the variables the packets accepted since the last one of number 0.
Place and sum agree as long as the data of each packet fit into its place and end within the
image. Then the sum reaches the length of the image only when there is no hole.

The code is the one for boards with a NAND or SPI flash and `TCSUPPORT_BB_NAND`. What is
defined elsewhere, and the layout of the flash, are those of the board.
-/

import En7512.Net.MultiUpgrade

namespace En7512.Net

open En7512.Logic En7512.Nand

namespace MultiBoot

/-! ## The packet -/

/-- `MULTIBOOT_PACKET_SIZE`. -/
def multibootPacketSize : ℕ := 1024

/-- `MULTIBOOT_SIG_OFFSET`. -/
def multibootSigOffset : ℕ := 8

/-- `MULTIBOOT_SIG`. -/
def multibootSig : List UInt8 := [0x7a, 0x79, 0x78]

section Packet

variable (skb : Bytes)

/-- The packet from the `MULTI_BOOT_T` on. -/
def rcvPtr : Bytes := fun i => skb (multibootSigOffset + i)

/-- `checkSum`. -/
def checkSum : UInt16 := (rcvPtr skb 4).toUInt16 <<< 8 ||| (rcvPtr skb 5).toUInt16

/-- `ID`. -/
def ID : UInt32 := longAt (rcvPtr skb) 6

/-- `dataLen`. -/
def dataLen : UInt32 := longAt (rcvPtr skb) 10

/-- `fileLen`, the variable `imagelen`. -/
def fileLen : UInt32 := longAt (rcvPtr skb) 14

/-- `fileFlag & CUR_FILE_MASK`. -/
def curFileType : UInt32 := longAt (rcvPtr skb) 18 &&& 0xff00

/-- `debugFlag`. -/
def debugFlag : UInt8 := rcvPtr skb 24

/-- `data`. -/
def data : Bytes := fun i => rcvPtr skb (30 + i)

/-- `pktseq`. -/
def pktseq : UInt32 := ID skb + 1

end Packet

/-- `CLEAR_ROMFILE`. -/
def clearRomfile : UInt8 := 0x2

/-- `CLEAR_ROMD`. -/
def clearRomd : UInt8 := 0x4

/-- `CURR_FILE_FLAG_BOOT`. -/
def currFileFlagBoot : UInt32 := 0x100

/-- `CURR_FILE_FLAG_ROMFILE`. -/
def currFileFlagRomfile : UInt32 := 0x200

/-- `CURR_FILE_FLAG_TCLINUX`. -/
def currFileFlagTclinux : UInt32 := 0x400

/-- `CURR_FILE_FLAG_ROMD`. -/
def currFileFlagRomd : UInt32 := 0x800

/-- `calculate_check_sum`. -/
def calculateCheckSum (base : Bytes) (len : UInt32) : UInt16 :=
  -- an `int` that is negative means no bytes
  let bytes := if len ≥ 0x80000000 then [] else (List.range len.toNat).map base
  let sum := bytes.foldl (fun (sum : BitVec 32) byte => sum + byte.toBitVec.setWidth 32) 0#32
  ⟨((sum &&& 0xffff#32) + sum.sshiftRight 16).setWidth 16⟩

/-! ## The board -/

/-- What the handler uses and does not define. -/
structure BootBoard extends Board where
  /-- `TCBOOT_BASE`. -/
  tcbootBase : UInt32
  /-- `flash_tclinux_start`. -/
  flashTclinuxStart : UInt32
  /-- `tclinux_size`. -/
  tclinuxSize : UInt32
  /-- `romd_offset`. -/
  romdOffset : UInt32
  /-- `slave_tclinux_offset` and `slave_tclinux_size` with two images. -/
  slaveTclinux : Option (UInt32 × UInt32)
  /-- `nand2K_rom_offset` and the size of a block for a NAND with large pages. -/
  nand2K : Option (UInt32 × UInt32)

namespace BootBoard

variable (b : BootBoard)

/-- `romfile_offset`. -/
def romfileOffset : UInt32 :=
  match b.nand2K with
  | some (offset, _) => offset
  | none => b.tcbootBase + UInt32.ofNat b.tcbootSize

/-- `(1<<ra.flash->erase_shift)` with large pages, or `ROMFILE_SIZE`. -/
def romSize : UInt32 :=
  match b.nand2K with
  | some (_, size) => size
  | none => UInt32.ofNat b.romfileSize

/-- The end of the room for `tclinux`. -/
def roomEnd : UInt32 :=
  match b.slaveTclinux with
  | some (offset, _) => offset
  | none => b.romdOffset

/-- The end of the images before the `romd`. -/
def imagesEnd : UInt32 :=
  match b.slaveTclinux with
  | some (offset, size) => offset + size
  | none => b.flashTclinuxStart + b.tclinuxSize

end BootBoard

/-- A call of the functions that change the flash. -/
inductive FlashCall
  | erase (addr len : UInt32)
  /-- `flash_write` from an address of the memory. -/
  | write (addr len : UInt32) (mem : Bytes) (src : ℕ)

/-! ## The handler -/

/-- The variables, and the memory. -/
structure State where
  /-- `oldSeq`; -1 has the same bits. -/
  oldSeq : UInt32
  /-- `rcv_len`. -/
  rcvLen : UInt32
  /-- `finishMultiBoot`. -/
  finishMultiBoot : Bool
  /-- `startMultiBoot`. -/
  startMultiBoot : Bool
  /-- The memory, by address. None of the variables lies where packets are stored. -/
  mem : Bytes

/-- The variables at the beginning. -/
def State.initial (mem : Bytes) : State := ⟨-1, 0, false, false, mem⟩

/-- The memory from an address on. -/
def memAt (mem : Bytes) (addr : ℕ) : Bytes := fun i => mem (addr + i)

/-- `MULTI_BUF_BASE+(rcv_ptr->ID)*MULTIBOOT_PACKET_SIZE`, in 32 bits. -/
def storeAddr (skb : Bytes) : ℕ :=
  (multiBufBase + (ID skb).toNat * multibootPacketSize) % 2 ^ 32

/-- The packet of number 0 begins a transfer. -/
def startTransfer (skb : Bytes) (s : State) : State :=
  if pktseq skb = 1 then { s with oldSeq := 0, rcvLen := 0 } else s

/-- The packet is stored. -/
def storePacket (skb : Bytes) (s : State) : State :=
  { s with
    oldSeq := pktseq skb
    mem := overlay s.mem (storeAddr skb) (data skb) (dataLen skb).toNat
    rcvLen := s.rcvLen + dataLen skb }

/-- The last four bytes of the image, as they are in the memory. -/
def crcPtr (imagelen : UInt32) (mem : Bytes) : Bytes :=
  memAt mem ((multiBufBase + (imagelen - 4).toNat) % 2 ^ 32)

/-- The `mi.conf` of the board is put into the image. -/
def backupMiconf (b : BootBoard) (mem : Bytes) : Bytes :=
  overlay mem (multiBufBase + miconfOffset) b.miconf miconfSize

section Image

variable (b : BootBoard) (imagelen : UInt32) (mem : Bytes)

/-- The case `CURR_FILE_FLAG_BOOT`; `none` stands for `goto error`. -/
def writeTcboot : Option (Bytes × List FlashCall) :=
  let crc := crcPtr imagelen mem
  let rawCheckSum := (crc 0).toUInt32 <<< 24 ||| (crc 1).toUInt32 <<< 16 |||
    (crc 2).toUInt32 <<< 8 ||| (crc 3).toUInt32
  if b.crc32buf (memAt mem multiBufBase) (imagelen - 4) ≠ rawCheckSum then none
  else
    let mem := backupMiconf b mem
    some (mem, [.erase b.tcbootBase (UInt32.ofNat b.tcbootSize),
      .write b.tcbootBase imagelen mem multiBufBase])

/-- The case `CURR_FILE_FLAG_TCLINUX` for an image with a header. -/
def writeTclinux : Option (Bytes × List FlashCall) :=
  if b.crc32buf (memAt mem (multiBufBase + b.trxHeaderSize.toNat)) (imagelen - b.trxHeaderSize) ≠
      b.trxCrc32 (memAt mem multiBufBase) then none
  else if b.flashTclinuxStart + b.tclinuxSize > b.roomEnd then none
  else some (mem, [.erase b.flashTclinuxStart imagelen,
    .write b.flashTclinuxStart imagelen mem multiBufBase])

/-- `"<ROMFILE>"`. -/
def romfileMark : List UInt8 := [0x3c, 0x52, 0x4f, 0x4d, 0x46, 0x49, 0x4c, 0x45, 0x3e]

/-- The case `CURR_FILE_FLAG_TCLINUX` for an all-in-one image. -/
def writeAllinone : Option (Bytes × List FlashCall) :=
  let crc := crcPtr imagelen mem
  let rawCheckSum := (crc 0).toUInt32 ||| (crc 1).toUInt32 <<< 8 |||
    (crc 2).toUInt32 <<< 16 ||| (crc 3).toUInt32 <<< 24
  if (List.range 9).map (memAt mem (multiBufBase + b.tcbootSize)) ≠ romfileMark then none
  else if b.crc32buf (memAt mem multiBufBase) (imagelen - 4) ≠ rawCheckSum then none
  else if b.tcbootBase + imagelen > b.roomEnd then none
  else
    let mem := backupMiconf b mem
    let image : List FlashCall := [.erase b.tcbootBase imagelen,
      .write b.tcbootBase imagelen mem multiBufBase]
    match b.nand2K with
    | none => some (mem, image)
    | some (offset, _) =>
        some (mem, image ++ [.erase offset (UInt32.ofNat b.romfileSize),
          .write offset (UInt32.ofNat b.romfileSize) mem (multiBufBase + b.tcbootSize)])

/-- The case `CURR_FILE_FLAG_ROMD`. -/
def writeRomd : Option (Bytes × List FlashCall) :=
  if b.imagesEnd > b.romdOffset then none
  else some (mem, [.erase b.romdOffset (UInt32.ofNat b.romfileSize),
    .write b.romdOffset imagelen mem multiBufBase])

/-- The case `CURR_FILE_FLAG_ROMFILE`. -/
def writeRomfile : Option (Bytes × List FlashCall) :=
  some (mem, [.erase b.romfileOffset (UInt32.ofNat b.romfileSize),
    .write b.romfileOffset imagelen mem multiBufBase])

/-- The image is checked by its type and written: the memory after that, and the calls. -/
def writeImage (fileType : UInt32) : Option (Bytes × List FlashCall) :=
  if fileType = currFileFlagBoot then writeTcboot b imagelen mem
  else if fileType = currFileFlagTclinux then
    if b.trxMagic (memAt mem multiBufBase) = b.trxMagic2 then writeTclinux b imagelen mem
    else writeAllinone b imagelen mem
  else if fileType = currFileFlagRomd then writeRomd b imagelen mem
  else if fileType = currFileFlagRomfile then writeRomfile b imagelen mem
  else none

end Image

/-- The checksum of the packet itself is wrong. -/
def BadCheckSum (skb : Bytes) : Prop :=
  (curFileType skb = currFileFlagRomfile ∨ curFileType skb = currFileFlagRomd) ∧
    checkSum skb ≠ calculateCheckSum (data skb) (dataLen skb)

instance (skb : Bytes) : Decidable (BadCheckSum skb) := inferInstanceAs (Decidable (_ ∧ _))

/-- What `MultiBootHandle` does with a packet after it has been stored. -/
def afterStore (b : BootBoard) (skb : Bytes) (s : State) : State × List FlashCall :=
  if BadCheckSum skb then ({ s with rcvLen := 0, oldSeq := -1 }, [])
  else if s.rcvLen ≥ fileLen skb then
    match writeImage b (fileLen skb) s.mem (curFileType skb) with
    | none => ({ s with startMultiBoot := false }, [])
    | some (mem, calls) => ({ s with mem := mem, finishMultiBoot := true }, calls)
  else (s, [])

/-- `MultiBootHandle`. -/
def multiBootHandle (b : BootBoard) (skb : Bytes) (s : State) : State × List FlashCall :=
  if s.finishMultiBoot then (s, [])
  else if pktseq skb = 1 ∧ debugFlag skb = clearRomfile then
    ({ s with finishMultiBoot := true }, [.erase b.romfileOffset b.romSize])
  else if pktseq skb = 1 ∧ debugFlag skb = clearRomd then
    ({ s with finishMultiBoot := true }, [.erase b.romdOffset b.romSize])
  else
    let s := startTransfer skb s
    if pktseq skb ≠ s.oldSeq + 1 then (s, []) else afterStore b skb (storePacket skb s)

/-! ## Sessions -/

/-- A packet as `ip_rcv_packet` gets it: `skb->len`, and the bytes at `skb->data`. -/
structure Packet where
  len : ℕ
  skb : Bytes

/-- The packet has the signature and is long enough. -/
def Packet.Handled (p : Packet) : Prop :=
  (List.range 3).map (rcvPtr p.skb) = multibootSig ∧ 1054 ≤ p.len

instance (p : Packet) : Decidable p.Handled := inferInstanceAs (Decidable (_ ∧ _))

/-- What `ip_rcv_packet` does with a packet. -/
def ipRcvPacket (b : BootBoard) (p : Packet) (s : State) : State × List FlashCall :=
  if p.Handled then multiBootHandle b p.skb { s with startMultiBoot := true } else (s, [])

/-- The packet asks for something to be erased. -/
def Clears (skb : Bytes) : Prop :=
  pktseq skb = 1 ∧ (debugFlag skb = clearRomfile ∨ debugFlag skb = clearRomd)

instance (skb : Bytes) : Decidable (Clears skb) := inferInstanceAs (Decidable (_ ∧ _))

/-- The packet passes the sequence check, and is stored. -/
def Packet.Accepted (p : Packet) (s : State) : Prop :=
  p.Handled ∧ s.finishMultiBoot = false ∧ ¬ Clears p.skb ∧
    pktseq p.skb = (startTransfer p.skb s).oldSeq + 1

instance (p : Packet) (s : State) : Decidable (p.Accepted s) :=
  inferInstanceAs (Decidable (_ ∧ _))

/-- The variables, with the packets that have been accepted since the last one of number 0. -/
structure Session where
  state : State
  since : List Bytes

/-- The packets of the transfer before this one. -/
def Session.before (skb : Bytes) (w : Session) : List Bytes :=
  if pktseq skb = 1 then [] else w.since

/-- A packet arrives. -/
def Session.receive (b : BootBoard) (p : Packet) (w : Session) : Session where
  state := (ipRcvPacket b p w.state).1
  since := if p.Accepted w.state then w.before p.skb ++ [p.skb] else w.since

/-- The session at the beginning. -/
def Session.initial (mem : Bytes) : Session := ⟨.initial mem, []⟩

/-- The length of the image that the first packet of the transfer has announced. -/
def Session.announced (skb : Bytes) (w : Session) : ℕ :=
  (fileLen ((w.before skb).headD skb)).toNat

/-- Each byte of the buffer up to this length is one of the data of a packet, at the place of
its number. -/
def Covered (since : List Bytes) (mem : Bytes) (len : ℕ) : Prop :=
  ∀ off < len, ∃ skb ∈ since, ∃ j < multibootPacketSize, j < (dataLen skb).toNat ∧
    off = (ID skb).toNat * multibootPacketSize + j ∧ mem (multiBufBase + off) = data skb j

/-- An accepted packet is stored in the buffer of its transfer, from its own data; and when
the image is written, the buffer is covered by packets of the transfer. -/
def Whole (b : BootBoard) (p : Packet) (w : Session) : Prop :=
  (p.Accepted w.state →
    multiBufBase ≤ storeAddr p.skb ∧
    storeAddr p.skb + (dataLen p.skb).toNat ≤ multiBufBase + (fileLen p.skb).toNat ∧
    storeAddr p.skb + (dataLen p.skb).toNat ≤ multiBufBase + w.announced p.skb ∧
    (dataLen p.skb).toNat ≤ multibootPacketSize) ∧
  ∀ addr len mem src, .write addr len mem src ∈ (ipRcvPacket b p w.state).2 →
    let received := (storePacket p.skb w.state).mem
    Covered (w.receive b p).since received (fileLen p.skb).toNat ∧
      (mem = received ∨ mem = backupMiconf b received)

/-- The data of an accepted packet fit into its place, and end within the image and within
the address space. -/
def Fits (p : Packet) (w : Session) : Prop :=
  p.Accepted w.state →
    (dataLen p.skb).toNat ≤ multibootPacketSize ∧
    (ID p.skb).toNat * multibootPacketSize + (dataLen p.skb).toNat ≤ (fileLen p.skb).toNat ∧
    (ID p.skb).toNat * multibootPacketSize + (dataLen p.skb).toNat ≤ w.announced p.skb ∧
    multiBufBase + ((ID p.skb).toNat + 1) * multibootPacketSize ≤ 2 ^ 32

instance (p : Packet) (w : Session) : Decidable (Fits p w) := inferInstanceAs (Decidable (_ → _))

/-! ## What a packet does -/

section Image

variable {b : BootBoard} {imagelen fileType : UInt32} {mem : Bytes}
  {written written' : Option (Bytes × List FlashCall)}

/-- The memory is left as it was, or with the `mi.conf` of the board; and what is written to
the flash comes from what is left. -/
def WrittenFrom (b : BootBoard) (mem : Bytes) (written : Option (Bytes × List FlashCall)) : Prop :=
  ∀ left calls, written = some (left, calls) →
    (left = mem ∨ left = backupMiconf b mem) ∧
      ∀ addr len from' src, .write addr len from' src ∈ calls → from' = left

theorem writtenFrom_none : WrittenFrom b mem none := by
  intro left calls h
  cases h

theorem WrittenFrom.ite {c : Prop} [Decidable c] (h : WrittenFrom b mem written)
    (h' : WrittenFrom b mem written') : WrittenFrom b mem (if c then written else written') := by
  split
  · exact h
  · exact h'

/-- An erasure and a write. -/
theorem writtenFrom_image {left : Bytes} (kept : left = mem ∨ left = backupMiconf b mem)
    (addr size addr' size' : UInt32) (src : ℕ) :
    WrittenFrom b mem (some (left, [.erase addr size, .write addr' size' left src])) := by
  intro left' calls h
  cases h
  apply And.intro kept
  grind

theorem writtenFrom_tcboot : WrittenFrom b mem (writeTcboot b imagelen mem) := by
  apply writtenFrom_none.ite
  exact writtenFrom_image (.inr rfl) _ _ _ _ _

theorem writtenFrom_tclinux : WrittenFrom b mem (writeTclinux b imagelen mem) := by
  apply writtenFrom_none.ite
  apply writtenFrom_none.ite
  exact writtenFrom_image (.inl rfl) _ _ _ _ _

theorem writtenFrom_allinone : WrittenFrom b mem (writeAllinone b imagelen mem) := by
  apply writtenFrom_none.ite
  apply writtenFrom_none.ite
  apply writtenFrom_none.ite
  cases b.nand2K with
  | none => exact writtenFrom_image (.inr rfl) _ _ _ _ _
  | some rom =>
      intro left calls h
      cases h
      apply And.intro (.inr rfl)
      grind

/-- Whatever the type of the image is. -/
theorem writtenFrom_writeImage : WrittenFrom b mem (writeImage b imagelen mem fileType) := by
  apply writtenFrom_tcboot.ite
  apply WrittenFrom.ite
  · exact writtenFrom_tclinux.ite writtenFrom_allinone
  apply WrittenFrom.ite
  · exact writtenFrom_none.ite (writtenFrom_image (.inl rfl) _ _ _ _ _)
  · exact (writtenFrom_image (.inl rfl) _ _ _ _ _).ite writtenFrom_none

end Image

section Handle

variable {b : BootBoard} {skb : Bytes} {s : State}

/-- After a packet has been stored, the transfer begins anew, or it goes on, or the image is
written. -/
theorem afterStore_cases (b : BootBoard) (skb : Bytes) (s : State) :
    ((afterStore b skb s).2 = [] ∧ (afterStore b skb s).1.oldSeq = -1) ∨
    ((afterStore b skb s).2 = [] ∧ (afterStore b skb s).1.oldSeq = s.oldSeq ∧
      (afterStore b skb s).1.rcvLen = s.rcvLen ∧ (afterStore b skb s).1.mem = s.mem) ∨
    ((afterStore b skb s).1.finishMultiBoot = true ∧ fileLen skb ≤ s.rcvLen ∧
      WrittenFrom b s.mem (some ((afterStore b skb s).1.mem, (afterStore b skb s).2))) := by
  rw [afterStore]
  split
  · exact .inl ⟨rfl, rfl⟩
  split
  case isFalse => exact .inr (.inl ⟨rfl, rfl, rfl, rfl⟩)
  case isTrue full =>
    cases written : writeImage b (fileLen skb) s.mem (curFileType skb) with
    | none => exact .inr (.inl ⟨rfl, rfl, rfl, rfl⟩)
    | some done =>
        apply Or.inr
        apply Or.inr
        use rfl, full
        exact written ▸ writtenFrom_writeImage

/-- The upgrade is over. -/
theorem multiBootHandle_finished (finished : s.finishMultiBoot = true) :
    multiBootHandle b skb s = (s, []) := if_pos finished

/-- Something is erased, and the upgrade is over. -/
theorem multiBootHandle_clears (going : s.finishMultiBoot = false) (clears : Clears skb) :
    (multiBootHandle b skb s).1.finishMultiBoot = true ∧
      ∀ addr len mem src, .write addr len mem src ∉ (multiBootHandle b skb s).2 := by
  have unfinished : ¬ s.finishMultiBoot = true := by rw [going]; exact Bool.false_ne_true
  rw [multiBootHandle, if_neg unfinished]
  by_cases romfile : debugFlag skb = clearRomfile
  · rw [if_pos ⟨clears.1, romfile⟩]
    simp
  · rw [if_neg fun both => romfile both.2, if_pos ⟨clears.1, clears.2.resolve_left romfile⟩]
    simp

theorem multiBootHandle_of_not_clears (going : s.finishMultiBoot = false)
    (stays : ¬ Clears skb) : multiBootHandle b skb s =
      if pktseq skb ≠ (startTransfer skb s).oldSeq + 1 then (startTransfer skb s, [])
      else afterStore b skb (storePacket skb (startTransfer skb s)) := by
  have unfinished : ¬ s.finishMultiBoot = true := by rw [going]; exact Bool.false_ne_true
  rw [multiBootHandle, if_neg unfinished, if_neg fun both => stays ⟨both.1, .inl both.2⟩,
    if_neg fun both => stays ⟨both.1, .inr both.2⟩]

/-- A packet that is not the next one begins no transfer, and changes nothing. -/
theorem startTransfer_of_ne (other : pktseq skb ≠ (startTransfer skb s).oldSeq + 1) :
    startTransfer skb s = s := by
  apply if_neg
  intro first
  apply other
  rw [startTransfer, if_pos first, first]
  rfl

/-- The transfer with which a packet is stored. -/
def Session.start (skb : Bytes) (w : Session) : Session where
  state := startTransfer skb { w.state with startMultiBoot := true }
  since := w.before skb

theorem startTransfer_started (skb : Bytes) (s : State) :
    startTransfer skb { s with startMultiBoot := true } =
      { startTransfer skb s with startMultiBoot := true } := by
  unfold startTransfer
  split
  · rfl
  · rfl

variable {p : Packet} {w : Session}

/-- A packet that is not accepted ends the upgrade, or changes none of the variables of the
transfer; and nothing is written. -/
theorem ipRcvPacket_of_not_accepted (b : BootBoard) (refused : ¬ p.Accepted s) :
    (∀ addr len mem src, .write addr len mem src ∉ (ipRcvPacket b p s).2) ∧
      ((ipRcvPacket b p s).1.finishMultiBoot = true ∨
        ∃ started, (ipRcvPacket b p s).1 = { s with startMultiBoot := started }) := by
  rw [ipRcvPacket]
  split
  case isFalse => exact ⟨fun _ _ _ _ => List.not_mem_nil, .inr ⟨_, rfl⟩⟩
  case isTrue handled =>
    obtain finished | going := Bool.eq_false_or_eq_true s.finishMultiBoot
    · rw [multiBootHandle_finished (s := { s with startMultiBoot := true }) finished]
      exact ⟨fun _ _ _ _ => List.not_mem_nil, .inl finished⟩
    · by_cases clears : Clears p.skb
      · obtain ⟨finished, erases⟩ := multiBootHandle_clears (b := b)
          (s := { s with startMultiBoot := true }) going clears
        exact ⟨erases, .inl finished⟩
      · have other : pktseq p.skb ≠ (startTransfer p.skb s).oldSeq + 1 :=
          fun next => refused ⟨handled, going, clears, next⟩
        have kept := startTransfer_of_ne other
        rw [multiBootHandle_of_not_clears (s := { s with startMultiBoot := true }) going clears,
          startTransfer_started, kept]
        rw [kept] at other
        rw [if_pos other]
        exact ⟨fun _ _ _ _ => List.not_mem_nil, .inr ⟨_, rfl⟩⟩

/-- An accepted packet is stored. -/
theorem ipRcvPacket_of_accepted (b : BootBoard) (accepted : p.Accepted w.state) :
    ipRcvPacket b p w.state =
      afterStore b p.skb (storePacket p.skb (w.start p.skb).state) := by
  obtain ⟨handled, going, stays, next⟩ := accepted
  rw [ipRcvPacket, if_pos handled,
    multiBootHandle_of_not_clears (s := { w.state with startMultiBoot := true }) going stays,
    if_neg]
  · rfl
  · rw [startTransfer_started]
    exact not_not.mpr next

end Handle

/-! ## What a transfer keeps -/

section Transfer

variable {b : BootBoard} {skb : Bytes} {w : Session} {p : Packet}

/-- A transfer is under way: the packets up to the number have been received, and if their
lengths add up to all of their places, there is no hole. -/
structure Receiving (w : Session) : Prop where
  room : multiBufBase + w.state.oldSeq.toNat * multibootPacketSize ≤ 2 ^ 32
  le : w.state.rcvLen.toNat ≤ w.state.oldSeq.toNat * multibootPacketSize
  covered : w.state.rcvLen.toNat = w.state.oldSeq.toNat * multibootPacketSize →
    Covered w.since w.state.mem w.state.rcvLen.toNat

/-- The upgrade is over, no transfer has begun, or one is under way. -/
def Tracked (w : Session) : Prop :=
  w.state.finishMultiBoot = true ∨ w.state.oldSeq = -1 ∨ Receiving w

/-- An accepted packet belongs to a transfer with its number, unless it is the one of the
highest number. -/
theorem Tracked.start (tracked : Tracked w) (accepted : p.Accepted w.state) :
    ID p.skb = -1 ∨ Receiving (w.start p.skb) ∧ (w.start p.skb).state.oldSeq = ID p.skb := by
  obtain ⟨-, going, -, next⟩ := accepted
  have number : ID p.skb = (startTransfer p.skb w.state).oldSeq := (UInt32.add_left_inj 1).mp next
  rw [Session.start, startTransfer_started]
  by_cases first : pktseq p.skb = 1
  · apply Or.inr
    apply And.intro _ number.symm
    simp only [startTransfer, if_pos first]
    have room : multiBufBase + 0 * multibootPacketSize ≤ 2 ^ 32 := by decide
    exact ⟨room, Nat.zero_le _, fun _ off none => absurd none (Nat.not_lt_zero _)⟩
  · simp only [startTransfer, Session.before, if_neg first] at number ⊢
    obtain finished | idle | receiving := tracked
    · rw [going] at finished
      cases finished
    · exact .inl (number.trans idle)
    · exact .inr ⟨⟨receiving.room, receiving.le, receiving.covered⟩, number.symm⟩

/-- Where a packet is stored. -/
theorem Receiving.storeAddr (receiving : Receiving w) (number : w.state.oldSeq = ID skb) :
    storeAddr skb = multiBufBase + (ID skb).toNat * multibootPacketSize ∧
        multiBufBase + ((ID skb).toNat + 1) * multibootPacketSize ≤ 2 ^ 32 ∨
      storeAddr skb < multiBufBase ∧
        2 ^ 32 < multiBufBase + ((ID skb).toNat + 1) * multibootPacketSize := by
  have room := receiving.room
  rw [number] at room
  simp only [MultiBoot.storeAddr, multiBufBase, multibootPacketSize] at room ⊢
  omega

/-- The packet of the highest number is stored below the buffer. -/
theorem storeAddr_highest (highest : ID skb = -1) : storeAddr skb < multiBufBase := by
  rw [storeAddr, highest]
  decide

/-- The sum of the lengths does not wrap around. -/
theorem rcvLen_storePacket {s : State}
    (le : s.rcvLen.toNat ≤ (ID skb).toNat * multibootPacketSize)
    (fits : (dataLen skb).toNat ≤ multibootPacketSize)
    (room : multiBufBase + ((ID skb).toNat + 1) * multibootPacketSize ≤ 2 ^ 32) :
    (storePacket skb s).rcvLen.toNat = s.rcvLen.toNat + (dataLen skb).toNat := by
  simp only [multiBufBase, multibootPacketSize] at le fits room
  rw [storePacket, UInt32.toNat_add, Nat.mod_eq_of_lt]
  omega

/-- A packet that fits is put after what has been received. -/
theorem Covered.store {since : List Bytes} {s : State} {m : ℕ} (number : (ID skb).toNat = m)
    (covered : Covered since s.mem (m * multibootPacketSize))
    (fits : (dataLen skb).toNat ≤ multibootPacketSize)
    (place : storeAddr skb = multiBufBase + (ID skb).toNat * multibootPacketSize) :
    Covered (since ++ [skb]) (storePacket skb s).mem
      (m * multibootPacketSize + (dataLen skb).toNat) := by
  intro off lt
  rw [number] at place
  obtain before | own := Nat.lt_or_ge off (m * multibootPacketSize)
  · obtain ⟨skb', received, j, inside, within, at', byte⟩ := covered off before
    use skb', List.mem_append_left _ received, j, inside, within, at'
    rw [← byte]
    apply overlay_of_not_mem
    omega
  · obtain ⟨j, rfl⟩ := Nat.exists_eq_add_of_le own
    have within : j < (dataLen skb).toNat := by omega
    use skb, List.mem_concat_self, j, within.trans_le fits, within, number ▸ rfl
    show overlay _ _ _ _ _ = _
    rw [place, ← Nat.add_assoc, overlay_of_mem ⟨by omega, by omega⟩, Nat.add_sub_cancel_left]

/-- When the lengths add up to all of the places and the data of this packet, there is no
hole. -/
theorem Receiving.covered_store (receiving : Receiving w) (number : w.state.oldSeq = ID skb)
    (fits : (dataLen skb).toNat ≤ multibootPacketSize)
    (room : multiBufBase + ((ID skb).toNat + 1) * multibootPacketSize ≤ 2 ^ 32)
    (full : (ID skb).toNat * multibootPacketSize + (dataLen skb).toNat ≤
      (storePacket skb w.state).rcvLen.toNat) :
    Covered (w.since ++ [skb]) (storePacket skb w.state).mem
        ((ID skb).toNat * multibootPacketSize + (dataLen skb).toNat) ∧
      (storePacket skb w.state).rcvLen.toNat =
        (ID skb).toNat * multibootPacketSize + (dataLen skb).toNat := by
  have le := receiving.le
  have covered := receiving.covered
  rw [number] at le covered
  have sum := rcvLen_storePacket le fits room
  have all : w.state.rcvLen.toNat = (ID skb).toNat * multibootPacketSize := by omega
  have place := (receiving.storeAddr number).resolve_right fun outside => by omega
  rw [all] at covered
  exact ⟨(covered rfl).store rfl fits place.1, by omega⟩

/-- The transfer goes on with a packet that fits. -/
theorem Receiving.store (receiving : Receiving w) (number : w.state.oldSeq = ID skb)
    (fits : (dataLen skb).toNat ≤ multibootPacketSize)
    (room : multiBufBase + ((ID skb).toNat + 1) * multibootPacketSize ≤ 2 ^ 32) :
    Receiving ⟨storePacket skb w.state, w.since ++ [skb]⟩ := by
  have next : (storePacket skb w.state).oldSeq.toNat = (ID skb).toNat + 1 := by
    show (pktseq skb).toNat = _
    simp only [multiBufBase, multibootPacketSize] at room
    rw [pktseq, UInt32.toNat_add, Nat.mod_eq_of_lt]
    · rfl
    · simp only [UInt32.toNat_one]
      omega
  have le := receiving.le
  rw [number] at le
  have sum := rcvLen_storePacket le fits room
  apply Receiving.mk
  · rwa [next]
  · rw [next, sum, Nat.succ_mul]
    omega
  · rw [next, Nat.succ_mul]
    show (storePacket skb w.state).rcvLen.toNat = _ → Covered _ _ (storePacket skb _).rcvLen.toNat
    intro full
    obtain ⟨covered, total⟩ := receiving.covered_store number fits room (by omega)
    rwa [total]

/-- An accepted packet has its place in a transfer, or it is stored below the buffer. -/
theorem Tracked.placed (tracked : Tracked w) (accepted : p.Accepted w.state) :
    (Receiving (w.start p.skb) ∧ (w.start p.skb).state.oldSeq = ID p.skb ∧
        MultiBoot.storeAddr p.skb = multiBufBase + (ID p.skb).toNat * multibootPacketSize ∧
        multiBufBase + ((ID p.skb).toNat + 1) * multibootPacketSize ≤ 2 ^ 32) ∨
      MultiBoot.storeAddr p.skb < multiBufBase ∧
        2 ^ 32 < multiBufBase + ((ID p.skb).toNat + 1) * multibootPacketSize := by
  obtain highest | ⟨receiving, number⟩ := tracked.start accepted
  · apply Or.inr
    apply And.intro (storeAddr_highest highest)
    rw [highest]
    decide
  · obtain inside | outside := receiving.storeAddr number
    · exact .inl ⟨receiving, number, inside⟩
    · exact .inr outside

/-- A transfer is a matter of the numbers, the sum and the memory. -/
theorem Receiving.congr {s s' : State} {since : List Bytes} (receiving : Receiving ⟨s, since⟩)
    (oldSeq : s'.oldSeq = s.oldSeq) (rcvLen : s'.rcvLen = s.rcvLen) (mem : s'.mem = s.mem) :
    Receiving ⟨s', since⟩ := by
  obtain ⟨room, le, covered⟩ := receiving
  apply Receiving.mk
  · rwa [oldSeq]
  · rwa [oldSeq, rcvLen]
  · rwa [oldSeq, rcvLen, mem]

/-- What is accepted within its place keeps the transfer. -/
theorem Tracked.receive (tracked : Tracked w) (fits : Fits p w) :
    Tracked (w.receive b p) := by
  by_cases accepted : p.Accepted w.state
  · obtain ⟨within, -, -, room⟩ := fits accepted
    obtain ⟨receiving, number, -⟩ :=
      (tracked.placed accepted).resolve_right fun outside => by omega
    rw [Session.receive, if_pos accepted, ipRcvPacket_of_accepted b accepted]
    obtain ⟨-, again⟩ | ⟨-, oldSeq, rcvLen, mem⟩ | ⟨finished, -⟩ :=
      afterStore_cases b p.skb (storePacket p.skb (w.start p.skb).state)
    · exact .inr (.inl again)
    · exact .inr (.inr ((receiving.store number within room).congr oldSeq rcvLen mem))
    · exact .inl finished
  · rw [Session.receive, if_neg accepted]
    obtain finished | ⟨started, kept⟩ := (ipRcvPacket_of_not_accepted b accepted).2
    · exact .inl finished
    · rw [kept]
      exact tracked.imp_right (Or.imp_right fun receiving => receiving.congr rfl rfl rfl)

theorem mem_storePacket_start (skb : Bytes) (w : Session) :
    (storePacket skb (w.start skb).state).mem = (storePacket skb w.state).mem := by
  rw [Session.start, startTransfer_started, startTransfer]
  split
  · rfl
  · rfl

/-- When the image is written, there is no hole, if the packet fits. -/
theorem Receiving.whole (receiving : Receiving (w.start p.skb))
    (number : (w.start p.skb).state.oldSeq = ID p.skb) (accepted : p.Accepted w.state)
    (fits : Fits p w) {addr len : UInt32} {mem : Bytes} {src : ℕ}
    (written : .write addr len mem src ∈ (ipRcvPacket b p w.state).2) :
    let received := (storePacket p.skb w.state).mem
    Covered (w.receive b p).since received (fileLen p.skb).toNat ∧
      (mem = received ∨ mem = backupMiconf b received) := by
  obtain ⟨within, inside, -, room⟩ := fits accepted
  rw [ipRcvPacket_of_accepted b accepted] at written
  obtain ⟨none, -⟩ | ⟨none, -⟩ | ⟨-, full, sound⟩ :=
    afterStore_cases b p.skb (storePacket p.skb (w.start p.skb).state)
  · rw [none] at written
    cases written
  · rw [none] at written
    cases written
  · obtain ⟨left, same⟩ := sound _ _ rfl
    rw [← same _ _ _ _ written, mem_storePacket_start] at left
    have reached := UInt32.le_iff_toNat_le.mp full
    obtain ⟨covered, total⟩ := receiving.covered_store number within room (inside.trans reached)
    have length : (fileLen p.skb).toNat =
        (ID p.skb).toNat * multibootPacketSize + (dataLen p.skb).toNat := by omega
    rw [mem_storePacket_start, ← length] at covered
    rw [Session.receive, if_pos accepted]
    exact ⟨covered, left⟩

/-- An accepted packet and the image are whole exactly when the packet fits. -/
theorem whole_iff_fits (b : BootBoard) (p : Packet) (tracked : Tracked w) :
    Whole b p w ↔ Fits p w := by
  by_cases accepted : p.Accepted w.state
  · obtain ⟨receiving, number, place, room⟩ | ⟨below, beyond⟩ := tracked.placed accepted
    · apply Iff.intro
      · intro whole _
        obtain ⟨-, length, announced, within⟩ := whole.1 accepted
        exact ⟨within, by omega, by omega, room⟩
      · intro fits
        apply And.intro
        · intro _
          obtain ⟨within, length, announced, -⟩ := fits accepted
          exact ⟨by omega, by omega, by omega, within⟩
        · intro addr len mem src written
          exact receiving.whole number accepted fits written
    · apply iff_of_false
      · intro whole
        have above := (whole.1 accepted).1
        omega
      · intro fits
        obtain ⟨-, -, -, room⟩ := fits accepted
        omega
  · apply iff_of_true
    · exact ⟨fun h => absurd h accepted, fun _ _ _ _ written =>
        absurd written ((ipRcvPacket_of_not_accepted b accepted).1 _ _ _ _)⟩
    · exact fun h => absurd h accepted

/-- In a run from the beginning every packet is stored in its transfer and every image is
without holes, exactly when all accepted packets fit. -/
theorem multiBoot_whole_iff (b : BootBoard) (mem : Bytes) (packets : List Packet) :
    EveryStep (Session.receive b) (Whole b) (.initial mem) packets ↔
      EveryStep (Session.receive b) Fits (.initial mem) packets :=
  everyStep_congr_of_kept Tracked (fun _ _ tracked fits => tracked.receive fits)
    (fun p _ tracked => whole_iff_fits b p tracked) (.inr (.inl rfl))

theorem since_receive (accepted : p.Accepted w.state) :
    (w.receive b p).since = w.before p.skb ++ [p.skb] := if_pos accepted

/-- A romfile is written as it has been received. -/
theorem written_of_romfile (b : BootBoard) (accepted : p.Accepted w.state)
    (correct : ¬ BadCheckSum p.skb) (romfile : curFileType p.skb = currFileFlagRomfile)
    (full : (storePacket p.skb (w.start p.skb).state).rcvLen ≥ fileLen p.skb) :
    .write b.romfileOffset (fileLen p.skb) (storePacket p.skb (w.start p.skb).state).mem
      multiBufBase ∈ (ipRcvPacket b p w.state).2 := by
  rw [ipRcvPacket_of_accepted b accepted, afterStore, if_neg correct, if_pos full, writeImage,
    romfile]
  exact List.mem_cons_of_mem _ List.mem_cons_self

/-- A board with a flash with small pages and one image. -/
def someBootBoard : BootBoard where
  toBoard := someBoard
  tcbootBase := 0
  flashTclinuxStart := 0x80000
  tclinuxSize := 0x300000
  romdOffset := 0x7b0000
  slaveTclinux := none
  nand2K := none

/-- A packet with one byte of a romfile of two bytes. -/
def shortPacket (number : UInt8) : Packet where
  len := 1054
  skb i := [0, 0, 0, 0, 0, 0, 0, 0, 0x7a, 0x79, 0x78, 0, 0, 0, 0, 0, 0, number, 0, 0, 0, 1,
    0, 0, 0, 2, 0, 0, 2, 0].getD i 0

/-- Two such packets are written as an image of two bytes, the second of which has never been
received: the packet of number 1 is stored at 1024. -/
theorem shortPackets_not_whole : ¬ EveryStep (Session.receive someBootBoard)
    (Whole someBootBoard) (.initial allOnes) [shortPacket 0, shortPacket 1] := by
  intro run
  let w := (Session.initial allOnes).receive someBootBoard (shortPacket 0)
  have accepted : (shortPacket 1).Accepted w.state := by decide +kernel
  have written := written_of_romfile someBootBoard accepted (by decide +kernel)
    (by decide +kernel) (by decide +kernel)
  obtain ⟨skb, received, j, -, within, place, -⟩ :=
    (run.2.1.2 _ _ _ _ written).1 1 (by decide +kernel)
  have since : (w.receive someBootBoard (shortPacket 1)).since =
      [(shortPacket 0).skb, (shortPacket 1).skb] := by
    rw [since_receive accepted, Session.before, if_neg (by decide +kernel),
      since_receive (by decide +kernel), Session.before, if_pos (by decide +kernel)]
    rfl
  rw [since] at received
  obtain first | second := List.mem_pair.mp received
  · rw [first, show dataLen (shortPacket 0).skb = 1 by decide +kernel] at within
    rw [first, show ID (shortPacket 0).skb = 0 by decide +kernel] at place
    simp only [multibootPacketSize, UInt32.toNat_zero, UInt32.toNat_one] at within place
    omega
  · rw [second, show ID (shortPacket 1).skb = 1 by decide +kernel] at place
    simp only [multibootPacketSize, UInt32.toNat_one] at place
    omega

end Transfer

end MultiBoot

end En7512.Net
