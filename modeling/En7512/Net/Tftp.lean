/-
# The TFTP server of the boot loader

`tftp.c` and `tftpput.c` receive one file by the rules of RFC 1350. The server
stores the block it waits for behind the blocks it has, acknowledges it and
waits for the next; a block shorter than the others ends the transfer. A write
request, an old one that arrives late too, starts again from the first block.

The network may lose, repeat and reorder packets. It is modelled by the packets
that have been sent so far, any of which may arrive at any time. Whatever
arrives, while a transfer is open the buffer holds the beginning of the file, so
the transfer ends with the whole of it.
-/

import En7512.Nand.Chip

namespace En7512.Net

open En7512.Nand

/-- `SEGSIZE`. -/
def segSize : ℕ := 512

/-- The address and port of a peer. -/
structure Peer where
  ip : ℕ
  port : ℕ
  deriving DecidableEq, Repr

/-- A packet to the server, from the opcode on. The names in the requests are left out:
the server makes no use of them in storing the file. -/
inductive TftpBody
  | rrq
  | wrq
  | data (block : ℕ) (bytes : List UInt8)
  | ack (block : ℕ)
  | error
  deriving DecidableEq, Repr

/-- A packet to the TFTP port. -/
structure Packet where
  source : Peer
  body : TftpBody
  deriving DecidableEq, Repr

/-- An acknowledgement the server sends. -/
structure AckPacket where
  dest : Peer
  block : ℕ
  deriving DecidableEq, Repr

/-! ## The server -/

/-- The variables of `tftp.c` and `tftpput.c`. -/
structure Server where
  /-- `client_ip` and `client_port`. -/
  client : Peer
  /-- `client_block`, a `u16`. -/
  clientBlock : ℕ
  /-- The memory at `buf`. -/
  buf : Bytes
  /-- `data_len`. -/
  dataLen : ℕ
  /-- `put_begin`. -/
  putBegin : Bool
  /-- `limit_size`. -/
  limitSize : ℕ
  /-- `tftp_break`. -/
  tftpBreak : Bool

/-- `calculate_dram_size() << 19`, half of the memory, in 32 bits. -/
def halfDramSize (dramSize : ℕ) : ℕ := dramSize * 2 ^ 19 % 2 ^ 32

/-- `tftp_put_begin`. -/
def tftpPutBegin (dramSize : ℕ) (s : Server) : Server :=
  { s with putBegin := true, limitSize := halfDramSize dramSize, dataLen := 0 }

/-- `tftp_put`; `true` is success. -/
def tftpPut (dat : List UInt8) (s : Server) : Bool × Server :=
  if !s.putBegin then (false, s)
  else if s.limitSize < (s.dataLen + dat.length) % 2 ^ 32 then
    (false, { s with tftpBreak := true })
  else
    (true, { s with
      buf := overlay s.buf s.dataLen (fun i => dat.getD i 0) dat.length
      dataLen := s.dataLen + dat.length })

/-- `tftp_put_end`; `true` is success. -/
def tftpPutEnd (s : Server) : Bool × Server :=
  if !s.putBegin then (false, s) else (true, { s with putBegin := false, tftpBreak := true })

/-- What becomes of a packet: the variables, the acknowledgement that is sent, and
whether `tftp_put_end` has closed the transfer. -/
structure Handled where
  server : Server
  reply : Option AckPacket
  ended : Bool

/-- `tftp_send_ack`, to the client. -/
def tftpSendAck (s : Server) (block : ℕ) : Option AckPacket := some ⟨s.client, block⟩

/-- `tftp_rcv_wrq`. -/
def tftpRcvWrq (dramSize : ℕ) (source : Peer) (s : Server) : Handled :=
  let s := { s with client := source, clientBlock := 1 }
  ⟨tftpPutBegin dramSize s, tftpSendAck s 0, false⟩

/-- `tftp_rcv_data`. -/
def tftpRcvData (source : Peer) (block : ℕ) (dat : List UInt8) (s : Server) : Handled :=
  if s.client ≠ source then ⟨s, none, false⟩
  else if s.clientBlock = block then
    let (stored, s) := tftpPut dat s
    if !stored then ⟨s, none, false⟩
    else
      let reply := tftpSendAck s s.clientBlock
      let s := { s with clientBlock := (s.clientBlock + 1) % 2 ^ 16 }
      if dat.length < segSize then
        let (ended, s) := tftpPutEnd s
        ⟨s, reply, ended⟩
      else ⟨s, reply, false⟩
  else if block < s.clientBlock then ⟨s, tftpSendAck s block, false⟩
  else ⟨s, tftpSendAck s s.clientBlock, false⟩

/-- `tftp_rcv_packet`. -/
def tftpRcvPacket (dramSize : ℕ) (p : Packet) (s : Server) : Handled :=
  match p.body with
  | .wrq => tftpRcvWrq dramSize p.source s
  | .data block dat => tftpRcvData p.source block dat s
  | _ => ⟨s, none, false⟩

/-! ## The client -/

/-- The number of blocks of a file. The last one is shorter than the others, if need be
empty. -/
def blockCount (file : List UInt8) : ℕ := file.length / segSize + 1

/-- Block `n` of a file, counted from 1. -/
def fileBlock (file : List UInt8) (n : ℕ) : List UInt8 :=
  (file.drop (segSize * (n - 1))).take segSize

/-- What the client waits for. -/
inductive Client
  /-- The acknowledgement of its request. -/
  | requesting
  /-- The acknowledgement of a block. -/
  | sending (block : ℕ)
  | done
  deriving DecidableEq, Repr

/-- The packet the client may send, and send again. -/
def Client.packet (address : Peer) (file : List UInt8) : Client → Option Packet
  | .requesting => some ⟨address, .wrq⟩
  | .sending n => some ⟨address, .data n (fileBlock file n)⟩
  | .done => none

/-- The client after an acknowledgement: only the one it waits for counts. -/
def Client.acknowledged (file : List UInt8) (block : ℕ) : Client → Client
  | .requesting => if block = 0 then .sending 1 else .requesting
  | .sending n =>
      if block = n then if n < blockCount file then .sending (n + 1) else .done else .sending n
  | .done => .done

/-! ## The network -/

/-- Both sides, and every packet that has been sent. -/
structure Upload where
  server : Server
  client : Client
  toServer : Set Packet
  toClient : Set AckPacket

/-- Nothing has been sent. -/
def Upload.start (server : Server) : Upload := ⟨server, .requesting, ∅, ∅⟩

/-- What may happen next. A packet that has been sent may arrive any number of times, or
never. -/
inductive Upload.Step (address : Peer) (dramSize : ℕ) (file : List UInt8) :
    Upload → Upload → Prop
  | send {w : Upload} {p : Packet} (current : w.client.packet address file = some p) :
      Step address dramSize file w { w with toServer := insert p w.toServer }
  | receive {w : Upload} {p : Packet} (sent : p ∈ w.toServer) :
      Step address dramSize file w { w with
        server := (tftpRcvPacket dramSize p w.server).server
        toClient := w.toClient ∪ {a | (tftpRcvPacket dramSize p w.server).reply = some a} }
  | acknowledge {w : Upload} {a : AckPacket} (sent : a ∈ w.toClient) (dest : a.dest = address) :
      Step address dramSize file w { w with client := w.client.acknowledged file a.block }

/-- The states of an upload, from any state of the server. -/
abbrev Upload.Reaches (address : Peer) (dramSize : ℕ) (file : List UInt8) (server : Server) :
    Upload → Prop :=
  Relation.ReflTransGen (Upload.Step address dramSize file) (.start server)

section Blocks

variable {file : List UInt8} {n : ℕ}

theorem length_fileBlock (file : List UInt8) (n : ℕ) :
    (fileBlock file n).length = min segSize (file.length - segSize * (n - 1)) := by
  simp [fileBlock]

/-- The blocks before the last one are full. -/
theorem length_fileBlock_of_lt (pos : 1 ≤ n) (h : n < blockCount file) :
    (fileBlock file n).length = segSize := by
  rw [length_fileBlock]
  simp only [blockCount, segSize] at h ⊢
  omega

/-- The last one ends the file, and is shorter. -/
theorem length_fileBlock_last :
    segSize * (blockCount file - 1) + (fileBlock file (blockCount file)).length = file.length ∧
      (fileBlock file (blockCount file)).length < segSize := by
  rw [length_fileBlock]
  simp only [blockCount, segSize]
  omega

theorem getD_fileBlock {i : ℕ} (hi : i < (fileBlock file n).length) :
    (fileBlock file n).getD i 0 = file.getD (segSize * (n - 1) + i) 0 := by
  have inside : i < segSize := by
    rw [length_fileBlock] at hi
    exact lt_of_lt_of_le hi (min_le_left _ _)
  simp only [fileBlock, List.getD_eq_getElem?_getD, List.getElem?_take, inside, if_true,
    List.getElem?_drop]

end Blocks

/-! ## What the server has while a transfer is open -/

/-- The buffer begins with that many bytes of the file. -/
def Server.HoldsPrefix (s : Server) (file : List UInt8) : Prop :=
  ∀ i < s.dataLen, s.buf i = file.getD i 0

/-- The server after a request of the client. While the transfer is open it has the
blocks before the one it waits for. -/
structure Serving (address : Peer) (dramSize : ℕ) (file : List UInt8) (s : Server) : Prop where
  client : s.client = address
  limit : s.limitSize = halfDramSize dramSize
  block_pos : 1 ≤ s.clientBlock
  opened : s.putBegin = true → s.clientBlock ≤ blockCount file ∧
    s.dataLen = segSize * (s.clientBlock - 1) ∧ s.HoldsPrefix file

/-- A packet of the client. -/
def FromClient (address : Peer) (file : List UInt8) (p : Packet) : Prop :=
  p = ⟨address, .wrq⟩ ∨ ∃ n, p = ⟨address, .data n (fileBlock file n)⟩

theorem fromClient_packet {address : Peer} {file : List UInt8} {p : Packet} {client : Client}
    (current : client.packet address file = some p) : FromClient address file p := by
  cases client with
  | requesting => exact .inl (Option.some.inj current).symm
  | sending n => exact .inr ⟨n, (Option.some.inj current).symm⟩
  | done => cases current

section Receive

variable {address : Peer} {dramSize : ℕ} {file : List UInt8} {s : Server}

/-- A request starts from the first block, whatever was before. -/
theorem serving_wrq (s : Server) :
    Serving address dramSize file (tftpRcvWrq dramSize address s).server := by
  refine ⟨rfl, rfl, le_rfl, fun _ => ⟨?_, rfl, fun i hi => absurd hi (Nat.not_lt_zero i)⟩⟩
  show 1 ≤ blockCount file
  exact Nat.le_add_left 1 _

/-- Storing the block the server waits for. -/
theorem tftpPut_block (serving : Serving address dramSize file s) (isOpen : s.putBegin = true)
    (fits : file.length ≤ halfDramSize dramSize) :
    ∃ buf, tftpPut (fileBlock file s.clientBlock) s = (true, { s with
        buf := buf, dataLen := s.dataLen + (fileBlock file s.clientBlock).length }) ∧
      ∀ i < s.dataLen + (fileBlock file s.clientBlock).length, buf i = file.getD i 0 := by
  obtain ⟨within, len, holds⟩ := serving.opened isOpen
  have pos := serving.block_pos
  have total : s.dataLen + (fileBlock file s.clientBlock).length ≤ file.length := by
    rw [len, length_fileBlock]
    simp only [blockCount, segSize] at within ⊢
    omega
  have below : halfDramSize dramSize < 2 ^ 32 := Nat.mod_lt _ (by norm_num)
  have room : ¬ s.limitSize < (s.dataLen + (fileBlock file s.clientBlock).length) % 2 ^ 32 := by
    rw [serving.limit, Nat.mod_eq_of_lt (by omega)]
    omega
  refine ⟨overlay s.buf s.dataLen (fun i => (fileBlock file s.clientBlock).getD i 0)
    (fileBlock file s.clientBlock).length, ?_, fun i hi => ?_⟩
  · rw [tftpPut, isOpen, if_neg (by simp), if_neg room]
  · by_cases before : i < s.dataLen
    · rw [overlay_of_not_mem (by omega)]
      exact holds i before
    · rw [overlay_of_mem (by omega), getD_fileBlock (by omega), ← len]
      congr 1
      omega

/-- A block is short if and only if it is the last. -/
theorem length_fileBlock_lt_iff {n : ℕ} (pos : 1 ≤ n) (last : n ≤ blockCount file) :
    (fileBlock file n).length < segSize ↔ n = blockCount file := by
  constructor
  · intro short
    by_contra other
    have full := length_fileBlock_of_lt pos (lt_of_le_of_ne last other)
    omega
  · rintro rfl
    exact length_fileBlock_last.2

/-- What the server makes of the block it waits for while the transfer is open. -/
theorem tftpRcvData_expected (serving : Serving address dramSize file s)
    (isOpen : s.putBegin = true) (few : blockCount file ≤ 65534)
    (fits : file.length ≤ halfDramSize dramSize) :
    let handled := tftpRcvData address s.clientBlock (fileBlock file s.clientBlock) s
    Serving address dramSize file handled.server ∧
      (handled.ended = true → handled.server.dataLen = file.length ∧
        handled.server.HoldsPrefix file) := by
  obtain ⟨within, len, -⟩ := serving.opened isOpen
  obtain ⟨buf, stored, holds⟩ := tftpPut_block serving isOpen fits
  have pos := serving.block_pos
  have next : (s.clientBlock + 1) % 2 ^ 16 = s.clientBlock + 1 := Nat.mod_eq_of_lt (by omega)
  have short := @length_fileBlock_lt_iff file s.clientBlock pos within
  simp only [tftpRcvData, serving.client, ne_eq, not_true_eq_false, if_false, if_true, stored,
    Bool.not_true, Bool.false_eq_true, next]
  by_cases final : s.clientBlock = blockCount file
  · rw [if_pos (short.mpr final)]
    have whole : s.dataLen + (fileBlock file s.clientBlock).length = file.length := by
      rw [len, final]
      exact length_fileBlock_last.1
    simp only [tftpPutEnd, isOpen, Bool.not_true, Bool.false_eq_true, if_false]
    refine ⟨⟨rfl, serving.limit, Nat.le_add_left 1 _, fun again => ?_⟩, fun _ => ⟨whole, holds⟩⟩
    cases again
  · rw [if_neg (mt short.mp final)]
    have more : s.clientBlock < blockCount file := lt_of_le_of_ne within final
    refine ⟨⟨rfl, serving.limit, Nat.le_add_left 1 _, fun _ => ⟨more, ?_, holds⟩⟩, fun h => ?_⟩
    · show s.dataLen + (fileBlock file s.clientBlock).length = segSize * s.clientBlock
      rw [len, length_fileBlock_of_lt pos more, ← Nat.mul_succ, Nat.succ_eq_add_one,
        Nat.sub_add_cancel pos]
    · cases h

/-- One block of the client, the one the server waits for or any other. If it ends the
transfer, the server has the whole file. -/
theorem tftpRcvData_block (serving : Serving address dramSize file s)
    (few : blockCount file ≤ 65534) (fits : file.length ≤ halfDramSize dramSize) (n : ℕ) :
    let handled := tftpRcvData address n (fileBlock file n) s
    Serving address dramSize file handled.server ∧
      (handled.ended = true → handled.server.dataLen = file.length ∧
        handled.server.HoldsPrefix file) := by
  by_cases expected : s.clientBlock = n
  · subst expected
    cases isOpen : s.putBegin with
    | true => exact tftpRcvData_expected serving isOpen few fits
    | false =>
      simp only [tftpRcvData, tftpPut, serving.client, isOpen, ne_eq, not_true_eq_false, if_false,
        if_true, Bool.not_false]
      exact ⟨serving, fun h => by cases h⟩
  · simp only [tftpRcvData, serving.client, ne_eq, not_true_eq_false, if_false, expected]
    split_ifs <;> exact ⟨serving, fun h => by cases h⟩

/-- A packet of the client. -/
theorem tftpRcvPacket_fromClient {p : Packet} (packet : FromClient address file p)
    (serving : Serving address dramSize file s) (few : blockCount file ≤ 65534)
    (fits : file.length ≤ halfDramSize dramSize) :
    let handled := tftpRcvPacket dramSize p s
    Serving address dramSize file handled.server ∧
      (handled.ended = true → handled.server.dataLen = file.length ∧
        handled.server.HoldsPrefix file) := by
  obtain rfl | ⟨n, rfl⟩ := packet
  · exact ⟨serving_wrq s, fun h => by cases h⟩
  · exact tftpRcvData_block serving few fits n

end Receive

/-! ## The whole upload -/

section Run

variable {address : Peer} {dramSize : ℕ} {file : List UInt8} {server : Server} {w w' : Upload}

/-- What holds throughout an upload: only the client sends to the server, and the server
has taken up the transfer unless no acknowledgement has been sent. -/
structure Uploading (address : Peer) (dramSize : ℕ) (file : List UInt8) (w : Upload) : Prop where
  sent : ∀ p ∈ w.toServer, FromClient address file p
  serving : Serving address dramSize file w.server ∨
    w.toClient = ∅ ∧ w.client = .requesting ∧ ∀ p ∈ w.toServer, p = ⟨address, .wrq⟩

theorem uploading_start (server : Server) :
    Uploading address dramSize file (Upload.start server) where
  sent := fun p hp => absurd hp (Set.notMem_empty p)
  serving := .inr ⟨rfl, rfl, fun p hp => absurd hp (Set.notMem_empty p)⟩

/-- Whatever arrives at the server. -/
theorem Uploading.receive (h : Uploading address dramSize file w) (few : blockCount file ≤ 65534)
    (fits : file.length ≤ halfDramSize dramSize) {p : Packet} (hp : p ∈ w.toServer) :
    let handled := tftpRcvPacket dramSize p w.server
    Serving address dramSize file handled.server ∧
      (handled.ended = true → handled.server.dataLen = file.length ∧
        handled.server.HoldsPrefix file) := by
  obtain serving | ⟨-, -, requests⟩ := h.serving
  · exact tftpRcvPacket_fromClient (h.sent p hp) serving few fits
  · rw [requests p hp]
    exact ⟨serving_wrq w.server, fun h => by cases h⟩

theorem Uploading.step (h : Uploading address dramSize file w)
    (few : blockCount file ≤ 65534) (fits : file.length ≤ halfDramSize dramSize)
    (step : Upload.Step address dramSize file w w') : Uploading address dramSize file w' := by
  cases step with
  | send current =>
      constructor
      · rintro q (rfl | hq)
        · exact fromClient_packet current
        · exact h.sent q hq
      · obtain serving | ⟨none, requesting, requests⟩ := h.serving
        · exact .inl serving
        · refine .inr ⟨none, requesting, ?_⟩
          rintro q (rfl | hq)
          · rw [requesting] at current
            exact (Option.some.inj current).symm
          · exact requests q hq
  | receive sent => exact ⟨h.sent, .inl (h.receive few fits sent).1⟩
  | acknowledge sent _ =>
      refine ⟨h.sent, ?_⟩
      obtain serving | ⟨none, -, -⟩ := h.serving
      · exact .inl serving
      · rw [none] at sent
        exact absurd sent (Set.notMem_empty _)

/-- Every state of an upload. -/
theorem uploading_of_reaches (few : blockCount file ≤ 65534)
    (fits : file.length ≤ halfDramSize dramSize)
    (run : Upload.Reaches address dramSize file server w) : Uploading address dramSize file w := by
  induction run with
  | refl => exact uploading_start server
  | tail _ step ih => exact ih.step few fits step

end Run

/-- Whenever a block ends the transfer, the server has the file: whatever the state the
server was in, and whatever the network lost, repeated and reordered. -/
theorem tftpPutEnd_has_file (address : Peer) (dramSize : ℕ) (file : List UInt8) (server : Server)
    (few : blockCount file ≤ 65534) (fits : file.length ≤ halfDramSize dramSize) (w : Upload)
    (run : Upload.Reaches address dramSize file server w) (p : Packet) (arrives : p ∈ w.toServer)
    (ended : (tftpRcvPacket dramSize p w.server).ended = true) :
    (tftpRcvPacket dramSize p w.server).server.dataLen = file.length ∧
      ∀ i < file.length, (tftpRcvPacket dramSize p w.server).server.buf i = file.getD i 0 := by
  obtain ⟨len, holds⟩ := ((uploading_of_reaches few fits run).receive few fits arrives).2 ended
  refine ⟨len, fun i hi => holds i ?_⟩
  rwa [len]

/-- A file of one full block and one byte. -/
def twoBlocks : List UInt8 := List.replicate 512 5 ++ [9]

/-- The first block arrives twice, and is acknowledged each time, before the second one ends the
transfer. -/
theorem tftpPutEnd_has_file_two_blocks :
    let address : Peer := ⟨3232235778, 1024⟩
    let idle : Server := ⟨⟨0, 0⟩, 0, fun _ => 0, 0, false, 0, false⟩
    ∃ w, Upload.Reaches address 64 twoBlocks idle w ∧
      ∃ p ∈ w.toServer, (tftpRcvPacket 64 p w.server).server.dataLen = 513 ∧
        (tftpRcvPacket 64 p w.server).server.buf 511 = 5 ∧
        (tftpRcvPacket 64 p w.server).server.buf 512 = 9 := by
  intro address idle
  have request : Upload.Step address 64 twoBlocks (.start idle) _ :=
    .send (p := ⟨address, .wrq⟩) rfl
  have requested := Relation.ReflTransGen.single request
  have begun := requested.tail (.receive (Set.mem_insert _ _))
  have accepted := begun.tail (.acknowledge (a := ⟨address, 0⟩) (Set.mem_union_right _ rfl) rfl)
  have first := accepted.tail (.send (p := ⟨address, .data 1 (fileBlock twoBlocks 1)⟩) rfl)
  have stored := first.tail (.receive (Set.mem_insert _ _))
  have again := stored.tail (.receive (Set.mem_insert _ _))
  have next := again.tail (.acknowledge (a := ⟨address, 1⟩)
    (Set.mem_union_right _ (show _ = _ by decide +kernel)) rfl)
  have sent := next.tail (.send (p := ⟨address, .data 2 (fileBlock twoBlocks 2)⟩)
    (by decide +kernel))
  have delivered := tftpPutEnd_has_file address 64 twoBlocks idle (by decide +kernel)
    (by decide +kernel) _ sent _ (Set.mem_insert _ _) (by decide +kernel)
  exact ⟨_, sent, _, Set.mem_insert _ _, delivered.1.trans (by decide +kernel),
    (delivered.2 511 (by decide +kernel)).trans (by decide +kernel),
    (delivered.2 512 (by decide +kernel)).trans (by decide +kernel)⟩

end En7512.Net
