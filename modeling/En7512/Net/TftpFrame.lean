/-
# TFTP packets in the frames of the boot loader

The way of a received frame to `tftp_put`. Every layer strips its header and takes the
length of what is left from the next one, so that in the end the number of bytes to copy
is what the UDP header says. Neither the length of the frame nor the total length in the
IP header is compared with it, and the number is an `int`, which may be negative.

As long as the lengths agree with the frame, this is the server of `Tftp`.

The code is the one without `BOOT_LZMA_SUPPORT`. The builds with the multicast handlers
do not look at the destination address; the packets those handlers take are left out.
-/

import En7512.Logic.Runs
import En7512.Net.Checksum
import En7512.Net.Tftp

namespace En7512.Net

open En7512.Logic En7512.Nand

/-- `ETH_P_IP`. -/
def ethPIp : ℕ := 0x0800

/-- `UDP`. -/
def udpProtocol : ℕ := 0x11

/-- `TFTP`. -/
def tftpPort : ℕ := 0x45

/-- `WRQ`. -/
def opcodeWrq : ℕ := 2

/-- `DATA`. -/
def opcodeData : ℕ := 3

/-- `sizeof(struct ethhdr)`. -/
def ethhdrSize : ℕ := 14

/-- `sizeof(struct udphdr)`. -/
def udphdrSize : ℕ := 8

/-- `sizeof(struct tftphdr)`. -/
def tftphdrSize : ℕ := 4

/-- An IP address at an offset, in the order of the network, which is that of the
processor. -/
def ipAt (b : Bytes) (i : ℕ) : ℕ := u16At b i * 2 ^ 16 + u16At b (i + 2)

/-- An `unsigned int` as an `int`. -/
def toInt (x : ℤ) : ℤ := x.bmod (2 ^ 32)

/-- An `int` as an `unsigned long`. -/
def toUnsigned (x : ℤ) : ℕ := (x % (2 ^ 32 : ℕ)).toNat

/-- `sk_buff`, with offsets into the frame for its pointers. -/
structure SkBuff where
  /-- The memory from the beginning of the frame on. -/
  buf : Bytes
  /-- `data`. -/
  data : ℕ
  /-- `ip_hdr`. -/
  ipHdr : ℕ
  /-- `udp_hdr`. -/
  udpHdr : ℕ
  /-- `len`, an `unsigned int`. -/
  len : ℕ

/-- `skb_pull`. -/
def skbPull (n : ℕ) (skb : SkBuff) : SkBuff :=
  { skb with data := skb.data + n, len := (skb.len + (2 ^ 32 - n)) % 2 ^ 32 }

/-- `ip_get_source_ip` and `udp_get_source_port`. -/
def SkBuff.source (skb : SkBuff) : Peer := ⟨ipAt skb.buf (skb.ipHdr + 12), u16At skb.buf skb.udpHdr⟩

/-- `th_opcode`. -/
def SkBuff.opcode (skb : SkBuff) : ℕ := u16At skb.buf skb.data

/-- `th_block`. -/
def SkBuff.block (skb : SkBuff) : ℕ := u16At skb.buf (skb.data + 2)

/-- The `len` of `tftp_rcv_data`. -/
def SkBuff.dataLength (skb : SkBuff) : ℤ := toInt (skb.len - tftphdrSize)

/-! ## The server -/

/-- The variables of `Server`, with `data_len` as the `int` that it is. -/
structure Receiver where
  /-- `client_ip` and `client_port`. -/
  client : Peer
  /-- `client_block`, a `u16`. -/
  clientBlock : ℕ
  /-- The memory at `buf`. -/
  buf : Bytes
  /-- `data_len`. -/
  dataLen : ℤ
  /-- `put_begin`. -/
  putBegin : Bool
  /-- `limit_size`. -/
  limitSize : ℕ
  /-- `tftp_break`. -/
  tftpBreak : Bool

/-- Static variables start at zero. -/
def Receiver.initial (mem : Bytes) : Receiver := ⟨⟨0, 0⟩, 0, mem, 0, false, 0, false⟩

/-- The `memcpy` of `tftp_put`: from this offset in the frame, so many bytes, to this offset
in the buffer. -/
structure CopyOp where
  src : ℕ
  len : ℤ
  dest : ℤ
  deriving DecidableEq, Repr

/-- What becomes of a frame: the variables, the acknowledgement, the copy that is made. -/
structure FrameHandled where
  receiver : Receiver
  reply : Option AckPacket
  copied : Option CopyOp

/-- `tftp_put`, with the data at an offset of the frame; `none` is the error. The length of the
copy is an `int`; whether a `memcpy` of so many bytes returns is left to those who look at it. -/
def tftpPutData (skb : SkBuff) (src : ℕ) (len : ℤ) (s : Receiver) : Option CopyOp × Receiver :=
  if !s.putBegin then (none, s)
  else if s.limitSize < toUnsigned (s.dataLen + len) then
    (none, { s with tftpBreak := true })
  else
    (some ⟨src, len, s.dataLen⟩, { s with
      buf := overlay s.buf s.dataLen.toNat (fun i => skb.buf (src + i)) (toUnsigned len)
      dataLen := toInt (s.dataLen + len) })

/-- `tftp_rcv_wrq`. -/
def tftpRcvWrqSkb (dramSize : ℕ) (skb : SkBuff) (s : Receiver) : FrameHandled :=
  ⟨{ s with
      client := skb.source
      clientBlock := 1
      putBegin := true
      limitSize := halfDramSize dramSize
      dataLen := 0 }, some ⟨skb.source, 0⟩, none⟩

/-- `tftp_rcv_data`. -/
def tftpRcvDataSkb (skb : SkBuff) (s : Receiver) : FrameHandled :=
  if s.client ≠ skb.source then ⟨s, none, none⟩
  else if s.clientBlock = skb.block then
    match tftpPutData skb (skb.data + tftphdrSize) skb.dataLength s with
    | (none, s) => ⟨s, none, none⟩
    | (some copy, s) =>
        let reply : AckPacket := ⟨s.client, s.clientBlock⟩
        let s := { s with clientBlock := (s.clientBlock + 1) % 2 ^ 16 }
        if skb.dataLength < segSize then
          ⟨if s.putBegin then { s with putBegin := false, tftpBreak := true } else s, some reply,
            some copy⟩
        else ⟨s, some reply, some copy⟩
  else if skb.block < s.clientBlock then ⟨s, some ⟨s.client, skb.block⟩, none⟩
  else ⟨s, some ⟨s.client, s.clientBlock⟩, none⟩

/-- `tftp_rcv_packet`. -/
def tftpRcvPacketSkb (dramSize : ℕ) (skb : SkBuff) (s : Receiver) : FrameHandled :=
  if skb.opcode = opcodeWrq then tftpRcvWrqSkb dramSize skb s
  else if skb.opcode = opcodeData then tftpRcvDataSkb skb s
  else ⟨s, none, none⟩

/-! ## The layers below -/

/-- `udp_rcv_packet`. -/
def udpRcvPacket (dramSize : ℕ) (skb : SkBuff) (s : Receiver) : FrameHandled :=
  let udp := skb.data
  let skb := skbPull udphdrSize { skb with udpHdr := udp, len := u16At skb.buf (udp + 4) }
  if u16At skb.buf (udp + 2) = tftpPort then tftpRcvPacketSkb dramSize skb s
  else ⟨s, none, none⟩

/-- `ip_rcv_packet`; without a local address the destination is not looked at. -/
def ipRcvPacket (dramSize : ℕ) (localIp : Option ℕ) (skb : SkBuff) (s : Receiver) :
    FrameHandled :=
  let ip := skb.data
  let skb := { skb with ipHdr := ip }
  if localIp.all (· = ipAt skb.buf (ip + 16)) then
    if (skb.buf (ip + 9)).toNat = udpProtocol then
      udpRcvPacket dramSize (skbPull iphdrSize { skb with len := u16At skb.buf (ip + 2) }) s
    else ⟨s, none, none⟩
  else ⟨s, none, none⟩

/-- A received frame: the memory from its beginning on, and its length. -/
structure EthFrame where
  bytes : Bytes
  len : ℕ

/-- `eth_rcv`. Other protocols do not change the variables of the server. -/
def ethRcv (dramSize : ℕ) (localIp : Option ℕ) (frame : EthFrame) (s : Receiver) : FrameHandled :=
  let skb : SkBuff := skbPull ethhdrSize ⟨frame.bytes, 0, 0, 0, frame.len⟩
  if u16At frame.bytes 12 = ethPIp then ipRcvPacket dramSize localIp skb s
  else ⟨s, none, none⟩

/-! ## What reaches the server -/

/-- The total length in the IP header. -/
def EthFrame.totLen (frame : EthFrame) : ℕ := u16At frame.bytes 16

/-- The length in the UDP header. -/
def EthFrame.udpLen (frame : EthFrame) : ℕ := u16At frame.bytes 38

/-- The frame is handed to `tftp_rcv_packet`. -/
def EthFrame.IsTftp (localIp : Option ℕ) (frame : EthFrame) : Prop :=
  u16At frame.bytes 12 = ethPIp ∧ localIp.all (· = ipAt frame.bytes 30) ∧
    (frame.bytes 23).toNat = udpProtocol ∧ u16At frame.bytes 36 = tftpPort

instance (localIp : Option ℕ) (frame : EthFrame) : Decidable (frame.IsTftp localIp) :=
  inferInstanceAs (Decidable (_ ∧ _))

/-- The buffer that is handed to it. -/
def EthFrame.tftp (frame : EthFrame) : SkBuff where
  buf := frame.bytes
  data := 42
  ipHdr := 14
  udpHdr := 34
  len := (frame.udpLen + (2 ^ 32 - 8)) % 2 ^ 32

/-- The layers do nothing but find the packet. -/
theorem ethRcv_eq (dramSize : ℕ) (localIp : Option ℕ) (frame : EthFrame) (s : Receiver) :
    ethRcv dramSize localIp frame s =
      if frame.IsTftp localIp then tftpRcvPacketSkb dramSize frame.tftp s else ⟨s, none, none⟩ := by
  by_cases ip : u16At frame.bytes 12 = ethPIp
  case neg => rw [ethRcv, if_neg ip, if_neg fun h => ip h.1]
  by_cases addr : localIp.all (· = ipAt frame.bytes 30)
  case neg =>
    rw [ethRcv, if_pos ip, if_neg fun h => addr h.2.1]
    exact if_neg addr
  by_cases udp : (frame.bytes 23).toNat = udpProtocol
  case neg =>
    rw [ethRcv, if_pos ip, if_neg fun h => udp h.2.2.1]
    exact (if_pos addr).trans (if_neg udp)
  by_cases port : u16At frame.bytes 36 = tftpPort
  case neg =>
    rw [ethRcv, if_pos ip, if_neg fun h => port h.2.2.2]
    exact ((if_pos addr).trans (if_pos udp)).trans (if_neg port)
  rw [ethRcv, if_pos ip, if_pos ⟨ip, addr, udp, port⟩]
  exact ((if_pos addr).trans (if_pos udp)).trans (if_pos port)

/-- The number of bytes `tftp_put` is given is what the UDP header says, less both headers. -/
theorem dataLength_tftp (frame : EthFrame) : frame.tftp.dataLength = (frame.udpLen : ℤ) - 12 := by
  have small : frame.udpLen < 65536 := u16At_lt _ _
  simp only [SkBuff.dataLength, EthFrame.tftp, tftphdrSize, toInt, Int.bmod_def]
  omega

/-- What `tftp_put` does. -/
theorem tftpPutData_cases (skb : SkBuff) (src : ℕ) (len : ℤ) (s : Receiver) :
    (s.putBegin = true ∧ toUnsigned (s.dataLen + len) ≤ s.limitSize ∧
        ∃ buf, tftpPutData skb src len s =
          (some ⟨src, len, s.dataLen⟩, { s with buf := buf, dataLen := toInt (s.dataLen + len) })) ∨
      (¬ (s.putBegin = true ∧ toUnsigned (s.dataLen + len) ≤ s.limitSize) ∧
        ∃ broken, tftpPutData skb src len s = (none, { s with tftpBreak := broken })) := by
  by_cases begun : s.putBegin = true
  · rw [tftpPutData, if_neg (by simp [begun])]
    split
    · next full => exact .inr ⟨fun h => absurd h.2 (not_le.mpr full), true, rfl⟩
    · next room => exact .inl ⟨begun, not_lt.mp room, _, rfl⟩
  · rw [tftpPutData, if_pos (by simp [begun])]
    exact .inr ⟨fun h => begun h.1, s.tftpBreak, rfl⟩

/-! ## The server of `Tftp` -/

/-- The packet in the buffer, with the bytes that its length takes in. All packets but
requests to write and data are ignored alike. -/
def SkBuff.packet (skb : SkBuff) : Packet where
  source := skb.source
  body :=
    if skb.opcode = opcodeWrq then .wrq
    else if skb.opcode = opcodeData then
      .data skb.block ((List.range skb.dataLength.toNat).map fun i =>
        skb.buf (skb.data + tftphdrSize + i))
    else .error

/-- The variables, with the fill level as a natural number. -/
def Receiver.server (s : Receiver) : Server where
  client := s.client
  clientBlock := s.clientBlock
  buf := s.buf
  dataLen := s.dataLen.toNat
  putBegin := s.putBegin
  limitSize := s.limitSize
  tftpBreak := s.tftpBreak

/-- The fill level is within the limit, which an `int` can hold. -/
structure Receiver.Bounded (s : Receiver) : Prop where
  nonneg : 0 ≤ s.dataLen
  le : s.dataLen ≤ s.limitSize
  limit : s.limitSize < 2 ^ 31

section Refine

variable {skb : SkBuff} {s : Receiver}

theorem overlay_map_range (dst : Bytes) (offset n : ℕ) (src : Bytes) :
    overlay dst offset (fun i => ((List.range n).map src).getD i 0) n =
      overlay dst offset src n := by
  ext i
  by_cases inside : offset ≤ i ∧ i < offset + n
  · have bound : i - offset < n := by omega
    rw [overlay_of_mem inside, overlay_of_mem inside]
    simp [bound]
  · rw [overlay_of_not_mem inside, overlay_of_not_mem inside]

/-- A length that is not negative is stored as the list of its bytes. -/
theorem tftpPutData_refines (nonneg : 0 ≤ skb.dataLength) (short : skb.dataLength < 2 ^ 16)
    (bounded : s.Bounded) :
    tftpPut ((List.range skb.dataLength.toNat).map fun i =>
        skb.buf (skb.data + tftphdrSize + i)) s.server =
      ((tftpPutData skb (skb.data + tftphdrSize) skb.dataLength s).1.isSome,
        (tftpPutData skb (skb.data + tftphdrSize) skb.dataLength s).2.server) := by
  obtain ⟨level, le, limit⟩ := bounded
  have total : (s.server.dataLen + skb.dataLength.toNat) % 2 ^ 32 =
      toUnsigned (s.dataLen + skb.dataLength) := by
    simp only [toUnsigned, Receiver.server]
    omega
  have size : toUnsigned skb.dataLength = skb.dataLength.toNat := by
    simp only [toUnsigned]
    omega
  by_cases begun : s.putBegin = true
  case neg =>
    rw [tftpPutData, if_pos (by simp [begun])]
    exact if_pos (by simp [Receiver.server, begun])
  have going : ¬ (!s.putBegin) = true := by simp [begun]
  have going' : ¬ (!s.server.putBegin) = true := going
  rw [tftpPut, if_neg going', tftpPutData, if_neg going]
  rw [List.length_map, List.length_range, total, overlay_map_range]
  by_cases full : s.limitSize < toUnsigned (s.dataLen + skb.dataLength)
  · rw [if_pos full]
    exact if_pos full
  · have sum : (toInt (s.dataLen + skb.dataLength)).toNat =
        s.server.dataLen + skb.dataLength.toNat := by
      simp only [toUnsigned] at full
      simp only [toInt, Int.bmod_def, Receiver.server]
      omega
    rw [if_neg full, size, ← sum]
    exact if_neg full

/-- A frame whose lengths agree is handled as its packet is. -/
theorem tftpRcvPacketSkb_refines (dramSize : ℕ) (nonneg : 0 ≤ skb.dataLength)
    (short : skb.dataLength < 2 ^ 16) (bounded : s.Bounded) :
    (tftpRcvPacketSkb dramSize skb s).receiver.server =
        (tftpRcvPacket dramSize skb.packet s.server).server ∧
      (tftpRcvPacketSkb dramSize skb s).reply =
        (tftpRcvPacket dramSize skb.packet s.server).reply := by
  rw [tftpRcvPacketSkb, tftpRcvPacket, SkBuff.packet]
  by_cases wrq : skb.opcode = opcodeWrq
  · rw [if_pos wrq, if_pos wrq]
    exact ⟨rfl, rfl⟩
  rw [if_neg wrq, if_neg wrq]
  by_cases data : skb.opcode = opcodeData
  case neg =>
    rw [if_neg data, if_neg data]
    exact ⟨rfl, rfl⟩
  rw [if_pos data, if_pos data, tftpRcvDataSkb]
  dsimp only
  rw [tftpRcvData]
  by_cases client : s.client = skb.source
  case neg =>
    rw [if_pos client, if_pos (show s.server.client ≠ skb.source from client)]
    exact ⟨rfl, rfl⟩
  rw [if_neg (not_not.mpr client), if_neg (show ¬ s.server.client ≠ skb.source by simpa)]
  by_cases block : s.clientBlock = skb.block
  case neg =>
    rw [if_neg block, if_neg (show ¬ s.server.clientBlock = skb.block from block)]
    by_cases before : skb.block < s.clientBlock
    · rw [if_pos before, if_pos (show skb.block < s.server.clientBlock from before)]
      exact ⟨rfl, rfl⟩
    · rw [if_neg before, if_neg (show ¬ skb.block < s.server.clientBlock from before)]
      exact ⟨rfl, rfl⟩
  rw [if_pos block, if_pos (show s.server.clientBlock = skb.block from block)]
  rw [tftpPutData_refines nonneg short bounded]
  rcases tftpPutData_cases skb (skb.data + tftphdrSize) skb.dataLength s with
    ⟨begun, -, buf, put⟩ | ⟨-, broken, put⟩
  case inr =>
    rw [put]
    exact ⟨rfl, rfl⟩
  rw [put, List.length_map, List.length_range]
  dsimp only [Option.isSome_some, Receiver.server]
  rw [tftpPutEnd, begun]
  by_cases final : skb.dataLength < segSize
  · rw [if_pos final, if_pos (show skb.dataLength.toNat < segSize by omega)]
    exact ⟨rfl, rfl⟩
  · rw [if_neg final, if_neg (show ¬ skb.dataLength.toNat < segSize by omega)]
    exact ⟨rfl, rfl⟩

end Refine

/-! ## What is copied -/

/-- The lengths in the headers agree with each other and with the frame, and leave room for
the header of the packet. -/
structure EthFrame.Consistent (frame : EthFrame) : Prop where
  packet : 12 ≤ frame.udpLen
  datagram : 20 + frame.udpLen ≤ frame.totLen
  within : 14 + frame.totLen ≤ frame.len

/-- The copy lies in the payload of the frame and in the buffer, and the fill level stays
within the limit. A frame whose lengths contradict it is not copied and changes no fill
level. -/
structure CopiesInside (frame : EthFrame) (s : Receiver) (out : FrameHandled) : Prop where
  source : ∀ c ∈ out.copied, 0 ≤ c.len ∧ 46 ≤ c.src ∧ c.src + c.len ≤ frame.len
  buffer : ∀ c ∈ out.copied, 0 ≤ c.dest ∧ c.dest + c.len ≤ out.receiver.limitSize
  level : 0 ≤ out.receiver.dataLen ∧ out.receiver.dataLen ≤ out.receiver.limitSize
  rejected : ¬ frame.Consistent → out.copied = none ∧ out.receiver.dataLen = s.dataLen

/-- A data packet of the client, with the block the server waits for and a length that the
limit lets pass. -/
structure EthFrame.TakenUp (localIp : Option ℕ) (frame : EthFrame) (s : Receiver) : Prop where
  tftp : frame.IsTftp localIp
  opcode : frame.tftp.opcode = opcodeData
  client : s.client = frame.tftp.source
  block : s.clientBlock = frame.tftp.block
  begun : s.putBegin = true
  room : toUnsigned (s.dataLen + ((frame.udpLen : ℤ) - 12)) ≤ s.limitSize

/-- A request, while the fill level is not zero. -/
structure EthFrame.Restarts (localIp : Option ℕ) (frame : EthFrame) (s : Receiver) : Prop where
  tftp : frame.IsTftp localIp
  opcode : frame.tftp.opcode = opcodeWrq
  level : s.dataLen ≠ 0

/-- The lengths of the frame agree, or neither they nor the fill level matter. -/
def EthFrame.Harmless (localIp : Option ℕ) (frame : EthFrame) (s : Receiver) : Prop :=
  frame.Consistent ∨ ¬ frame.TakenUp localIp s ∧ ¬ frame.Restarts localIp s

section Copy

variable {dramSize : ℕ} {localIp : Option ℕ} {frame : EthFrame} {s : Receiver}

/-- A data packet is copied if it is taken up, and otherwise leaves the fill level. -/
theorem tftpRcvDataSkb_cases (skb : SkBuff) (s : Receiver) :
    (s.client = skb.source ∧ s.clientBlock = skb.block ∧ s.putBegin = true ∧
        toUnsigned (s.dataLen + skb.dataLength) ≤ s.limitSize ∧
        (tftpRcvDataSkb skb s).copied =
          some ⟨skb.data + tftphdrSize, skb.dataLength, s.dataLen⟩ ∧
        (tftpRcvDataSkb skb s).receiver.dataLen = toInt (s.dataLen + skb.dataLength) ∧
        (tftpRcvDataSkb skb s).receiver.limitSize = s.limitSize) ∨
      (¬ (s.client = skb.source ∧ s.clientBlock = skb.block ∧ s.putBegin = true ∧
          toUnsigned (s.dataLen + skb.dataLength) ≤ s.limitSize) ∧
        (tftpRcvDataSkb skb s).copied = none ∧
        (tftpRcvDataSkb skb s).receiver.dataLen = s.dataLen ∧
        (tftpRcvDataSkb skb s).receiver.limitSize = s.limitSize) := by
  rw [tftpRcvDataSkb]
  split
  · next other => exact .inr ⟨fun h => other h.1, rfl, rfl, rfl⟩
  · next client =>
    split
    · next block =>
      rcases tftpPutData_cases skb (skb.data + tftphdrSize) skb.dataLength s with
        ⟨begun, room, buf, put⟩ | ⟨refused, broken, put⟩
      · rw [put]
        refine .inl ⟨not_not.mp client, block, begun, room, ?_⟩
        dsimp only
        rw [begun]
        split <;> exact ⟨rfl, rfl, rfl⟩
      · rw [put]
        exact .inr ⟨fun h => refused h.2.2, rfl, rfl, rfl⟩
    · next other =>
      refine .inr ⟨fun h => other h.2.1, ?_⟩
      split <;> exact ⟨rfl, rfl, rfl⟩

/-- The fill level after a packet that the limit has let pass. -/
theorem toInt_room {x : ℤ} {limit : ℕ} (small : limit < 2 ^ 31)
    (room : toUnsigned x ≤ limit) : 0 ≤ toInt x ∧ toInt x ≤ limit := by
  simp only [toUnsigned] at room
  simp only [toInt, Int.bmod_def]
  omega

/-- A frame that is taken up is copied as its UDP header says. -/
theorem ethRcv_takenUp (dramSize : ℕ) (taken : frame.TakenUp localIp s) :
    (ethRcv dramSize localIp frame s).copied =
        some ⟨46, (frame.udpLen : ℤ) - 12, s.dataLen⟩ ∧
      (ethRcv dramSize localIp frame s).receiver.dataLen =
        toInt (s.dataLen + ((frame.udpLen : ℤ) - 12)) ∧
      (ethRcv dramSize localIp frame s).receiver.limitSize = s.limitSize := by
  have other : frame.tftp.opcode ≠ opcodeWrq := by
    rw [taken.opcode]
    decide
  rw [ethRcv_eq, if_pos taken.tftp, tftpRcvPacketSkb, if_neg other, if_pos taken.opcode]
  rcases tftpRcvDataSkb_cases frame.tftp s with ⟨-, -, -, -, copied⟩ | ⟨refused, -⟩
  · rw [dataLength_tftp] at copied
    exact copied
  · rw [dataLength_tftp] at refused
    exact absurd ⟨taken.client, taken.block, taken.begun, taken.room⟩ refused

/-- Any other frame copies nothing. It is a request, or it leaves the fill level. -/
theorem ethRcv_not_takenUp (dramSize : ℕ) (refused : ¬ frame.TakenUp localIp s) :
    (ethRcv dramSize localIp frame s).copied = none ∧
      (frame.IsTftp localIp ∧ frame.tftp.opcode = opcodeWrq ∧
          (ethRcv dramSize localIp frame s).receiver.dataLen = 0 ∧
          (ethRcv dramSize localIp frame s).receiver.limitSize = halfDramSize dramSize ∨
        ¬ (frame.IsTftp localIp ∧ frame.tftp.opcode = opcodeWrq) ∧
          (ethRcv dramSize localIp frame s).receiver.dataLen = s.dataLen ∧
          (ethRcv dramSize localIp frame s).receiver.limitSize = s.limitSize) := by
  rw [ethRcv_eq]
  by_cases tftp : frame.IsTftp localIp
  case neg =>
    rw [if_neg tftp]
    exact ⟨rfl, .inr ⟨fun h => tftp h.1, rfl, rfl⟩⟩
  rw [if_pos tftp, tftpRcvPacketSkb]
  by_cases wrq : frame.tftp.opcode = opcodeWrq
  · rw [if_pos wrq]
    exact ⟨rfl, .inl ⟨tftp, wrq, rfl, rfl⟩⟩
  rw [if_neg wrq]
  by_cases data : frame.tftp.opcode = opcodeData
  case neg =>
    rw [if_neg data]
    exact ⟨rfl, .inr ⟨fun h => wrq h.2, rfl, rfl⟩⟩
  rw [if_pos data]
  rcases tftpRcvDataSkb_cases frame.tftp s with ⟨client, block, begun, room, -⟩ | ⟨-, none, level⟩
  · rw [dataLength_tftp] at room
    exact absurd ⟨tftp, data, client, block, begun, room⟩ refused
  · exact ⟨none, .inr ⟨fun h => wrq h.2, level⟩⟩

/-- The fill level stays within the limit. -/
theorem Receiver.Bounded.receive (localIp : Option ℕ) (frame : EthFrame) (bounded : s.Bounded)
    (dram : halfDramSize dramSize < 2 ^ 31) :
    (ethRcv dramSize localIp frame s).receiver.Bounded := by
  by_cases taken : frame.TakenUp localIp s
  · obtain ⟨-, level, limit⟩ := ethRcv_takenUp dramSize taken
    obtain ⟨nonneg, le⟩ := toInt_room bounded.limit taken.room
    constructor
    · rwa [level]
    · rwa [level, limit]
    · rw [limit]
      exact bounded.limit
  · rcases (ethRcv_not_takenUp dramSize taken).2 with
      ⟨-, -, level, limit⟩ | ⟨-, level, limit⟩
    · constructor
      · rw [level]
      · rw [level]
        exact Int.natCast_nonneg _
      · rw [limit]
        exact dram
    · constructor
      · rw [level]
        exact bounded.nonneg
      · rw [level, limit]
        exact bounded.le
      · rw [limit]
        exact bounded.limit

/-- One frame: the copy is inside if and only if the frame is harmless. -/
theorem copiesInside_iff (bounded : s.Bounded) (dram : halfDramSize dramSize < 2 ^ 31) :
    CopiesInside frame s (ethRcv dramSize localIp frame s) ↔ frame.Harmless localIp s := by
  have level := bounded.receive localIp frame dram
  by_cases taken : frame.TakenUp localIp s
  · obtain ⟨copied, now, limit⟩ := ethRcv_takenUp dramSize taken
    constructor
    · intro inside
      left
      by_contra contradicts
      rw [(inside.rejected contradicts).1] at copied
      cases copied
    · intro harmless
      have consistent : frame.Consistent := harmless.resolve_right fun h => h.1 taken
      obtain ⟨packet, datagram, within⟩ := consistent
      have room := taken.room
      rw [toUnsigned] at room
      have small := bounded.limit
      have nonneg := bounded.nonneg
      have le := bounded.le
      have short : frame.udpLen < 65536 := u16At_lt _ _
      constructor
      · rw [copied]
        rintro _ ⟨⟩
        dsimp only
        omega
      · rw [copied, limit]
        rintro _ ⟨⟩
        dsimp only
        omega
      · exact ⟨level.nonneg, level.le⟩
      · exact fun contradicts => absurd ⟨packet, datagram, within⟩ contradicts
  · obtain ⟨copied, rest⟩ := ethRcv_not_takenUp dramSize taken
    have inside_iff : CopiesInside frame s (ethRcv dramSize localIp frame s) ↔
        (¬ frame.Consistent → (ethRcv dramSize localIp frame s).receiver.dataLen = s.dataLen) := by
      constructor
      · exact fun inside contradicts => (inside.rejected contradicts).2
      · intro rejected
        constructor
        · rw [copied]
          exact fun _ mem => nomatch mem
        · rw [copied]
          exact fun _ mem => nomatch mem
        · exact ⟨level.nonneg, level.le⟩
        · exact fun contradicts => ⟨copied, rejected contradicts⟩
    rw [inside_iff, EthFrame.Harmless, or_iff_not_imp_left]
    apply imp_congr_right
    intro _
    rcases rest with ⟨tftp, wrq, zero, -⟩ | ⟨other, same, -⟩
    · rw [zero]
      constructor
      · exact fun same => ⟨taken, fun restarts => restarts.level same.symm⟩
      · intro h
        by_contra changed
        exact h.2 ⟨tftp, wrq, Ne.symm changed⟩
    · exact iff_of_true same ⟨taken, fun restarts => other ⟨restarts.tftp, restarts.opcode⟩⟩

end Copy

/-- In every run, all copies are inside if and only if all frames are harmless. The size of
the memory is in megabytes, and a processor of 32 bits has less than 4096 of them. -/
theorem tftp_copiesInside_iff (dramSize : ℕ) (localIp : Option ℕ) (mem : Bytes)
    (frames : List EthFrame) (dram : dramSize < 4096) :
    EveryStep (fun frame s => (ethRcv dramSize localIp frame s).receiver)
        (fun frame s => CopiesInside frame s (ethRcv dramSize localIp frame s))
        (.initial mem) frames ↔
      EveryStep (fun frame s => (ethRcv dramSize localIp frame s).receiver)
        (EthFrame.Harmless localIp) (.initial mem) frames := by
  have dram : halfDramSize dramSize < 2 ^ 31 := by
    rw [halfDramSize]
    omega
  apply everyStep_congr Receiver.Bounded
  · exact fun frame s bounded => bounded.receive localIp frame dram
  · exact fun frame s bounded => copiesInside_iff bounded dram
  · exact ⟨le_rfl, le_rfl, Nat.two_pow_pos 31⟩

/-- A TFTP packet to 192.168.1.1 from port 1024 of 192.168.1.2, in a frame of 60 bytes. -/
def tftpFrame (totLen udpLen opcode block : UInt8) : EthFrame where
  bytes i := [0, 0, 0, 0, 0, 0, 0, 0, 0, 0, 0, 0, 8, 0,
    0x45, 0, 0, totLen, 0, 0, 0, 0, 64, 17, 0, 0, 192, 168, 1, 2, 192, 168, 1, 1,
    4, 0, 0, 69, 0, udpLen, 0, 0, 0, opcode, 0, block].getD i 0
  len := 60

/-- A request and a block of three bytes, with lengths that agree. -/
theorem tftp_copiesInside_three :
    EveryStep (fun frame s => (ethRcv 64 none frame s).receiver)
      (fun frame s => CopiesInside frame s (ethRcv 64 none frame s))
      (.initial allOnes) [tftpFrame 46 26 2 0, tftpFrame 35 15 3 1] := by
  apply (tftp_copiesInside_iff 64 none allOnes _ (by decide)).mpr
  have request : (tftpFrame 46 26 2 0).Consistent := by constructor <;> decide
  have block : (tftpFrame 35 15 3 1).Consistent := by constructor <;> decide
  exact ⟨.inl request, .inl block, trivial⟩

/-- The variables when the request has arrived. -/
def requested : Receiver :=
  { Receiver.initial allOnes with
    client := ⟨3232235778, 1024⟩, clientBlock := 1, putBegin := true, limitSize := 33554432 }

/-- The UDP header announces 200 bytes, and the frame has 60: what lies behind it is copied. -/
theorem tftp_copies_behind_frame :
    ¬ EveryStep (fun frame s => (ethRcv 64 none frame s).receiver)
      (fun frame s => CopiesInside frame s (ethRcv 64 none frame s))
      (.initial allOnes) [tftpFrame 46 26 2 0, tftpFrame 35 200 3 1] := by
  rintro ⟨-, inside, -⟩
  have begun : (ethRcv 64 none (tftpFrame 46 26 2 0) (.initial allOnes)).receiver = requested := rfl
  simp only [begun] at inside
  have copied : (ethRcv 64 none (tftpFrame 35 200 3 1) requested).copied = some ⟨46, 188, 0⟩ := by
    decide +kernel
  have within : (46 : ℤ) + 188 ≤ 60 := (inside.source _ copied).2.2
  exact absurd within (by decide)

end En7512.Net
