/-
# The frames of the boot loader

Every layer of the boot loader pushes its header in front of what the layer above has put
into the packet buffer, down to `eth_send`, which pads the frame. The headers are packed
structures, and a peer reads from a frame what the layers have written. What is padded is
zero: nothing that was in the buffer before is sent along.
-/

import En7512.Logic.Records
import En7512.Net.Arp
import En7512.Net.SkBuff
import En7512.Net.TftpFrame

namespace En7512.Net

open En7512.Logic En7512.Nand

/-! ## Headers -/

/-- An `unsigned short`; the processor is big-endian. -/
def u16 : Layout UInt8 (BitVec 16) where
  size := 2
  read b := BitVec.ofNat 16 (u16At b 0)
  write v b := putU16 b 0 v.toNat
  read_write v b := by rw [u16At_putU16 _ _ v.isLt, BitVec.ofNat_toNat, BitVec.setWidth_eq]
  write_beyond _ _ i _ := putU16_of_ne (by omega) (by omega)
  read_congr _ _ same :=
    congrArg (BitVec.ofNat 16) (u16At_congr (same 0 Nat.two_pos) (same 1 Nat.one_lt_two))

/-- A store behind a word leaves it. -/
theorem u16At_putU16_apart {b : Bytes} {i j v : ℕ} (apart : i + 2 ≤ j) :
    u16At (putU16 b j v) i = u16At b i :=
  u16At_congr (putU16_of_ne (by omega) (by omega)) (putU16_of_ne (by omega) (by omega))

/-- An `unsigned long`, an address of the network among others. -/
def u32 : Layout UInt8 (BitVec 32) where
  size := 4
  read b := BitVec.ofNat 32 (ipAt b 0)
  write v b := putU16 (putU16 b 0 (v.toNat / 0x10000)) 2 (v.toNat % 0x10000)
  read_write v b := by
    have low := u16At_putU16 (putU16 b 0 (v.toNat / 0x10000)) 2 (v := v.toNat % 0x10000) (by omega)
    have high := u16At_putU16 b 0 (v := v.toNat / 0x10000) (by omega)
    rw [← u16At_putU16_apart (show 0 + 2 ≤ 2 by decide) (v := v.toNat % 0x10000)] at high
    apply BitVec.eq_of_toNat_eq
    rw [BitVec.toNat_ofNat, ipAt, high, low]
    omega
  write_beyond _ _ i _ := by
    rw [putU16_of_ne (by omega) (by omega), putU16_of_ne (by omega) (by omega)]
  read_congr _ _ same := by
    have high := u16At_congr (same 0 (by decide)) (same 1 (by decide))
    have low := u16At_congr (same 2 (by decide)) (same 3 (by decide))
    rw [ipAt, ipAt, high, low]

/-- An `unsigned char`, as bits. -/
def u8 : Layout UInt8 (BitVec 8) :=
  Layout.cell.rename ⟨UInt8.toBitVec, UInt8.ofBitVec, fun _ => rfl, fun _ => rfl⟩

/-- `ETH_ALEN` bytes. -/
def ethAddr : Layout UInt8 EthAddr := .array 6

/-- `struct ethhdr`. -/
structure EthHdr where
  hDest : EthAddr
  hSource : EthAddr
  hProto : BitVec 16

/-- Where the fields of `struct ethhdr` are. -/
def ethhdr : Layout UInt8 EthHdr :=
  (ethAddr.andThen (ethAddr.andThen u16)).rename
    ⟨fun v => ⟨v.1, v.2.1, v.2.2⟩, fun h => (h.hDest, h.hSource, h.hProto),
      fun _ => rfl, fun _ => rfl⟩

/-- Where the fields of `struct arphdr` are. -/
def arphdr : Layout UInt8 ArpHdr :=
  (u16.andThen (u16.andThen (u8.andThen (u8.andThen (u16.andThen
      (ethAddr.andThen (u32.andThen (ethAddr.andThen u32)))))))).rename
    { toFun := fun (hrd, pro, hln, pln, op, sha, sip, tha, tip) =>
        ⟨hrd, pro, hln, pln, op, sha, sip, tha, tip⟩
      invFun h := (h.arHrd, h.arPro, h.arHln, h.arPln, h.arOp, h.arSha, h.arSip, h.arTha, h.arTip)
      left_inv _ := rfl
      right_inv _ := rfl }

/-- `struct iphdr`. -/
structure IpHdr where
  /-- `version` and `ihl`. -/
  versionIhl : BitVec 8
  tos : BitVec 8
  totLen : BitVec 16
  id : BitVec 16
  fragOff : BitVec 16
  ttl : BitVec 8
  protocol : BitVec 8
  check : BitVec 16
  saddr : IpAddr
  daddr : IpAddr

/-- Where the fields of `struct iphdr` are. -/
def iphdr : Layout UInt8 IpHdr :=
  (u8.andThen (u8.andThen (u16.andThen (u16.andThen (u16.andThen
      (u8.andThen (u8.andThen (u16.andThen (u32.andThen u32))))))))).rename
    { toFun := fun (ver, tos, len, id, frag, ttl, proto, check, saddr, daddr) =>
        ⟨ver, tos, len, id, frag, ttl, proto, check, saddr, daddr⟩
      invFun h := (h.versionIhl, h.tos, h.totLen, h.id, h.fragOff, h.ttl, h.protocol, h.check,
        h.saddr, h.daddr)
      left_inv _ := rfl
      right_inv _ := rfl }

/-- `struct udphdr`. -/
structure UdpHdr where
  source : BitVec 16
  dest : BitVec 16
  len : BitVec 16
  check : BitVec 16

/-- Where the fields of `struct udphdr` are. -/
def udphdr : Layout UInt8 UdpHdr :=
  (u16.andThen (u16.andThen (u16.andThen u16))).rename
    ⟨fun v => ⟨v.1, v.2.1, v.2.2.1, v.2.2.2⟩, fun h => (h.source, h.dest, h.len, h.check),
      fun _ => rfl, fun _ => rfl⟩

/-- `struct tftphdr`. -/
structure TftpHdr where
  thOpcode : BitVec 16
  thBlock : BitVec 16

/-- Where the fields of `struct tftphdr` are. -/
def tftphdr : Layout UInt8 TftpHdr :=
  (u16.andThen u16).rename
    ⟨fun v => ⟨v.1, v.2⟩, fun h => (h.thOpcode, h.thBlock), fun _ => rfl, fun _ => rfl⟩

example : (ethhdr.size, arphdr.size, iphdr.size, udphdr.size, tftphdr.size) =
    (ethhdrSize, 28, iphdrSize, udphdrSize, tftphdrSize) := rfl

/-! ## Packet buffers -/

namespace SkbPool.SkBuff

/-- `skb_reserve`. -/
def reserve (len : ℕ) (skb : SkBuff) : SkBuff := { skb with data := skb.data + len }

/-- `skb_put`. -/
def put (len : ℕ) (skb : SkBuff) : SkBuff := { skb with len := (skb.len + len) % 2 ^ 32 }

/-- `skb_push`. -/
def push (len : ℕ) (skb : SkBuff) : SkBuff :=
  { skb with data := skb.data - len, len := (skb.len + len) % 2 ^ 32 }

/-- The memory at `data`. -/
def atData (skb : SkBuff) : Bytes := fromCell skb.data skb.buf

/-- The memory at `data` is written to. -/
def modifyAt (f : Bytes → Bytes) (skb : SkBuff) : SkBuff :=
  { skb with buf := fun i =>
      if i < skb.data then skb.buf i else f skb.atData (i - skb.data) }

variable {skb : SkBuff} {f : Bytes → Bytes} {n : ℕ}

@[simp] theorem data_modifyAt : (skb.modifyAt f).data = skb.data := rfl

@[simp] theorem len_modifyAt : (skb.modifyAt f).len = skb.len := rfl

@[simp] theorem atData_modifyAt : (skb.modifyAt f).atData = f skb.atData := by
  funext i
  simp [atData, modifyAt, fromCell]

/-- Behind the header that has been pushed is the packet. -/
theorem fromCell_atData_push (room : n ≤ skb.data) :
    fromCell n (skb.push n).atData = skb.atData := by
  rw [atData, fromCell_add, push, Nat.sub_add_cancel room]
  rfl

end SkbPool.SkBuff

/-! ## Sending -/

/-- `ETH_P_ARP`. -/
def ethPArp : ℕ := 0x0806

/-- `ETH_ZLEN`. -/
def ethZlen : ℕ := 60

/-- `eth_send`, up to the frame that it gives to the hardware. -/
def ethSend (localEthAddr dest : EthAddr) (proto : ℕ) (skb : SkbPool.SkBuff) : EthFrame :=
  let skb := skb.push ethhdrSize
  let skb := skb.modifyAt (ethhdr.write ⟨dest, localEthAddr, hton (BitVec.ofNat 16 proto)⟩)
  if skb.len < ethZlen then
    ⟨overlay skb.atData skb.len (fun _ => 0) (ethZlen - skb.len), ethZlen⟩
  else ⟨skb.atData, skb.len⟩

/-- The packet that `arp_send_req` and `arp_send_rsp` send. -/
def arpFrame (localEthAddr dest : EthAddr) (hdr : ArpHdr) : EthFrame :=
  let skb := (skbHeaderinit 1).reserve ethhdrSize
  let skb := (skb.put arphdr.size).modifyAt (arphdr.write hdr)
  ethSend localEthAddr dest ethPArp skb

/-! ## What is in the frames -/

/-- The protocol of a frame. -/
theorem proto_of_read {frame : EthFrame} {proto : ℕ} (small : proto < 2 ^ 16)
    (read : (ethhdr.read frame.bytes).hProto = BitVec.ofNat 16 proto) :
    u16At frame.bytes 12 = proto := by
  have value : BitVec.ofNat 16 (u16At frame.bytes 12) = BitVec.ofNat 16 proto := read
  have word := congrArg BitVec.toNat value
  rw [BitVec.toNat_ofNat, BitVec.toNat_ofNat, Nat.mod_eq_of_lt (u16At_lt _ _),
    Nat.mod_eq_of_lt small] at word
  exact word

/-- The frame is the packet behind the header, with zeros up to the least length. -/
structure EthFrame.Wraps (frame : EthFrame) (hdr : EthHdr) (packet : Bytes) (len : ℕ) : Prop where
  hdr : ethhdr.read frame.bytes = hdr
  packet : ∀ i < len, fromCell ethhdrSize frame.bytes i = packet i
  padding : ∀ i, len ≤ i → ethhdrSize + i < frame.len → fromCell ethhdrSize frame.bytes i = 0
  len : frame.len = max ethZlen (len + ethhdrSize)

/-- A frame with this ARP packet. -/
structure EthFrame.CarriesArp (frame : EthFrame) (source dest : EthAddr) (hdr : ArpHdr) : Prop where
  eth : ethhdr.read frame.bytes = ⟨dest, source, BitVec.ofNat 16 ethPArp⟩
  arp : arphdr.read (fromCell ethhdrSize frame.bytes) = hdr
  padding : ∀ i, arphdr.size ≤ i → ethhdrSize + i < frame.len →
    fromCell ethhdrSize frame.bytes i = 0
  len : frame.len = ethZlen

/-- A frame with an IP packet, whose data are these bytes. -/
structure EthFrame.CarriesIp (frame : EthFrame) (source dest : EthAddr) (saddr daddr : IpAddr)
    (id : BitVec 16) (proto : UInt8) (packet : Bytes) (len : ℕ) : Prop where
  eth : ethhdr.read frame.bytes = ⟨dest, source, BitVec.ofNat 16 ethPIp⟩
  ip : ∃ check, iphdr.read (fromCell ethhdrSize frame.bytes) =
    ⟨0x45, 0, BitVec.ofNat 16 (len + iphdrSize), id, 0, 20, proto.toBitVec, check, saddr, daddr⟩
  verifies : inCsum (fromCell ethhdrSize frame.bytes) iphdrSize = some 0
  packet : ∀ i < len, fromCell (ethhdrSize + iphdrSize) frame.bytes i = packet i
  padding : ∀ i, len + iphdrSize ≤ i → ethhdrSize + i < frame.len →
    fromCell ethhdrSize frame.bytes i = 0
  len : frame.len = max ethZlen (len + iphdrSize + ethhdrSize)

section Send

variable {skb : SkbPool.SkBuff}

/-- `eth_send` keeps the packet. -/
theorem wraps_ethSend (source dest : EthAddr) (proto : ℕ) (room : ethhdrSize ≤ skb.data)
    (small : skb.len < 2 ^ 16) :
    (ethSend source dest proto skb).Wraps ⟨dest, source, BitVec.ofNat 16 proto⟩ skb.atData
      skb.len := by
  have len : (skb.push ethhdrSize).len = skb.len + ethhdrSize := by
    simp only [SkbPool.SkBuff.push, ethhdrSize]
    omega
  generalize written : (skb.push ethhdrSize).modifyAt
    (ethhdr.write ⟨dest, source, hton (BitVec.ofNat 16 proto)⟩) = skb'
  have len' : skb'.len = skb.len + ethhdrSize := by
    rw [← written, SkbPool.SkBuff.len_modifyAt, len]
  have hdr : ethhdr.read skb'.atData = ⟨dest, source, BitVec.ofNat 16 proto⟩ := by
    rw [← written, SkbPool.SkBuff.atData_modifyAt, Layout.read_write]
    rfl
  have packet : fromCell ethhdrSize skb'.atData = skb.atData := by
    rw [← written, SkbPool.SkBuff.atData_modifyAt, Layout.fromCell_write ethhdr (by decide),
      SkbPool.SkBuff.fromCell_atData_push room]
  rw [ethSend, written]
  by_cases short : skb'.len < ethZlen
  · rw [if_pos short]
    have kept : ∀ i < skb'.len,
        overlay skb'.atData skb'.len (fun _ => 0) (ethZlen - skb'.len) i = skb'.atData i :=
      fun i inside => overlay_of_not_mem (by omega)
    have zero : ∀ i, skb'.len ≤ i → i < ethZlen →
        overlay skb'.atData skb'.len (fun _ => 0) (ethZlen - skb'.len) i = 0 :=
      fun i behind within => overlay_of_mem (by omega)
    constructor
    · rw [← hdr]
      apply ethhdr.read_congr
      intro i inside
      have inside : i < ethhdrSize := inside
      exact kept i (by omega)
    · intro i inside
      rw [← packet]
      exact kept _ (by omega)
    · exact fun i behind within => zero _ (by omega) within
    · dsimp only
      omega
  · rw [if_neg short]
    constructor
    · exact hdr
    · exact fun i _ => congrFun packet i
    · intro i behind within
      dsimp only at within
      omega
    · dsimp only
      omega

/-- The packet of a frame can be read as the sender wrote it. -/
theorem EthFrame.Wraps.read {frame : EthFrame} {hdr : EthHdr} {packet : Bytes} {len k : ℕ}
    {α : Type} (wraps : frame.Wraps hdr packet len) (l : Layout UInt8 α) (fits : k + l.size ≤ len) :
    l.read (fromCell (ethhdrSize + k) frame.bytes) = l.read (fromCell k packet) := by
  apply l.read_congr
  intro i inside
  rw [← fromCell_add]
  exact wraps.packet (k + i) (by omega)

theorem carriesArp_arpFrame (source dest : EthAddr) (hdr : ArpHdr) :
    (arpFrame source dest hdr).CarriesArp source dest hdr := by
  generalize written : (((skbHeaderinit 1).reserve ethhdrSize).put arphdr.size).modifyAt
    (arphdr.write hdr) = skb
  have len : skb.len = arphdr.size := by
    rw [← written]
    rfl
  have data : skb.data = ethhdrSize := by
    rw [← written]
    rfl
  have wraps : (arpFrame source dest hdr).Wraps ⟨dest, source, BitVec.ofNat 16 ethPArp⟩ skb.atData
      skb.len := by
    rw [arpFrame, written]
    exact wraps_ethSend source dest ethPArp data.ge (by rw [len]; decide)
  constructor
  · exact wraps.hdr
  · have read := wraps.read arphdr (k := 0) (by rw [len, Nat.zero_add])
    rw [Nat.add_zero] at read
    rw [read, fromCell_zero, ← written, SkbPool.SkBuff.atData_modifyAt, Layout.read_write]
  · rw [← len]
    exact wraps.padding
  · rw [wraps.len, len]
    rfl

end Send

/-- The last store of `ip_send` into the header is the checksum. -/
theorem exists_check {skb hdr : Bytes} {len : ℕ} {ipId : BitVec 16} {proto : UInt8}
    {localIp ip : BitVec 32} (computed : ipSendHdr skb len ipId proto localIp ip = some hdr) :
    ∃ check : BitVec 16,
      putU16 (ipHdr skb len ipId proto localIp ip) checkOffset check.toNat = hdr := by
  rw [ipSendHdr, Option.bind_eq_bind, Option.bind_eq_some_iff] at computed
  obtain ⟨check, -, stored⟩ := computed
  exact ⟨check, Option.some.inj stored⟩

/-- What `ip_send` puts into the header. -/
theorem read_ipSendHdr {skb hdr : Bytes} {len : ℕ} {ipId : BitVec 16} {proto : UInt8}
    {localIp ip : BitVec 32} (computed : ipSendHdr skb len ipId proto localIp ip = some hdr) :
    ∃ check, iphdr.read hdr = ⟨0x45, 0, BitVec.ofNat 16 len, ipId, 0, 20, proto.toBitVec, check,
      localIp, ip⟩ := by
  obtain ⟨check, rfl⟩ := exists_check computed
  have word (v : BitVec 16) :
      BitVec.ofNat 16 (v.toNat / 256 % 256 * 256 + v.toNat % 256) = v := by
    apply BitVec.eq_of_toNat_eq
    rw [BitVec.toNat_ofNat]
    omega
  have long (v : BitVec 32) : BitVec.ofNat 32
      ((v.toNat / 65536 / 256 % 256 * 256 + v.toNat / 65536 % 256) * 65536 +
        (v.toNat % 65536 / 256 % 256 * 256 + v.toNat % 256)) = v := by
    apply BitVec.eq_of_toNat_eq
    rw [BitVec.toNat_ofNat]
    omega
  have length : BitVec.ofNat 16 (len % 65536 / 256 % 256 * 256 + len % 256) =
      BitVec.ofNat 16 len := by
    apply BitVec.eq_of_toNat_eq
    rw [BitVec.toNat_ofNat, BitVec.toNat_ofNat]
    omega
  refine ⟨check, ?_⟩
  simp [iphdr, Layout.rename, Layout.andThen, Layout.cell, u8, u16, u32, fromCell, ipHdr, putU16,
    u16At, ipAt, checkOffset, word, long, length]

section Header

variable {skb hdr ptr ptr' : Bytes} {len nbytes i : ℕ} {ipId : BitVec 16} {proto : UInt8}
  {localIp ip : BitVec 32}

/-- `in_csum` looks at the bytes it is given. -/
theorem inCsum_congr (small : nbytes ≤ 65535) (same : ∀ i < nbytes, ptr i = ptr' i) :
    inCsum ptr nbytes = inCsum ptr' nbytes := by
  have blanked : (fun i => if i < nbytes then ptr i else 0) =
      fun i => if i < nbytes then ptr' i else 0 := by
    funext i
    by_cases inside : i < nbytes
    · rw [if_pos inside, if_pos inside, same i inside]
    · rw [if_neg inside, if_neg inside]
  have words : csumWord ptr nbytes = csumWord ptr' nbytes := by
    funext k
    rw [csumWord, csumWord, blanked]
  rw [inCsum_eq small, inCsum_eq small, onesComplementSum, onesComplementSum, words]

/-- `ip_send` always has a header to send, and it verifies. -/
theorem ipSendHdr_verifies (skb : Bytes) (len : ℕ) (ipId : BitVec 16) (proto : UInt8)
    (localIp ip : BitVec 32) :
    ∃ hdr, ipSendHdr skb len ipId proto localIp ip = some hdr ∧ inCsum hdr iphdrSize = some 0 := by
  have size : iphdrSize ≤ 65535 := by decide
  have blank : u16At (ipHdr skb len ipId proto localIp ip) (2 * 5) = 0 := u16At_ipHdr ..
  refine ⟨_, ?_, inCsum_verifies size (by decide) blank (inCsum_eq size)⟩
  rw [ipSendHdr, inCsum_eq size]
  rfl

/-- The header has twenty bytes. -/
theorem ipSendHdr_beyond (computed : ipSendHdr skb len ipId proto localIp ip = some hdr)
    (beyond : iphdrSize ≤ i) : hdr i = skb i := by
  obtain ⟨check, rfl⟩ := exists_check computed
  have far (k : ℕ) (small : k < 20) : i ≠ k := by
    rw [iphdrSize] at beyond
    omega
  simp [ipHdr, putU16, checkOffset, far]

end Header

section Layers

variable {skb : SkbPool.SkBuff} {source dest : EthAddr} {saddr daddr : IpAddr} {id : BitVec 16}
  {proto : UInt8}

/-- `ip_send` keeps the packet. -/
theorem exists_carriesIp (source dest : EthAddr) (saddr daddr : IpAddr) (id : BitVec 16)
    (proto : UInt8) (room : ethhdrSize + iphdrSize ≤ skb.data) (small : skb.len < 2 ^ 15) :
    ∃ hdr, ipSendHdr (skb.push iphdrSize).atData (skb.push iphdrSize).len id proto saddr daddr =
        some hdr ∧
      (ethSend source dest ethPIp ((skb.push iphdrSize).modifyAt fun _ => hdr)).CarriesIp source
        dest saddr daddr id proto skb.atData skb.len := by
  have len : (skb.push iphdrSize).len = skb.len + iphdrSize := by
    simp only [SkbPool.SkBuff.push, iphdrSize]
    omega
  have data : ethhdrSize ≤ (skb.push iphdrSize).data := Nat.le_sub_of_add_le room
  have behind : fromCell iphdrSize (skb.push iphdrSize).atData = skb.atData :=
    SkbPool.SkBuff.fromCell_atData_push (le_trans (Nat.le_add_left _ _) room)
  generalize skb.push iphdrSize = packet at len data behind ⊢
  obtain ⟨hdr, computed, verifies⟩ :=
    ipSendHdr_verifies packet.atData packet.len id proto saddr daddr
  have beyond : fromCell iphdrSize hdr = skb.atData := by
    rw [← behind]
    funext i
    show hdr (iphdrSize + i) = packet.atData (iphdrSize + i)
    exact ipSendHdr_beyond computed (Nat.le_add_right _ _)
  have data' : ethhdrSize ≤ (packet.modifyAt fun _ => hdr).data := data
  have wraps := wraps_ethSend source dest ethPIp data' (by
    simp only [SkbPool.SkBuff.len_modifyAt, len, iphdrSize]
    omega)
  rw [SkbPool.SkBuff.atData_modifyAt, SkbPool.SkBuff.len_modifyAt, len] at wraps
  refine ⟨hdr, computed, ?_⟩
  constructor
  · exact wraps.hdr
  · obtain ⟨check, read⟩ := read_ipSendHdr computed
    have ip := wraps.read iphdr (k := 0) (Nat.add_le_add_right (Nat.zero_le _) _)
    rw [Nat.add_zero, fromCell_zero, read, len] at ip
    exact ⟨check, ip⟩
  · rw [← verifies]
    apply inCsum_congr (by decide)
    exact fun i inside => wraps.packet i (Nat.lt_add_left _ inside)
  · intro i inside
    rw [← fromCell_add, ← beyond]
    exact wraps.packet (iphdrSize + i) (by omega)
  · exact wraps.padding
  · exact wraps.len

/-- The packet of a frame can be read as the sender wrote it. -/
theorem EthFrame.CarriesIp.read {frame : EthFrame} {packet : Bytes} {len k : ℕ} {α : Type}
    (carries : frame.CarriesIp source dest saddr daddr id proto packet len) (l : Layout UInt8 α)
    (fits : k + l.size ≤ len) :
    l.read (fromCell (ethhdrSize + iphdrSize + k) frame.bytes) = l.read (fromCell k packet) := by
  apply l.read_congr
  intro i inside
  rw [← fromCell_add]
  exact carries.packet (k + i) (by omega)

end Layers

end En7512.Net
