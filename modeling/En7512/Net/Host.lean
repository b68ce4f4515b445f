/-
# The boot loader on the network

`Host` has the variables of all layers together. It is driven by the frames that arrive:
ARP packets go to the cache, and packets for the TFTP server may be acknowledged, if the
address of the client is in the cache. Whatever arrives, the frames it sends are what its
peers can read. What is sent is what `eth_send` is called with: the layers above it do not look
at the result of `tc3162_eth_send`, and `alloc_skb` is taken to find a free buffer.
-/

import En7512.Net.Frames

namespace En7512.Net

open En7512.Logic En7512.Nand

/-- `ACK`. -/
def opcodeAck : ℕ := 4

/-- The variables of the layers, and the frames that have been sent. -/
structure Host where
  /-- `local_eth_addr`. -/
  localEthAddr : EthAddr
  /-- `local_ip`. -/
  localIp : IpAddr
  /-- `ip_id`. -/
  ipId : BitVec 16
  /-- The packets that the ARP layer gives to `eth_send` are in `sent`. -/
  arp : Arp
  receiver : Receiver
  sent : List EthFrame

/-- The length of the copy is not negative. As a `size_t` a negative one stands for nearly the
whole address space. -/
def FrameHandled.Returns (handled : FrameHandled) : Prop := ∀ c ∈ handled.copied, 0 ≤ c.len

instance (handled : FrameHandled) : Decidable handled.Returns :=
  inferInstanceAs (Decidable (∀ c ∈ handled.copied, 0 ≤ c.len))

namespace Host

/-- The ARP layer has run, and its packets have been sent. -/
def arpDone (arp : Arp) (h : Host) : Host :=
  { h with
    arp := { arp with sent := [] }
    sent := h.sent ++ arp.sent.map fun p => arpFrame h.localEthAddr p.1 p.2 }

/-- `ip_send`, as long as `in_csum` does not overflow. What is in `dest_eth_addr` at first does
not matter. -/
def ipSend (skb : SkbPool.SkBuff) (ip : IpAddr) (proto : UInt8) (h : Host) : Option Host :=
  let found := h.arp.arpGetEthAddr ip zeroAddr
  let h := h.arpDone found.2
  if found.1.1 ≠ 0 then some h
  else do
    let skb := skb.push iphdrSize
    let hdr ← ipSendHdr skb.atData skb.len h.ipId proto h.localIp ip
    return { h with
      ipId := h.ipId + 1
      sent := h.sent ++ [ethSend h.localEthAddr found.1.2 ethPIp (skb.modifyAt fun _ => hdr)] }

/-- `udp_send`. The length is that of an acknowledgement, whatever is sent. -/
def udpSend (skb : SkbPool.SkBuff) (ip : IpAddr) (source dest : BitVec 16) (h : Host) :
    Option Host :=
  let skb := skb.push udphdrSize
  let skb := skb.modifyAt (udphdr.write ⟨hton source, hton dest, hton 12, 0⟩)
  h.ipSend skb ip (UInt8.ofNat udpProtocol)

/-- `tftp_send_ack`, with `client_ip` and `client_port`. -/
def tftpSendAck (ack : AckPacket) (h : Host) : Option Host :=
  let skb := (((skbHeaderinit 1).reserve ethhdrSize).reserve iphdrSize).reserve udphdrSize
  let skb := skb.put tftphdrSize
  let skb := skb.modifyAt (tftphdr.write
    ⟨hton (BitVec.ofNat 16 opcodeAck), hton (BitVec.ofNat 16 ack.block)⟩)
  h.udpSend skb (BitVec.ofNat 32 ack.dest.ip) (BitVec.ofNat 16 tftpPort)
    (BitVec.ofNat 16 ack.dest.port)

/-- `eth_rcv`. The acknowledgement is sent when the variables have been changed; neither
looks at what the other does. A `memcpy` of a negative length does not return. -/
def ethRcv (dramSize : ℕ) (frame : EthFrame) (h : Host) : Option Host :=
  if u16At frame.bytes 12 = ethPArp then
    some (h.arpDone (h.arp.arpRcvPacket (arphdr.read (fromCell ethhdrSize frame.bytes))))
  else
    let handled := Net.ethRcv dramSize (some h.localIp.toNat) frame h.receiver
    if handled.Returns then
      let h := { h with receiver := handled.receiver }
      match handled.reply with
      | none => some h
      | some ack => h.tftpSendAck ack
    else none

/-- The frames arrive one after the other. -/
def receiveAll (dramSize : ℕ) : List EthFrame → Host → Option Host
  | [], h => some h
  | frame :: frames, h => do
      let h ← h.ethRcv dramSize frame
      h.receiveAll dramSize frames

end Host

/-! ## The acknowledgements -/

/-- A frame with this acknowledgement, from the TFTP port of `saddr`. -/
structure EthFrame.CarriesAck (frame : EthFrame) (source dest : EthAddr) (saddr : IpAddr)
    (id : BitVec 16) (ack : AckPacket) : Prop where
  eth : ethhdr.read frame.bytes = ⟨dest, source, BitVec.ofNat 16 ethPIp⟩
  ip : ∃ check, iphdr.read (fromCell ethhdrSize frame.bytes) =
    ⟨0x45, 0, 32, id, 0, 20, 17, check, saddr, BitVec.ofNat 32 ack.dest.ip⟩
  verifies : inCsum (fromCell ethhdrSize frame.bytes) iphdrSize = some 0
  udp : udphdr.read (fromCell (ethhdrSize + iphdrSize) frame.bytes) =
    ⟨BitVec.ofNat 16 tftpPort, BitVec.ofNat 16 ack.dest.port, 12, 0⟩
  tftp : tftphdr.read (fromCell (ethhdrSize + iphdrSize + udphdrSize) frame.bytes) =
    ⟨BitVec.ofNat 16 opcodeAck, BitVec.ofNat 16 ack.block⟩
  padding : ∀ i, 12 + iphdrSize ≤ i → ethhdrSize + i < frame.len →
    fromCell ethhdrSize frame.bytes i = 0
  len : frame.len = ethZlen

namespace Host

/-- The packet of `tftp_send_ack`, up to `udp_send`. -/
def ackPacket (ack : AckPacket) : SkbPool.SkBuff :=
  let skb := (((skbHeaderinit 1).reserve ethhdrSize).reserve iphdrSize).reserve udphdrSize
  let skb := (skb.put tftphdrSize).modifyAt (tftphdr.write
    ⟨BitVec.ofNat 16 opcodeAck, BitVec.ofNat 16 ack.block⟩)
  (skb.push udphdrSize).modifyAt (udphdr.write
    ⟨BitVec.ofNat 16 tftpPort, BitVec.ofNat 16 ack.dest.port, 12, 0⟩)

theorem tftpSendAck_eq (ack : AckPacket) (h : Host) :
    h.tftpSendAck ack =
      h.ipSend (ackPacket ack) (BitVec.ofNat 32 ack.dest.ip) (UInt8.ofNat udpProtocol) := rfl

/-- Both headers are in the packet. -/
theorem read_ackPacket (ack : AckPacket) :
    udphdr.read (ackPacket ack).atData =
        ⟨BitVec.ofNat 16 tftpPort, BitVec.ofNat 16 ack.dest.port, 12, 0⟩ ∧
      tftphdr.read (fromCell udphdrSize (ackPacket ack).atData) =
        ⟨BitVec.ofNat 16 opcodeAck, BitVec.ofNat 16 ack.block⟩ := by
  rw [ackPacket, SkbPool.SkBuff.atData_modifyAt, Layout.read_write]
  use rfl
  rw [Layout.fromCell_write udphdr (k := udphdrSize) (by decide),
    SkbPool.SkBuff.fromCell_atData_push (Nat.le_add_left _ _),
    SkbPool.SkBuff.atData_modifyAt, Layout.read_write]

end Host

/-- The frame of that packet. -/
theorem EthFrame.CarriesIp.ack {frame : EthFrame} {source dest : EthAddr} {saddr : IpAddr}
    {id : BitVec 16} {ack : AckPacket}
    (carries : frame.CarriesIp source dest saddr (BitVec.ofNat 32 ack.dest.ip) id
      (UInt8.ofNat udpProtocol) (Host.ackPacket ack).atData (Host.ackPacket ack).len) :
    frame.CarriesAck source dest saddr id ack := by
  obtain ⟨udp, tftp⟩ := Host.read_ackPacket ack
  have len : (Host.ackPacket ack).len = 12 := rfl
  have total : BitVec.ofNat 16 (12 + iphdrSize) = 32 := rfl
  have proto : (UInt8.ofNat udpProtocol).toBitVec = 17 := rfl
  rw [len] at carries
  constructor
  · exact carries.eth
  · rw [← total, ← proto]
    exact carries.ip
  · exact carries.verifies
  · have read := carries.read udphdr (k := 0) (by decide)
    rw [Nat.add_zero, fromCell_zero, udp] at read
    exact read
  · rw [← tftp]
    exact carries.read tftphdr (by decide)
  · exact carries.padding
  · exact carries.len

/-! ## What becomes of a frame -/

namespace Arp

variable {s : Arp} {hdr : ArpHdr} {ha : EthAddr} {ip : IpAddr} {packets : List (EthAddr × ArpHdr)}

/-- The cache is kept apart from the packets. -/
theorem arpAddCache_with_sent :
    ({ s with sent := packets } : Arp).arpAddCache ha ip =
      { s.arpAddCache ha ip with sent := packets } := by
  have same : ({ s with sent := packets } : Arp).findEntry ip = s.findEntry ip := rfl
  rw [arpAddCache, arpAddCache, same]
  cases s.findEntry ip with
  | none => rfl
  | some i => rfl

@[simp] theorem sent_arpAddCache : (s.arpAddCache ha ip).sent = s.sent := by
  rw [arpAddCache]
  cases s.findEntry ip with
  | none => rfl
  | some i => rfl

@[simp] theorem arpEntrys_arpAddCache : (s.arpAddCache ha ip).arpEntrys = s.arpEntrys := by
  rw [arpAddCache]
  cases s.findEntry ip with
  | none => rfl
  | some i => rfl

end Arp

/-- The ARP packet in a frame. -/
def EthFrame.arp (frame : EthFrame) : ArpHdr := arphdr.read (fromCell ethhdrSize frame.bytes)

/-- The answer of the TFTP server to a frame. -/
def Host.answer (dramSize : ℕ) (frame : EthFrame) (h : Host) : FrameHandled :=
  Net.ethRcv dramSize (some h.localIp.toNat) frame h.receiver

/-- The acknowledgement of the frame is lost, and the address of the client is asked for. -/
def Host.asking (dramSize : ℕ) (frame : EthFrame) (ip : IpAddr) (h : Host) : Host :=
  { h with
    receiver := (h.answer dramSize frame).receiver
    sent := h.sent ++ [arpFrame h.localEthAddr broadcast (h.arp.arpReq ip)] }

/-- The frame is a block that the server takes up, and the UDP header leaves no room for the
header of the packet. -/
def Host.Stuck (frame : EthFrame) (h : Host) : Prop :=
  frame.TakenUp (some h.localIp.toNat) h.receiver ∧ frame.udpLen < 12

/-- What `eth_rcv` does. -/
inductive Host.Receives (dramSize : ℕ) (frame : EthFrame) (h : Host) : Host → Prop
  /-- The ARP packet is for somebody else. -/
  | elsewhere (isArp : u16At frame.bytes 12 = ethPArp)
      (other : frame.arp.arTip ≠ h.arp.arpEntrys.arIp) : Receives dramSize frame h h
  /-- An ARP request is answered. -/
  | asked (isArp : u16At frame.bytes 12 = ethPArp)
      (own : frame.arp.arTip = h.arp.arpEntrys.arIp)
      (request : frame.arp.arOp = hton arpopRequest) : Receives dramSize frame h
        { h with
          arp := h.arp.arpAddCache frame.arp.arSha frame.arp.arSip
          sent := h.sent ++ [arpFrame h.localEthAddr frame.arp.arSha (h.arp.arpRsp frame.arp)] }
  /-- Any other ARP packet is noted. -/
  | told (isArp : u16At frame.bytes 12 = ethPArp)
      (own : frame.arp.arTip = h.arp.arpEntrys.arIp)
      (other : frame.arp.arOp ≠ hton arpopRequest) : Receives dramSize frame h
        { h with arp := h.arp.arpAddCache frame.arp.arSha frame.arp.arSip }
  /-- There is nothing to acknowledge. -/
  | silent (noArp : u16At frame.bytes 12 ≠ ethPArp)
      (reply : (h.answer dramSize frame).reply = none) : Receives dramSize frame h
        { h with receiver := (h.answer dramSize frame).receiver }
  /-- The address of the client is not known: the acknowledgement is lost. -/
  | unknown {ack : AckPacket} (noArp : u16At frame.bytes 12 ≠ ethPArp)
      (reply : (h.answer dramSize frame).reply = some ack)
      (missing : h.arp.findEntry (BitVec.ofNat 32 ack.dest.ip) = none) :
      Receives dramSize frame h (h.asking dramSize frame (BitVec.ofNat 32 ack.dest.ip))
  /-- The acknowledgement is sent. -/
  | acknowledged {ack : AckPacket} {i : Fin arpCacheSize} {answer : EthFrame}
      (noArp : u16At frame.bytes 12 ≠ ethPArp)
      (reply : (h.answer dramSize frame).reply = some ack)
      (found : h.arp.findEntry (BitVec.ofNat 32 ack.dest.ip) = some i)
      (carries : answer.CarriesAck h.localEthAddr (h.arp.arpCache i).arHa h.localIp h.ipId ack) :
      Receives dramSize frame h { h with
        receiver := (h.answer dramSize frame).receiver
        ipId := h.ipId + 1
        sent := h.sent ++ [answer] }

namespace Host

section

variable {h h' : Host} {ack : AckPacket} {dramSize : ℕ} {frame : EthFrame}
  {packets : List (EthAddr × ArpHdr)}

/-- When the ARP layer has run, it holds no packets. -/
theorem arpDone_with_sent (arp : Arp) (quiet : arp.sent = []) (h : Host) :
    h.arpDone { arp with sent := packets } =
      { h with
        arp := arp
        sent := h.sent ++ packets.map fun p => arpFrame h.localEthAddr p.1 p.2 } := by
  rw [arpDone, ← quiet]

theorem arpDone_quiet {arp : Arp} (quiet : arp.sent = []) (h : Host) :
    h.arpDone arp = { h with arp := arp } := by
  have same : ({ arp with sent := [] } : Arp) = arp := by rw [← quiet]
  rw [← same, arpDone_with_sent arp quiet h, List.map_nil, List.append_nil, same]

/-- An acknowledgement to an address that is not known becomes a request. -/
theorem tftpSendAck_missing (quiet : h.arp.sent = [])
    (missing : h.arp.findEntry (BitVec.ofNat 32 ack.dest.ip) = none) :
    h.tftpSendAck ack = some { h with
      sent := h.sent ++ [arpFrame h.localEthAddr broadcast
        (h.arp.arpReq (BitVec.ofNat 32 ack.dest.ip))] } := by
  have lookup : h.arp.arpGetEthAddr (BitVec.ofNat 32 ack.dest.ip) zeroAddr =
      ((-1, zeroAddr), { h.arp with
        sent := [(broadcast, h.arp.arpReq (BitVec.ofNat 32 ack.dest.ip))] }) := by
    rw [Arp.arpGetEthAddr, hton, missing, Arp.arpSendReq, quiet]
    rfl
  rw [tftpSendAck_eq, ipSend, lookup, arpDone_with_sent h.arp quiet h]
  rfl

/-- An acknowledgement to an address that is known is sent there. -/
theorem tftpSendAck_found {i : Fin arpCacheSize} (quiet : h.arp.sent = [])
    (found : h.arp.findEntry (BitVec.ofNat 32 ack.dest.ip) = some i) :
    ∃ answer : EthFrame,
      answer.CarriesAck h.localEthAddr (h.arp.arpCache i).arHa h.localIp h.ipId ack ∧
        h.tftpSendAck ack =
          some { h with ipId := h.ipId + 1, sent := h.sent ++ [answer] } := by
  have lookup : h.arp.arpGetEthAddr (BitVec.ofNat 32 ack.dest.ip) zeroAddr =
      ((0, (h.arp.arpCache i).arHa), h.arp) := by
    rw [Arp.arpGetEthAddr, hton, found]
  have data : ethhdrSize + iphdrSize ≤ (ackPacket ack).data := le_rfl
  have small : (ackPacket ack).len < 2 ^ 15 := show 12 < 2 ^ 15 by decide
  obtain ⟨hdr, computed, carries⟩ := exists_carriesIp h.localEthAddr (h.arp.arpCache i).arHa
    h.localIp (BitVec.ofNat 32 ack.dest.ip) h.ipId (UInt8.ofNat udpProtocol) data small
  use ethSend h.localEthAddr (h.arp.arpCache i).arHa ethPIp
    (((ackPacket ack).push iphdrSize).modifyAt fun _ => hdr), carries.ack
  rw [tftpSendAck_eq, ipSend, lookup]
  dsimp only
  rw [if_neg (not_not.mpr rfl), arpDone_quiet quiet h, computed]
  rfl

/-- The TFTP server answers no ARP packet. -/
theorem noArp_of_reply (reply : (h.answer dramSize frame).reply = some ack) :
    u16At frame.bytes 12 ≠ ethPArp := by
  intro isArp
  have other : ¬ u16At frame.bytes 12 = ethPIp := by
    rw [isArp]
    decide
  rw [answer, Net.ethRcv, if_neg other] at reply
  cases reply

/-- The server takes up nothing from an ARP packet. -/
theorem noArp_of_stuck (stuck : h.Stuck frame) : u16At frame.bytes 12 ≠ ethPArp := by
  rw [stuck.1.tftp.1]
  decide

theorem not_stuck_of_room (room : 12 ≤ frame.udpLen) : ¬ h.Stuck frame :=
  fun stuck => absurd stuck.2 (Nat.not_lt.mpr room)

/-- The copy of a frame has a negative length in one case only. -/
theorem returns_answer : (h.answer dramSize frame).Returns ↔ ¬ h.Stuck frame := by
  rw [answer, FrameHandled.Returns]
  by_cases taken : frame.TakenUp (some h.localIp.toNat) h.receiver
  · rw [(ethRcv_takenUp dramSize taken).1]
    constructor
    · intro whole stuck
      have long : 0 ≤ (frame.udpLen : ℤ) - 12 := whole _ rfl
      have short := stuck.2
      omega
    · rintro free c ⟨⟩
      have long : ¬ frame.udpLen < 12 := fun short => free ⟨taken, short⟩
      show 0 ≤ (frame.udpLen : ℤ) - 12
      omega
  · rw [(ethRcv_not_takenUp dramSize taken).1]
    exact ⟨fun _ stuck => taken stuck.1, fun _ c none => absurd none (Option.not_mem_none c)⟩

/-- A frame whose copy does not come to its end. -/
theorem ethRcv_of_stuck (stuck : h.Stuck frame) : h.ethRcv dramSize frame = none := by
  have endless : ¬ (h.answer dramSize frame).Returns := fun returns => returns_answer.mp returns stuck
  rw [ethRcv, if_neg (noArp_of_stuck stuck)]
  exact if_neg endless

/-- A frame that is not acknowledged. -/
theorem ethRcv_of_none (noArp : u16At frame.bytes 12 ≠ ethPArp) (free : ¬ h.Stuck frame)
    (reply : (h.answer dramSize frame).reply = none) :
    h.ethRcv dramSize frame = some { h with receiver := (h.answer dramSize frame).receiver } := by
  have returns : (Net.ethRcv dramSize (some h.localIp.toNat) frame h.receiver).Returns :=
    returns_answer.mpr free
  have reply' : (Net.ethRcv dramSize (some h.localIp.toNat) frame h.receiver).reply = none := reply
  rw [ethRcv, if_neg noArp]
  dsimp only
  rw [if_pos returns, reply']
  rfl

/-- A frame that is acknowledged. -/
theorem ethRcv_of_some (free : ¬ h.Stuck frame)
    (reply : (h.answer dramSize frame).reply = some ack) :
    h.ethRcv dramSize frame =
      tftpSendAck ack { h with receiver := (h.answer dramSize frame).receiver } := by
  have returns : (Net.ethRcv dramSize (some h.localIp.toNat) frame h.receiver).Returns :=
    returns_answer.mpr free
  have reply' : (Net.ethRcv dramSize (some h.localIp.toNat) frame h.receiver).reply = some ack :=
    reply
  rw [ethRcv, if_neg (noArp_of_reply reply)]
  dsimp only
  rw [if_pos returns, reply']
  rfl

/-- A client whose address is not known gets no acknowledgement, but is asked for. -/
theorem ethRcv_missing {ip : IpAddr} (quiet : h.arp.sent = []) (free : ¬ h.Stuck frame)
    (reply : (h.answer dramSize frame).reply = some ack)
    (client : BitVec.ofNat 32 ack.dest.ip = ip) (missing : h.arp.findEntry ip = none) :
    h.ethRcv dramSize frame = some (h.asking dramSize frame ip) := by
  subst client
  rw [ethRcv_of_some free reply]
  exact tftpSendAck_missing quiet missing

/-- A client whose address is known gets its acknowledgement. -/
theorem ethRcv_acknowledges {i : Fin arpCacheSize} (quiet : h.arp.sent = [])
    (free : ¬ h.Stuck frame) (reply : (h.answer dramSize frame).reply = some ack)
    (found : h.arp.findEntry (BitVec.ofNat 32 ack.dest.ip) = some i) :
    ∃ answer : EthFrame,
      answer.CarriesAck h.localEthAddr (h.arp.arpCache i).arHa h.localIp h.ipId ack ∧
        h.ethRcv dramSize frame = some { h with
          receiver := (h.answer dramSize frame).receiver
          ipId := h.ipId + 1
          sent := h.sent ++ [answer] } := by
  rw [ethRcv_of_some free reply]
  exact tftpSendAck_found (h := { h with receiver := (h.answer dramSize frame).receiver }) quiet
    found

/-- `eth_rcv` comes to its end, except for one kind of frame. -/
theorem ethRcv_ends (dramSize : ℕ) (quiet : h.arp.sent = []) (free : ¬ h.Stuck frame) :
    ∃ h', h.ethRcv dramSize frame = some h' ∧ h.Receives dramSize frame h' := by
  by_cases isArp : u16At frame.bytes 12 = ethPArp
  · rw [ethRcv, if_pos isArp]
    show ∃ h', some (h.arpDone (h.arp.arpRcvPacket frame.arp)) = some h' ∧ _
    by_cases other : frame.arp.arTip ≠ h.arp.arpEntrys.arIp
    · rw [Arp.arpRcvPacket, if_pos other, arpDone_quiet quiet h]
      exact ⟨h, rfl, .elsewhere isArp other⟩
    have own := not_not.mp other
    rw [Arp.arpRcvPacket, if_neg other]
    dsimp only
    have still : (h.arp.arpAddCache frame.arp.arSha frame.arp.arSip).sent = [] := by
      rw [Arp.sent_arpAddCache, quiet]
    by_cases request : frame.arp.arOp = hton arpopRequest
    · rw [if_pos request, Arp.arpSendRsp, Arp.arpAddCache_with_sent, quiet,
        arpDone_with_sent _ still]
      exact ⟨_, rfl, .asked isArp own request⟩
    · rw [if_neg request, arpDone_quiet still h]
      exact ⟨_, rfl, .told isArp own request⟩
  · cases reply : (h.answer dramSize frame).reply with
    | none => exact ⟨_, ethRcv_of_none isArp free reply, .silent isArp reply⟩
    | some ack =>
        cases found : h.arp.findEntry (BitVec.ofNat 32 ack.dest.ip) with
        | none =>
            exact ⟨_, ethRcv_missing quiet free reply rfl found, .unknown isArp reply found⟩
        | some i =>
            obtain ⟨answer, carries, sent⟩ := ethRcv_acknowledges quiet free reply found
            exact ⟨_, sent, .acknowledged isArp reply found carries⟩

theorem ethRcv_eq_none_iff (quiet : h.arp.sent = []) :
    h.ethRcv dramSize frame = none ↔ h.Stuck frame := by
  refine ⟨fun endless => ?_, ethRcv_of_stuck⟩
  by_contra free
  obtain ⟨h', received, -⟩ := ethRcv_ends dramSize quiet free
  exact absurd (received.symm.trans endless) (Option.some_ne_none h')

/-- What `eth_rcv` has done when it has come to its end. -/
theorem ethRcv_receives (quiet : h.arp.sent = [])
    (received : h.ethRcv dramSize frame = some h') : h.Receives dramSize frame h' := by
  have free : ¬ h.Stuck frame := fun stuck =>
    absurd (received.symm.trans (ethRcv_of_stuck stuck)) (Option.some_ne_none h')
  obtain ⟨h'', received', receives⟩ := ethRcv_ends dramSize quiet free
  obtain rfl := Option.some.inj (received.symm.trans received')
  exact receives

end

end Host

/-! ## Runs -/

/-- A list of frames that a peer can read, from `source` at `saddr`: ARP packets of their own
addresses, and acknowledgements whose identifications follow each other from `id` on. -/
inductive SentInOrder (source : EthAddr) (saddr : IpAddr) : BitVec 16 → List EthFrame → Prop
  | nil {id : BitVec 16} : SentInOrder source saddr id []
  | request {id : BitVec 16} {frame : EthFrame} {ip : IpAddr} {frames : List EthFrame}
      (carries : frame.CarriesArp source broadcast
        ⟨1, 0x0800, 6, 4, 1, source, saddr, zeroAddr, ip⟩)
      (rest : SentInOrder source saddr id frames) : SentInOrder source saddr id (frame :: frames)
  | reply {id : BitVec 16} {frame : EthFrame} {ha : EthAddr} {ip : IpAddr}
      {frames : List EthFrame}
      (carries : frame.CarriesArp source ha ⟨1, 0x0800, 6, 4, 2, source, saddr, ha, ip⟩)
      (rest : SentInOrder source saddr id frames) : SentInOrder source saddr id (frame :: frames)
  | ack {id : BitVec 16} {frame : EthFrame} {dest : EthAddr} {ack : AckPacket}
      {frames : List EthFrame} (carries : frame.CarriesAck source dest saddr id ack)
      (rest : SentInOrder source saddr (id + 1) frames) :
      SentInOrder source saddr id (frame :: frames)

namespace Host

/-- The layers when they have been given the addresses of the board. -/
def boot (localEthAddr : EthAddr) (localIp : IpAddr) (mem : Bytes) : Host where
  localEthAddr := localEthAddr
  localIp := localIp
  ipId := 32
  arp := Arp.arpInit.arpAddEntry localEthAddr localIp
  receiver := .initial mem
  sent := []

/-- The addresses are where they were put, and the ARP layer holds no packets. -/
structure Settled (source : EthAddr) (saddr : IpAddr) (h : Host) : Prop where
  eth : h.localEthAddr = source
  ip : h.localIp = saddr
  arp : h.arp.arpEntrys = ⟨source, saddr⟩
  quiet : h.arp.sent = []

variable {h h' : Host} {dramSize : ℕ} {frame : EthFrame} {frames : List EthFrame}
  {source : EthAddr} {saddr : IpAddr}

theorem settled_boot (source : EthAddr) (saddr : IpAddr) (mem : Bytes) :
    (boot source saddr mem).Settled source saddr := ⟨rfl, rfl, rfl, rfl⟩

theorem Receives.settled (receives : h.Receives dramSize frame h')
    (settled : h.Settled source saddr) : h'.Settled source saddr := by
  obtain ⟨eth, ip, arp, quiet⟩ := settled
  cases receives with
  | elsewhere isArp other => exact ⟨eth, ip, arp, quiet⟩
  | asked isArp own request =>
      exact ⟨eth, ip, Arp.arpEntrys_arpAddCache.trans arp, Arp.sent_arpAddCache.trans quiet⟩
  | told isArp own other =>
      exact ⟨eth, ip, Arp.arpEntrys_arpAddCache.trans arp, Arp.sent_arpAddCache.trans quiet⟩
  | silent noArp reply => exact ⟨eth, ip, arp, quiet⟩
  | unknown noArp reply missing => exact ⟨eth, ip, arp, quiet⟩
  | acknowledged noArp reply found carries => exact ⟨eth, ip, arp, quiet⟩

/-- A frame leads to one frame at most, which goes before those of the frames to come. -/
theorem Receives.sends (receives : h.Receives dramSize frame h')
    (settled : h.Settled source saddr) :
    ∃ new, h'.sent = h.sent ++ new ∧ new.length ≤ 1 ∧
      ∀ later, SentInOrder source saddr h'.ipId later →
        SentInOrder source saddr h.ipId (new ++ later) := by
  obtain ⟨eth, ip, arp, -⟩ := settled
  cases receives with
  | elsewhere isArp other =>
      exact ⟨[], (List.append_nil _).symm, Nat.zero_le _, fun later order => order⟩
  | asked isArp own request =>
      refine ⟨_, rfl, le_rfl, fun later order => ?_⟩
      have carries := carriesArp_arpFrame h.localEthAddr frame.arp.arSha (h.arp.arpRsp frame.arp)
      rw [Arp.arpRsp, own, arp, eth] at carries
      rw [Arp.arpRsp, own, arp, eth]
      exact .reply carries order
  | told isArp own other =>
      exact ⟨[], (List.append_nil _).symm, Nat.zero_le _, fun later order => order⟩
  | silent noArp reply =>
      exact ⟨[], (List.append_nil _).symm, Nat.zero_le _, fun later order => order⟩
  | @unknown ack noArp reply missing =>
      refine ⟨_, rfl, le_rfl, fun later order => ?_⟩
      have carries := carriesArp_arpFrame h.localEthAddr broadcast
        (h.arp.arpReq (BitVec.ofNat 32 ack.dest.ip))
      rw [Arp.arpReq, arp, eth] at carries
      rw [Arp.arpReq, arp, eth]
      exact .request carries order
  | acknowledged noArp reply found carries =>
      refine ⟨_, rfl, le_rfl, fun later order => ?_⟩
      rw [eth, ip] at carries
      exact .ack carries order

/-- The frames of a run that comes to its end. -/
theorem receiveAll_sends (settled : h.Settled source saddr)
    (run : h.receiveAll dramSize frames = some h') :
    h'.Settled source saddr ∧ ∃ new, h'.sent = h.sent ++ new ∧ new.length ≤ frames.length ∧
      SentInOrder source saddr h.ipId new := by
  induction frames generalizing h with
  | nil =>
      obtain rfl := Option.some.inj run
      exact ⟨settled, [], (List.append_nil _).symm, le_rfl, .nil⟩
  | cons frame frames ih =>
      obtain ⟨h₁, first, rest⟩ := Option.bind_eq_some_iff.mp run
      have receives := ethRcv_receives settled.quiet first
      obtain ⟨new₁, sent₁, few₁, order₁⟩ := receives.sends settled
      obtain ⟨settled', new, sent, few, order⟩ := ih (receives.settled settled) rest
      refine ⟨settled', new₁ ++ new, ?_, ?_, order₁ new order⟩
      · rw [sent, sent₁, List.append_assoc]
      · rw [List.length_append, List.length_cons]
        omega

/-- A run comes to its end, unless it comes to one kind of frame. -/
theorem receiveAll_eq_none_iff (settled : h.Settled source saddr) :
    h.receiveAll dramSize frames = none ↔ ∃ before frame after h',
      frames = before ++ frame :: after ∧ h.receiveAll dramSize before = some h' ∧
        h'.Stuck frame := by
  induction frames generalizing h with
  | nil =>
      refine ⟨fun endless => absurd endless (Option.some_ne_none h), ?_⟩
      rintro ⟨before, frame, after, h', split, -⟩
      exact absurd split.symm (List.append_ne_nil_of_right_ne_nil _ (List.cons_ne_nil _ _))
  | cons first rest ih =>
      by_cases stuck : h.Stuck first
      · refine iff_of_true ?_ ⟨[], first, rest, h, rfl, rfl, stuck⟩
        rw [receiveAll, ethRcv_of_stuck stuck]
        rfl
      obtain ⟨h₁, received, receives⟩ := ethRcv_ends dramSize settled.quiet stuck
      have goesOn (later : List EthFrame) :
          h.receiveAll dramSize (first :: later) = h₁.receiveAll dramSize later := by
        rw [receiveAll, received]
        rfl
      rw [goesOn, ih (receives.settled settled)]
      constructor
      · rintro ⟨before, frame, after, h', rfl, run, stuck'⟩
        exact ⟨first :: before, frame, after, h', rfl, (goesOn before).trans run, stuck'⟩
      · rintro ⟨before, frame, after, h', split, run, stuck'⟩
        cases before with
        | nil =>
            obtain rfl := Option.some.inj run
            obtain ⟨rfl, -⟩ := List.cons.inj split
            exact absurd stuck' stuck
        | cons first' before =>
            obtain ⟨rfl, later⟩ := List.cons.inj split
            exact ⟨before, frame, after, h', later, (goesOn before).symm.trans run, stuck'⟩

end Host

/-- The boot loader gets through the frames that arrive, unless one of them is taken up as a
block and has no room for the header of one. It answers each frame with one frame at most. A
peer can read every one of them: it has the least length and the addresses of the board, the ARP
packets are read back as they were meant, and the acknowledgements have headers that agree with
each other and verify, with successive identifications. -/
theorem host_sends_readable_frames (dramSize : ℕ) (localEthAddr : EthAddr) (localIp : IpAddr)
    (mem : Bytes) (frames : List EthFrame) :
    let start := Host.boot localEthAddr localIp mem
    (start.receiveAll dramSize frames = none ↔ ∃ before frame after h,
      frames = before ++ frame :: after ∧ start.receiveAll dramSize before = some h ∧
        frame.TakenUp (some localIp.toNat) h.receiver ∧ frame.udpLen < 12) ∧
    ∀ h, start.receiveAll dramSize frames = some h →
      h.sent.length ≤ frames.length ∧ SentInOrder localEthAddr localIp 32 h.sent := by
  intro start
  have settled := Host.settled_boot localEthAddr localIp mem
  constructor
  · rw [Host.receiveAll_eq_none_iff settled]
    have same {before : List EthFrame} {frame : EthFrame} {h : Host}
        (run : start.receiveAll dramSize before = some h) :
        h.Stuck frame ↔ frame.TakenUp (some localIp.toNat) h.receiver ∧ frame.udpLen < 12 := by
      rw [Host.Stuck, (Host.receiveAll_sends settled run).1.ip]
    constructor
    · rintro ⟨before, frame, after, h, split, run, stuck⟩
      exact ⟨before, frame, after, h, split, run, (same run).mp stuck⟩
    · rintro ⟨before, frame, after, h, split, run, stuck⟩
      exact ⟨before, frame, after, h, split, run, (same run).mpr stuck⟩
  · intro h run
    obtain ⟨-, new, sent, few, order⟩ := Host.receiveAll_sends settled run
    obtain rfl : h.sent = new := sent
    exact ⟨few, order⟩

/-- A block of 512 bytes. -/
def wholeBlock : EthFrame where
  bytes i := if i = 16 ∨ i = 38 then 2 else (tftpFrame 32 12 3 1).bytes i
  len := 558

/-- After a request and a whole block, one whose UDP header leaves no room for the header of the
packet. The boot loader does not know the client, and asks for its address twice. -/
theorem host_sends_readable_frames_short_block :
    (Host.boot (Vector.replicate 6 1) 0xC0A80101 allOnes).receiveAll 64
      [tftpFrame 46 26 2 0, wholeBlock, tftpFrame 28 8 3 2] = none := by
  generalize booted : Host.boot (Vector.replicate 6 1) 0xC0A80101 allOnes = h₀
  generalize asked : h₀.asking 64 (tftpFrame 46 26 2 0) 0xC0A80102 = h₁
  have quiet₁ : h₁.arp.sent = [] := by
    rw [← asked, ← booted]
    rfl
  have missing₀ : h₀.arp.findEntry 0xC0A80102 = none := by
    rw [← booted]
    decide +kernel
  have missing₁ : h₁.arp.findEntry 0xC0A80102 = none := by
    rw [← asked]
    exact missing₀
  -- The request leaves the variables that the block is looked at with.
  have request : (h₀.answer 64 (tftpFrame 46 26 2 0)).reply = some ⟨⟨3232235778, 1024⟩, 0⟩ := by
    rw [← booted]
    decide +kernel
  have first : h₀.ethRcv 64 (tftpFrame 46 26 2 0) = some h₁ := by
    have quiet₀ : h₀.arp.sent = [] := by rw [← booted]; rfl
    rw [← asked]
    exact Host.ethRcv_missing quiet₀ (Host.not_stuck_of_room (by decide +kernel)) request rfl
      missing₀
  have answer₁ : h₁.answer 64 wholeBlock = tftpRcvPacketSkb 64 wholeBlock.tftp requested := by
    have receiver₁ : h₁.receiver = requested := by rw [← asked, ← booted]; rfl
    have ip₁ : h₁.localIp = 0xC0A80101 := by rw [← asked, ← booted]; rfl
    rw [Host.answer, ip₁, receiver₁, ethRcv_eq, if_pos (by decide +kernel)]
  have block : (h₁.answer 64 wholeBlock).reply = some ⟨⟨3232235778, 1024⟩, 1⟩ := by
    rw [answer₁]
    decide +kernel
  have second : h₁.ethRcv 64 wholeBlock = some (h₁.asking 64 wholeBlock 0xC0A80102) :=
    Host.ethRcv_missing quiet₁ (Host.not_stuck_of_room (by decide +kernel)) block rfl missing₁
  have run : h₀.receiveAll 64 [tftpFrame 46 26 2 0, wholeBlock] =
      some (h₁.asking 64 wholeBlock 0xC0A80102) := by
    rw [Host.receiveAll, first, Option.bind_eq_bind, Option.bind_some, Host.receiveAll, second,
      Option.bind_eq_bind, Option.bind_some, Host.receiveAll]
  rw [← booted] at run ⊢
  refine (host_sends_readable_frames 64 (Vector.replicate 6 1) 0xC0A80101 allOnes _).1.mpr
    ⟨[tftpFrame 46 26 2 0, wholeBlock], tftpFrame 28 8 3 2, [], _, rfl, run, ?_, by decide⟩
  show EthFrame.TakenUp _ _ (h₁.answer 64 wholeBlock).receiver
  rw [answer₁]
  constructor <;> decide +kernel

/-- Another machine asks for the address of a boot loader at 192.168.1.1. -/
def clientAsks : ArpHdr :=
  ⟨1, 0x0800, 6, 4, 1, Vector.replicate 6 2, 0xC0A80102, zeroAddr, 0xC0A80101⟩

/-- In a frame. -/
def clientFrame : EthFrame := arpFrame (Vector.replicate 6 2) broadcast clientAsks

theorem arp_clientFrame : clientFrame.arp = clientAsks := (carriesArp_arpFrame ..).arp

/-- The boot loader answers, and knows the one who has asked. -/
theorem boot_ethRcv_clientFrame :
    ∃ h : Host, (Host.boot (Vector.replicate 6 1) 0xC0A80101 allOnes).ethRcv 64 clientFrame =
        some h ∧ h.receiver = .initial allOnes ∧ h.localIp = 0xC0A80101 ∧ h.sent ≠ [] ∧
      h.arp.findEntry 0xC0A80102 ≠ none := by
  have isArp : u16At clientFrame.bytes 12 = ethPArp :=
    proto_of_read (by decide) (by rw [clientFrame, (carriesArp_arpFrame ..).eth])
  have free : ¬ (Host.boot (Vector.replicate 6 1) 0xC0A80101 allOnes).Stuck clientFrame :=
    fun stuck => Host.noArp_of_stuck stuck isArp
  obtain ⟨h, received, receives⟩ := Host.ethRcv_ends 64 rfl free
  use h, received
  cases receives with
  | elsewhere _ other =>
      rw [arp_clientFrame] at other
      exact absurd rfl other
  | asked _ own request =>
      rw [arp_clientFrame]
      refine ⟨rfl, rfl, ?_, by decide +kernel⟩
      exact List.append_ne_nil_of_right_ne_nil _ (List.cons_ne_nil _ _)
  | told _ own other =>
      rw [arp_clientFrame] at other
      exact absurd rfl other
  | silent noArp => exact absurd isArp noArp
  | unknown noArp => exact absurd isArp noArp
  | acknowledged noArp => exact absurd isArp noArp

end En7512.Net
