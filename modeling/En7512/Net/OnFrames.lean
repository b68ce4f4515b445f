/-
# An upload in frames

The client of an upload and the boot loader have nothing but frames to exchange their packets
in. Other machines send frames too, the ARP layer sends its own, and a frame of the boot loader
may come back to it. As long as no other machine pretends to be one of the two, this is the
upload of packets, and what holds there holds here.
-/

import En7512.Logic.Runs
import En7512.Net.Host
import En7512.Net.TftpAck
import En7512.Net.Upload

namespace En7512.Net

open En7512.Logic En7512.Nand

/-- The boot loader at `localIp` takes this packet from the frame. The lengths leave room for
its header. -/
structure EthFrame.Brings (localIp : IpAddr) (p : Packet) (frame : EthFrame) : Prop where
  tftp : frame.IsTftp (some localIp.toNat)
  room : 12 ≤ frame.udpLen
  packet : frame.tftp.packet = p

/-- The client finds an acknowledgement for `address` in the frame, from the TFTP server at
`localIp`. -/
structure EthFrame.IsAck (address : Peer) (localIp : IpAddr) (frame : EthFrame) : Prop where
  eth : (ethhdr.read frame.bytes).hProto = BitVec.ofNat 16 ethPIp
  saddr : (iphdr.read (fromCell ethhdrSize frame.bytes)).saddr = localIp
  daddr : (iphdr.read (fromCell ethhdrSize frame.bytes)).daddr = BitVec.ofNat 32 address.ip
  source : (udphdr.read (fromCell (ethhdrSize + iphdrSize) frame.bytes)).source =
    BitVec.ofNat 16 tftpPort
  dest : (udphdr.read (fromCell (ethhdrSize + iphdrSize) frame.bytes)).dest =
    BitVec.ofNat 16 address.port
  opcode : (tftphdr.read (fromCell (ethhdrSize + iphdrSize + udphdrSize) frame.bytes)).thOpcode =
    BitVec.ofNat 16 opcodeAck

/-- Its number. -/
def EthFrame.ackBlock (frame : EthFrame) : ℕ :=
  (tftphdr.read (fromCell (ethhdrSize + iphdrSize + udphdrSize) frame.bytes)).thBlock.toNat

/-- Both sides, and every frame that has been sent. -/
structure FrameUpload where
  host : Host
  client : Client
  wire : Set EthFrame

/-- The boot loader has been running, and no frame is on its way. -/
def FrameUpload.start (h : Host) : FrameUpload := ⟨{ h with sent := [] }, .requesting, ∅⟩

/-- What may happen next. A frame that has been sent may arrive any number of times, or never. -/
inductive FrameUpload.Step (address : Peer) (localIp : IpAddr) (dramSize : ℕ) (file : List UInt8) :
    FrameUpload → FrameUpload → Prop
  | send {w : FrameUpload} {p : Packet} {frame : EthFrame}
      (current : w.client.packet address file = some p) (brings : frame.Brings localIp p) :
      Step address localIp dramSize file w { w with wire := insert frame w.wire }
  /-- Another machine sends a frame: no packet to the TFTP server and no acknowledgement. -/
  | other {w : FrameUpload} {frame : EthFrame}
      (noTftp : ¬ frame.IsTftp (some localIp.toNat)) (noAck : ¬ frame.IsAck address localIp) :
      Step address localIp dramSize file w { w with wire := insert frame w.wire }
  | receive {w : FrameUpload} {frame : EthFrame} {h : Host} (sent : frame ∈ w.wire)
      (received : w.host.ethRcv dramSize frame = some h) :
      Step address localIp dramSize file w
        { w with host := h, wire := w.wire ∪ {f | f ∈ h.sent} }
  | acknowledge {w : FrameUpload} {frame : EthFrame} (sent : frame ∈ w.wire)
      (ack : frame.IsAck address localIp) :
      Step address localIp dramSize file w
        { w with client := w.client.acknowledged file frame.ackBlock }

/-- The states of an upload. -/
abbrev FrameUpload.Reaches (address : Peer) (localIp : IpAddr) (dramSize : ℕ)
    (file : List UInt8) (h : Host) : FrameUpload → Prop :=
  Relation.ReflTransGen (Step address localIp dramSize file) (.start h)

/-! ## What the boot loader sends -/

section Frames

variable {dramSize : ℕ} {frame : EthFrame} {h h' : Host} {ack : AckPacket} {address : Peer}
  {localIp : IpAddr}

/-- The TFTP server answers the one who has asked. -/
theorem reply_tftpRcvPacketSkb {skb : SkBuff} {s : Receiver}
    (reply : (tftpRcvPacketSkb dramSize skb s).reply = some ack) :
    ack.dest = skb.source ∧ ack.block < 2 ^ 16 := by
  have small : skb.block < 2 ^ 16 := u16At_lt _ _
  rw [tftpRcvPacketSkb] at reply
  by_cases wrq : skb.opcode = opcodeWrq
  · rw [if_pos wrq] at reply
    obtain rfl := Option.some.inj reply
    exact ⟨rfl, Nat.two_pow_pos 16⟩
  rw [if_neg wrq] at reply
  by_cases data : skb.opcode = opcodeData
  case neg =>
    rw [if_neg data] at reply
    cases reply
  rw [if_pos data] at reply
  generalize handled : tftpRcvDataSkb skb s = out at reply
  cases handled ▸ tftpRcvDataSkb_handled skb s with
  | stranger other => cases reply
  | stored client block begun copied reply' next =>
      obtain rfl := Option.some.inj (reply'.symm.trans reply)
      exact ⟨client, small⟩
  | refused client block => cases reply
  | before client lt =>
      obtain rfl := Option.some.inj reply
      exact ⟨client, small⟩
  | behind client lt =>
      obtain rfl := Option.some.inj reply
      exact ⟨client, lt.trans small⟩

/-- Only TFTP packets are for the TFTP server. -/
theorem Host.answer_of_not_isTftp (other : ¬ frame.IsTftp (some h.localIp.toNat)) :
    h.answer dramSize frame = ⟨h.receiver, none, none⟩ := by
  rw [answer, ethRcv_eq, if_neg other]

theorem Host.answer_of_isTftp (tftp : frame.IsTftp (some h.localIp.toNat)) :
    h.answer dramSize frame = tftpRcvPacketSkb dramSize frame.tftp h.receiver := by
  rw [answer, ethRcv_eq, if_pos tftp]

theorem not_isTftp_of_isArp (isArp : u16At frame.bytes 12 = ethPArp) (ip : Option ℕ) :
    ¬ frame.IsTftp ip := by
  rintro ⟨isIp, -⟩
  rw [isArp] at isIp
  exact absurd isIp (by decide)

/-- The TFTP server is given its frame, and what is sent beside its answer is for the ARP
layers of others. -/
theorem Host.Receives.frames (receives : h.Receives dramSize frame h') :
    h'.receiver = (h.answer dramSize frame).receiver ∧
      ∀ f ∈ h'.sent, f ∈ h.sent ∨ u16At f.bytes 12 = ethPArp ∨
        ∃ ack ∈ (h.answer dramSize frame).reply, ∃ source dest id,
          f.CarriesAck source dest h.localIp id ack := by
  have arp (dest : EthAddr) (hdr : ArpHdr) :
      u16At (arpFrame h.localEthAddr dest hdr).bytes 12 = ethPArp :=
    proto_of_read (by decide) (by rw [(carriesArp_arpFrame ..).eth])
  cases receives with
  | elsewhere isArp other =>
      rw [answer_of_not_isTftp (not_isTftp_of_isArp isArp _)]
      exact ⟨rfl, fun f before => .inl before⟩
  | asked isArp own request =>
      rw [answer_of_not_isTftp (not_isTftp_of_isArp isArp _)]
      use rfl
      intro f sent
      apply (List.mem_append.mp sent).imp_right
      intro new
      rw [List.mem_singleton.mp new]
      exact .inl (arp _ _)
  | told isArp own other =>
      rw [answer_of_not_isTftp (not_isTftp_of_isArp isArp _)]
      exact ⟨rfl, fun f before => .inl before⟩
  | silent noArp reply => exact ⟨rfl, fun f before => .inl before⟩
  | unknown noArp reply missing =>
      use rfl
      intro f sent
      apply (List.mem_append.mp sent).imp_right
      intro new
      rw [List.mem_singleton.mp new]
      exact .inl (arp _ _)
  | acknowledged noArp reply found carries =>
      use rfl
      intro f sent
      apply (List.mem_append.mp sent).imp_right
      intro new
      rw [List.mem_singleton.mp new]
      exact .inr ⟨_, reply, _, _, _, carries⟩

/-- No client reads an ARP packet as an acknowledgement. -/
theorem not_isAck_of_isArp (isArp : u16At frame.bytes 12 = ethPArp) :
    ¬ frame.IsAck address localIp := by
  intro isAck
  rw [proto_of_read (by decide) isAck.eth] at isArp
  exact absurd isArp (by decide)

/-- The client reads an acknowledgement as it was meant. -/
theorem EthFrame.CarriesAck.block {source dest : EthAddr} {saddr : IpAddr} {id : BitVec 16}
    (carries : frame.CarriesAck source dest saddr id ack) (small : ack.block < 2 ^ 16) :
    frame.ackBlock = ack.block := by
  rw [ackBlock, carries.tftp]
  exact (BitVec.toNat_ofNat ..).trans (Nat.mod_eq_of_lt small)

theorem EthFrame.CarriesAck.isAck {source dest : EthAddr} {saddr : IpAddr} {id : BitVec 16}
    (carries : frame.CarriesAck source dest saddr id ack) : frame.IsAck ack.dest saddr := by
  obtain ⟨check, ip⟩ := carries.ip
  constructor
  · rw [carries.eth]
  · rw [ip]
  · rw [ip]
  · rw [carries.udp]
  · rw [carries.udp]
  · rw [carries.tftp]

/-- No frame is an acknowledgement and for the TFTP server. -/
theorem EthFrame.IsAck.not_isTftp (isAck : frame.IsAck address localIp) (ip : address.ip < 2 ^ 32)
    (port : address.port < 2 ^ 16) (apart : address ≠ ⟨localIp.toNat, tftpPort⟩) :
    ¬ frame.IsTftp (some localIp.toNat) := by
  rintro ⟨-, here, -, tftp⟩
  apply apart
  have daddr : BitVec.ofNat 32 (ipAt frame.bytes 30) = BitVec.ofNat 32 address.ip := isAck.daddr
  have dest : BitVec.ofNat 16 (u16At frame.bytes 36) = BitVec.ofNat 16 address.port := isAck.dest
  have here : localIp.toNat = ipAt frame.bytes 30 := by simpa using here
  rw [← here, BitVec.ofNat_toNat, BitVec.setWidth_eq] at daddr
  rw [tftp] at dest
  have daddr := congrArg BitVec.toNat daddr
  have dest := congrArg BitVec.toNat dest
  rw [BitVec.toNat_ofNat, Nat.mod_eq_of_lt ip] at daddr
  rw [BitVec.toNat_ofNat, BitVec.toNat_ofNat, Nat.mod_eq_of_lt port] at dest
  rw [daddr, show tftpPort = address.port from dest]

/-- The address of a packet in a frame. -/
theorem source_tftp_lt (frame : EthFrame) :
    frame.tftp.source.ip < 2 ^ 32 ∧ frame.tftp.source.port < 2 ^ 16 := by
  have high := u16At_lt frame.bytes 26
  have low := u16At_lt frame.bytes 28
  constructor
  · show u16At frame.bytes 26 * 2 ^ 16 + u16At frame.bytes 28 < 2 ^ 32
    omega
  · exact u16At_lt _ _

end Frames

/-! ## The upload of packets -/

section Simulation

variable {address : Peer} {localIp : IpAddr} {source : EthAddr} {dramSize : ℕ}
  {file : List UInt8} {w w' : FrameUpload} {v : Upload}

/-- The upload of packets that goes on in the frames. -/
structure FrameUpload.Refines (address : Peer) (source : EthAddr) (localIp : IpAddr)
    (w : FrameUpload) (v : Upload) : Prop where
  settled : w.host.Settled source localIp
  bounded : w.host.receiver.Bounded
  server : w.host.receiver.server = v.server
  client : w.client = v.client
  packets : ∀ f ∈ w.wire, f.IsTftp (some localIp.toNat) → 12 ≤ f.udpLen ∧
    f.tftp.packet ∈ v.toServer ∧ f.tftp.source = address
  acks : ∀ f ∈ w.wire, f.IsAck address localIp → ⟨address, f.ackBlock⟩ ∈ v.toClient
  sent : ∀ f ∈ w.host.sent, f ∈ w.wire

/-- A TFTP frame is handled as its packet is. -/
theorem FrameUpload.Refines.answer (refines : w.Refines address source localIp v) (dramSize : ℕ)
    {frame : EthFrame} (sent : frame ∈ w.wire) (tftp : frame.IsTftp (some localIp.toNat)) :
    (w.host.answer dramSize frame).receiver.server =
        (tftpRcvPacket dramSize frame.tftp.packet v.server).server ∧
      (w.host.answer dramSize frame).reply =
        (tftpRcvPacket dramSize frame.tftp.packet v.server).reply := by
  obtain ⟨room, -, -⟩ := refines.packets frame sent tftp
  have small : frame.udpLen < 2 ^ 16 := u16At_lt _ _
  have length := dataLength_tftp frame
  rw [Host.answer_of_isTftp (by rwa [refines.settled.ip]), ← refines.server]
  exact tftpRcvPacketSkb_refines dramSize (by omega) (by omega) refines.bounded

/-- The boot loader has sent frames: they are no packets to it, and their acknowledgements have
been sent in the upload of packets too. -/
theorem FrameUpload.Refines.sends (refines : w.Refines address source localIp v) {h : Host}
    {v' : Upload} (settled : h.Settled source localIp) (bounded : h.receiver.Bounded)
    (server : h.receiver.server = v'.server) (client : v.client = v'.client)
    (toServer : v.toServer = v'.toServer) (toClient : v.toClient ⊆ v'.toClient)
    (new : ∀ f ∈ h.sent, f ∈ w.wire ∨ ¬ f.IsTftp (some localIp.toNat) ∧
      (f.IsAck address localIp → ⟨address, f.ackBlock⟩ ∈ v'.toClient)) :
    FrameUpload.Refines address source localIp
      { w with host := h, wire := w.wire ∪ {f | f ∈ h.sent} } v' := by
  have packets (f : EthFrame) (before : f ∈ w.wire) (isTftp : f.IsTftp (some localIp.toNat)) :
      12 ≤ f.udpLen ∧ f.tftp.packet ∈ v'.toServer ∧ f.tftp.source = address := by
    rw [← toServer]
    exact refines.packets f before isTftp
  refine ⟨settled, bounded, server, refines.client.trans client, ?_, ?_, fun f now => .inr now⟩
  · rintro f (before | now) isTftp
    · exact packets f before isTftp
    · rcases new f now with before | ⟨noTftp, -⟩
      · exact packets f before isTftp
      · exact absurd isTftp noTftp
  · rintro f (before | now) isAck
    · exact toClient (refines.acks f before isAck)
    · rcases new f now with before | ⟨-, acknowledged⟩
      · exact toClient (refines.acks f before isAck)
      · exact acknowledged isAck

/-- A frame arrives at the boot loader. -/
theorem FrameUpload.Refines.receive (refines : w.Refines address source localIp v)
    (dram : halfDramSize dramSize < 2 ^ 31) (apart : address ≠ ⟨localIp.toNat, tftpPort⟩)
    {frame : EthFrame} (sent : frame ∈ w.wire) {h : Host}
    (receives : w.host.Receives dramSize frame h) :
    ∃ v', Relation.ReflTransGen (Upload.Step address dramSize file) v v' ∧
      FrameUpload.Refines address source localIp
        { w with host := h, wire := w.wire ∪ {f | f ∈ h.sent} } v' := by
  obtain ⟨receiver, frames⟩ := receives.frames
  have settled := receives.settled refines.settled
  have bounded : h.receiver.Bounded := by
    rw [receiver]
    exact refines.bounded.receive _ frame dram
  by_cases tftp : frame.IsTftp (some localIp.toNat)
  · obtain ⟨server, reply⟩ := refines.answer dramSize sent tftp
    obtain ⟨-, arrives, asked⟩ := refines.packets frame sent tftp
    refine ⟨_, .single (.receive arrives), refines.sends settled bounded ?_ rfl rfl
      Set.subset_union_left fun f now => ?_⟩
    · rw [receiver]
      exact server
    rcases frames f now with old | arp | ⟨ack, replied, source, dest, id, carries⟩
    · exact .inl (refines.sent f old)
    · exact .inr ⟨not_isTftp_of_isArp arp _, fun isAck => absurd isAck (not_isAck_of_isArp arp)⟩
    · -- The answer goes to the client, which is not the server itself.
      have here : frame.IsTftp (some w.host.localIp.toNat) := by rwa [refines.settled.ip]
      have fromServer := replied
      rw [Host.answer_of_isTftp here] at fromServer
      obtain ⟨answered, small⟩ := reply_tftpRcvPacketSkb fromServer
      obtain ⟨ip, port⟩ := source_tftp_lt frame
      rw [asked] at answered ip port
      have isAck := carries.isAck
      rw [answered, refines.settled.ip] at isAck
      refine .inr ⟨isAck.not_isTftp ip port apart, fun _ => .inr ?_⟩
      rw [carries.block small, ← answered]
      exact reply.symm.trans replied
  · have same : w.host.answer dramSize frame = ⟨w.host.receiver, none, none⟩ := by
      apply Host.answer_of_not_isTftp
      rwa [refines.settled.ip]
    rw [same] at receiver frames
    refine ⟨v, .refl, refines.sends settled bounded ?_ rfl rfl (Set.Subset.refl _) fun f now => ?_⟩
    · rw [receiver]
      exact refines.server
    rcases frames f now with old | arp | ⟨ack, replied, -⟩
    · exact .inl (refines.sent f old)
    · exact .inr ⟨not_isTftp_of_isArp arp _, fun isAck => absurd isAck (not_isAck_of_isArp arp)⟩
    · cases replied

theorem FrameUpload.Refines.step (dram : halfDramSize dramSize < 2 ^ 31)
    (apart : address ≠ ⟨localIp.toNat, tftpPort⟩) (refines : w.Refines address source localIp v)
    (step : FrameUpload.Step address localIp dramSize file w w') :
    ∃ v', Relation.ReflTransGen (Upload.Step address dramSize file) v v' ∧
      w'.Refines address source localIp v' := by
  cases step with
  | @send p frame current brings =>
      have from_client : frame.tftp.source = address := by
        rw [← Client.source_of_packet current, ← brings.packet]
        rfl
      obtain ⟨ip, port⟩ := source_tftp_lt frame
      rw [from_client] at ip port
      rw [refines.client] at current
      refine ⟨_, .single (.send current), refines.settled, refines.bounded, refines.server,
        refines.client, ?_, ?_, fun f sent => .inr (refines.sent f sent)⟩
      · rintro f (rfl | before) isTftp
        · exact ⟨brings.room, .inl brings.packet, from_client⟩
        · obtain ⟨room, packet, from_client⟩ := refines.packets f before isTftp
          exact ⟨room, .inr packet, from_client⟩
      · rintro f (rfl | before) isAck
        · exact absurd brings.tftp (isAck.not_isTftp ip port apart)
        · exact refines.acks f before isAck
  | @other frame noTftp noAck =>
      refine ⟨v, .refl, refines.settled, refines.bounded, refines.server, refines.client, ?_, ?_,
        fun f sent => .inr (refines.sent f sent)⟩
      · rintro f (rfl | before) isTftp
        · exact absurd isTftp noTftp
        · exact refines.packets f before isTftp
      · rintro f (rfl | before) isAck
        · exact absurd isAck noAck
        · exact refines.acks f before isAck
  | @receive frame h sent received =>
      have receives := Host.ethRcv_receives refines.settled.quiet received
      exact refines.receive dram apart sent receives
  | @acknowledge frame sent ack =>
      refine ⟨_, .single (.acknowledge (refines.acks frame sent ack) rfl), refines.settled,
        refines.bounded, refines.server, ?_, refines.packets, refines.acks, refines.sent⟩
      rw [refines.client]

end Simulation

/-! ## Whole uploads -/

section Run

variable {address : Peer} {localIp : IpAddr} {source : EthAddr} {dramSize : ℕ}
  {file : List UInt8} {frames : List EthFrame} {h h' : Host} {w : FrameUpload}

/-- The fill level stays within the limit. -/
theorem Host.bounded_receiveAll (dram : halfDramSize dramSize < 2 ^ 31)
    (settled : h.Settled source localIp) (bounded : h.receiver.Bounded)
    (run : h.receiveAll dramSize frames = some h') :
    h'.Settled source localIp ∧ h'.receiver.Bounded := by
  induction frames generalizing h with
  | nil =>
      obtain rfl := Option.some.inj run
      exact ⟨settled, bounded⟩
  | cons frame frames ih =>
      obtain ⟨h₁, first, rest⟩ := Option.bind_eq_some_iff.mp run
      have receives := ethRcv_receives settled.quiet first
      apply ih (receives.settled settled) _ rest
      rw [receives.frames.1]
      exact bounded.receive _ frame dram

/-- Every upload in frames is one of packets. -/
theorem frameUpload_refines {mem : Bytes} (dram : dramSize < 4096)
    (apart : address ≠ ⟨localIp.toNat, tftpPort⟩)
    (booted : (Host.boot source localIp mem).receiveAll dramSize frames = some h)
    (run : FrameUpload.Reaches address localIp dramSize file h w) :
    ∃ v, Upload.Reaches address dramSize file h.receiver.server v ∧
      w.Refines address source localIp v := by
  have dram : halfDramSize dramSize < 2 ^ 31 := by
    rw [halfDramSize]
    omega
  obtain ⟨settled, bounded⟩ := Host.bounded_receiveAll dram (Host.settled_boot source localIp mem)
    ⟨le_rfl, le_rfl, Nat.two_pow_pos 31⟩ booted
  apply reaches_simulates (fun _ _ _ refines step => refines.step dram apart step) _ run
  constructor
  · exact ⟨settled.eth, settled.ip, settled.arp, settled.quiet⟩
  · exact bounded
  · rfl
  · rfl
  · exact fun _ none => absurd none (Set.notMem_empty _)
  · exact fun _ none => absurd none (Set.notMem_empty _)
  · exact fun _ none => absurd none List.not_mem_nil

end Run

/-- The transfer was open before a packet and is not after it: the packet has ended it. -/
theorem ended_of_putBegin {dramSize : ℕ} {p : Packet} {s : Server} (isOpen : s.putBegin = true)
    (closed : (tftpRcvPacket dramSize p s).server.putBegin = false) :
    (tftpRcvPacket dramSize p s).ended = true := by
  have same (out : Server) (still : out.putBegin = s.putBegin) (closed : out.putBegin = false) :
      false = true := by
    rw [still, isOpen] at closed
    exact closed.symm
  rw [tftpRcvPacket] at closed ⊢
  cases body : p.body with
  | rrq =>
      rw [body] at closed
      exact same s rfl closed
  | wrq =>
      rw [body] at closed
      cases closed
  | ack block =>
      rw [body] at closed
      exact same s rfl closed
  | error =>
      rw [body] at closed
      exact same s rfl closed
  | data block dat =>
      rw [body] at closed
      dsimp only at closed ⊢
      rw [tftpRcvData] at closed ⊢
      by_cases other : s.client ≠ p.source
      · rw [if_pos other] at closed
        exact absurd (same s rfl closed) Bool.false_ne_true
      rw [if_neg other] at closed ⊢
      by_cases here : s.clientBlock = block
      case neg =>
        rw [if_neg here] at closed
        split at closed
        · exact absurd (same s rfl closed) Bool.false_ne_true
        · exact absurd (same s rfl closed) Bool.false_ne_true
      rw [if_pos here] at closed ⊢
      have kept := (tftpPut_keeps dat s).2
      generalize tftpPut dat s = put at closed kept ⊢
      obtain ⟨stored, s'⟩ := put
      dsimp only at closed kept ⊢
      rw [isOpen] at kept
      cases stored with
      | false => exact absurd (same s' (kept.trans isOpen.symm) closed) Bool.false_ne_true
      | true =>
          rw [if_neg (by simp)] at closed ⊢
          by_cases short : dat.length < segSize
          · rw [if_pos short, tftpPutEnd, kept]
            rfl
          · rw [if_neg short] at closed
            exact absurd (kept.symm.trans closed) (by simp)

/-- When the client of an upload has its last acknowledgement, the whole file is in the memory
of the boot loader: whatever the boot loader has received before, whatever the network loses,
repeats and reorders, and whatever other machines send that is not from the client or from the
server. -/
theorem upload_done_has_file (localEthAddr : EthAddr) (localIp : IpAddr) (mem : Bytes)
    (earlier : List EthFrame) (address : Peer) (dramSize : ℕ) (file : List UInt8)
    (dram : dramSize < 4096) (few : blockCount file ≤ 65534)
    (fits : file.length ≤ halfDramSize dramSize) (apart : address ≠ ⟨localIp.toNat, tftpPort⟩)
    {h : Host}
    (booted : (Host.boot localEthAddr localIp mem).receiveAll dramSize earlier = some h)
    {w : FrameUpload} (run : FrameUpload.Reaches address localIp dramSize file h w)
    (done : w.client = .done) :
    ∀ i < file.length, w.host.receiver.buf i = file.getD i 0 := by
  obtain ⟨v, reached, refines⟩ := frameUpload_refines dram apart booted run
  have confirmed := confirmed_of_reaches few fits reached
  have stored := (confirmed.done (refines.client.symm.trans done)).whole
  rw [← refines.server] at stored
  exact stored

/-- When a frame ends the transfer, the boot loader has the file, and knows its length. -/
theorem upload_frame_ends_with_file (localEthAddr : EthAddr) (localIp : IpAddr) (mem : Bytes)
    (earlier : List EthFrame) (address : Peer) (dramSize : ℕ) (file : List UInt8)
    (dram : dramSize < 4096) (few : blockCount file ≤ 65534)
    (fits : file.length ≤ halfDramSize dramSize) (apart : address ≠ ⟨localIp.toNat, tftpPort⟩)
    {h : Host}
    (booted : (Host.boot localEthAddr localIp mem).receiveAll dramSize earlier = some h)
    {w : FrameUpload} (run : FrameUpload.Reaches address localIp dramSize file h w)
    {frame : EthFrame} (arrives : frame ∈ w.wire) {h' : Host}
    (received : w.host.ethRcv dramSize frame = some h')
    (isOpen : w.host.receiver.putBegin = true) (closed : h'.receiver.putBegin = false) :
    h'.receiver.dataLen = file.length ∧
      ∀ i < file.length, h'.receiver.buf i = file.getD i 0 := by
  obtain ⟨v, reached, refines⟩ := frameUpload_refines dram apart booted run
  have receives := Host.ethRcv_receives refines.settled.quiet received
  have receiver := receives.frames.1
  have tftp : frame.IsTftp (some localIp.toNat) := by
    by_contra other
    rw [← refines.settled.ip] at other
    rw [receiver, Host.answer_of_not_isTftp other, isOpen] at closed
    cases closed
  obtain ⟨server, -⟩ := refines.answer dramSize arrives tftp
  rw [← receiver] at server
  obtain ⟨-, packet, -⟩ := refines.packets frame arrives tftp
  have uploading := uploading_of_reaches few fits reached
  have ended : (tftpRcvPacket dramSize frame.tftp.packet v.server).ended = true := by
    apply ended_of_putBegin
    · rw [← refines.server]
      exact isOpen
    · rw [← server]
      exact closed
  obtain ⟨len, holds⟩ := (uploading.receive few fits packet).2 ended
  rw [← server] at len holds
  have nonneg : 0 ≤ h'.receiver.dataLen := by
    rw [receiver]
    apply (refines.bounded.receive _ frame _).nonneg
    rw [halfDramSize]
    omega
  have level : h'.receiver.dataLen.toNat = file.length := len
  constructor
  · omega
  · exact fun i inside => holds i (lt_of_lt_of_eq inside len.symm)

/-- A client at port 1024 of 192.168.1.2. -/
def threeBytesClient : Peer := ⟨3232235778, 1024⟩

theorem tftpRcvPacketSkb_request :
    tftpRcvPacketSkb 64 (tftpFrame 46 26 2 0).tftp (.initial allOnes) =
      ⟨requested, some ⟨threeBytesClient, 0⟩, none⟩ := by
  have source : (tftpFrame 46 26 2 0).tftp.source = threeBytesClient := by decide +kernel
  rw [tftpRcvPacketSkb, if_pos (by decide +kernel), tftpRcvWrqSkb, source]
  rfl

/-- The boot loader has heard of the client; a request, its acknowledgement, and one short
block, which arrives. -/
theorem threeBytes_sent :
    ∃ h w h' answer,
      (Host.boot (Vector.replicate 6 1) 0xC0A80101 allOnes).receiveAll 64 [clientFrame] = some h ∧
      FrameUpload.Reaches threeBytesClient 0xC0A80101 64 [0, 0, 0] h w ∧
      w.client = .sending 1 ∧ tftpFrame 35 15 3 1 ∈ w.wire ∧
      w.host.receiver.putBegin = true ∧
      w.host.ethRcv 64 (tftpFrame 35 15 3 1) = some h' ∧ h'.receiver.putBegin = false ∧
      answer ∈ h'.sent ∧ answer.IsAck threeBytesClient 0xC0A80101 ∧ answer.ackBlock = 1 := by
  obtain ⟨h, heard, receiver, localIp, -, known⟩ := boot_ethRcv_clientFrame
  have booted : (Host.boot (Vector.replicate 6 1) 0xC0A80101 allOnes).receiveAll 64 [clientFrame] =
      some h := by
    rw [Host.receiveAll, heard]
    rfl
  have settled := (Host.bounded_receiveAll (by decide) (Host.settled_boot _ _ _)
    ⟨le_rfl, le_rfl, Nat.two_pow_pos 31⟩ booted).1
  obtain ⟨i, found⟩ := Option.ne_none_iff_exists'.mp known
  generalize quiet : { h with sent := [] } = h₀
  have begun : FrameUpload.Reaches threeBytesClient 0xC0A80101 64 [0, 0, 0] h
      ⟨h₀, .requesting, ∅⟩ := by
    rw [← quiet]
    exact .refl
  have settled₀ : h₀.Settled (Vector.replicate 6 1) 0xC0A80101 := by
    rw [← quiet]
    exact ⟨settled.eth, settled.ip, settled.arp, settled.quiet⟩
  have receiver₀ : h₀.receiver = .initial allOnes := by rw [← quiet, receiver]
  have found₀ : h₀.arp.findEntry 0xC0A80102 = some i := by rw [← quiet, found]
  -- The request is sent, received and acknowledged.
  have asks : (tftpFrame 46 26 2 0).Brings 0xC0A80101 ⟨threeBytesClient, .wrq⟩ :=
    ⟨by decide +kernel, by decide +kernel, by decide +kernel⟩
  have handled : h₀.answer 64 (tftpFrame 46 26 2 0) =
      ⟨requested, some ⟨threeBytesClient, 0⟩, none⟩ := by
    rw [Host.answer_of_isTftp (by rw [settled₀.ip]; exact asks.tftp), receiver₀,
      tftpRcvPacketSkb_request]
  have reply₀ : (h₀.answer 64 (tftpFrame 46 26 2 0)).reply = some ⟨threeBytesClient, 0⟩ := by
    rw [handled]
  have room₀ : ¬ h₀.Stuck (tftpFrame 46 26 2 0) := Host.not_stuck_of_room (by decide +kernel)
  obtain ⟨answer, carries, received⟩ :=
    Host.ethRcv_acknowledges settled₀.quiet room₀ reply₀ found₀
  rw [handled] at received
  generalize answered : { h₀ with
    receiver := requested, ipId := h₀.ipId + 1, sent := h₀.sent ++ [answer] } = h₁ at received
  have isAck := carries.isAck
  rw [settled₀.ip] at isAck
  have sent₁ : answer ∈ h₁.sent := by
    rw [← answered]
    exact List.mem_concat_self
  have accepted := ((begun.tail (.send rfl asks)).tail
    (.receive (Set.mem_insert _ _) received)).tail (.acknowledge (.inr sent₁) isAck)
  rw [carries.block (Nat.two_pow_pos 16)] at accepted
  have settled₁ : h₁.Settled (Vector.replicate 6 1) 0xC0A80101 := by
    rw [← answered]
    exact ⟨settled₀.eth, settled₀.ip, settled₀.arp, settled₀.quiet⟩
  have receiver₁ : h₁.receiver = requested := by rw [← answered]
  have found₁ : h₁.arp.findEntry 0xC0A80102 = some i := by rw [← answered, found₀]
  -- The block is sent and received.
  have block : (tftpFrame 35 15 3 1).Brings 0xC0A80101
      ⟨threeBytesClient, .data 1 (fileBlock [0, 0, 0] 1)⟩ :=
    ⟨by decide +kernel, by decide +kernel, by decide +kernel⟩
  have uploaded := accepted.tail (.send rfl block)
  have stored : h₁.answer 64 (tftpFrame 35 15 3 1) =
      tftpRcvPacketSkb 64 (tftpFrame 35 15 3 1).tftp requested := by
    rw [Host.answer_of_isTftp (by rw [settled₁.ip]; exact block.tftp), receiver₁]
  have reply : (tftpRcvPacketSkb 64 (tftpFrame 35 15 3 1).tftp requested).reply =
      some ⟨threeBytesClient, 1⟩ := by decide +kernel
  have closed : (tftpRcvPacketSkb 64 (tftpFrame 35 15 3 1).tftp requested).receiver.putBegin =
      false := by decide +kernel
  rw [← stored] at reply
  have room₁ : ¬ h₁.Stuck (tftpFrame 35 15 3 1) := Host.not_stuck_of_room (by decide +kernel)
  obtain ⟨answer', carries', received'⟩ :=
    Host.ethRcv_acknowledges settled₁.quiet room₁ reply found₁
  rw [stored] at received'
  have isAck' := carries'.isAck
  rw [settled₁.ip] at isAck'
  refine ⟨h, _, _, answer', booted, uploaded, rfl, Set.mem_insert _ _, ?_, received', closed,
    List.mem_concat_self, isAck', carries'.block (by decide)⟩
  dsimp only
  rw [receiver₁]
  rfl

/-- The client of three bytes is done, and they are in memory. -/
theorem upload_done_has_file_three_bytes :
    ∃ h w,
      (Host.boot (Vector.replicate 6 1) 0xC0A80101 allOnes).receiveAll 64 [clientFrame] = some h ∧
      FrameUpload.Reaches threeBytesClient 0xC0A80101 64 [0, 0, 0] h w ∧
      w.client = .done ∧ w.host.receiver.buf 2 = 0 := by
  obtain ⟨h, w, h', answer, booted, run, client, sent, -, received, -, new, isAck, block⟩ :=
    threeBytes_sent
  have finished := (run.tail (.receive sent received)).tail (.acknowledge (.inr new) isAck)
  rw [client, block] at finished
  exact ⟨h, _, booted, finished, rfl, upload_done_has_file _ _ _ _ threeBytesClient 64 [0, 0, 0]
    (by decide) (by decide) (by decide) (by decide) booted finished rfl 2 (by decide)⟩

/-- The block of three bytes ends the transfer. -/
theorem upload_frame_ends_with_file_three_bytes :
    ∃ h w h',
      (Host.boot (Vector.replicate 6 1) 0xC0A80101 allOnes).receiveAll 64 [clientFrame] = some h ∧
      FrameUpload.Reaches threeBytesClient 0xC0A80101 64 [0, 0, 0] h w ∧
      w.host.ethRcv 64 (tftpFrame 35 15 3 1) = some h' ∧
      h'.receiver.dataLen = 3 ∧ h'.receiver.buf 2 = 0 := by
  obtain ⟨h, w, h', answer, booted, run, -, sent, isOpen, received, closed, -⟩ := threeBytes_sent
  obtain ⟨len, holds⟩ := upload_frame_ends_with_file _ _ _ _ threeBytesClient 64 [0, 0, 0]
    (by decide) (by decide) (by decide) (by decide) booted run sent received isOpen closed
  exact ⟨h, w, h', booted, run, received, len, holds 2 (by decide)⟩

end En7512.Net
