/-
# The ARP cache

The boot loader keeps the Ethernet addresses of its peers in a small array. An address
that is in the array is updated where it is, and an address that is not takes the place
under a cursor that goes round the array. A lookup that fails sends a request, and the
caller drops its packet.

Seen from outside, the array is a map bounded in size that forgets its oldest insertion.
-/

import En7512.Logic.FifoCache

namespace En7512.Net

open En7512.Logic

/-! ## The code -/

/-- `ARP_CACHE_SIZE`. -/
def arpCacheSize : ℕ := 16

instance : NeZero arpCacheSize := ⟨by decide⟩

/-- An Ethernet address: `ETH_ALEN` bytes. -/
abbrev EthAddr := Vector UInt8 6

/-- An IP address, in the byte order of the network. -/
abbrev IpAddr := BitVec 32

/-- `htonl` and `htons`: the processor is big-endian. -/
def hton {w : ℕ} (x : BitVec w) : BitVec w := x

/-- `arp_entry`. -/
structure ArpEntry where
  arHa : EthAddr
  arIp : IpAddr

/-- `struct arphdr`. -/
structure ArpHdr where
  arHrd : BitVec 16
  arPro : BitVec 16
  arHln : BitVec 8
  arPln : BitVec 8
  arOp : BitVec 16
  arSha : EthAddr
  arSip : IpAddr
  arTha : EthAddr
  arTip : IpAddr

/-- `ARPHRD_ETHER`. -/
def arphrdEther : BitVec 16 := 1

/-- `ARPOP_REQUEST`. -/
def arpopRequest : BitVec 16 := 1

/-- `ARPOP_REPLY`. -/
def arpopReply : BitVec 16 := 2

/-- The static variables of the ARP layer, and the packets it has given to `eth_send` with
their destinations. -/
structure Arp where
  /-- `arp_entrys`: the addresses of the boot loader itself. -/
  arpEntrys : ArpEntry
  arpCache : Fin arpCacheSize → ArpEntry
  arpChcheCur : Fin arpCacheSize
  sent : List (EthAddr × ArpHdr)

/-- An address of zeros. -/
def zeroAddr : EthAddr := Vector.replicate 6 0

/-- The broadcast address. -/
def broadcast : EthAddr := Vector.replicate 6 0xFF

namespace Arp

/-- `ETH_P_IP`. -/
def ethPIp : BitVec 16 := 0x0800

/-- `arp_init` at boot, when the cursor has its initial value. -/
def arpInit : Arp where
  arpEntrys := ⟨zeroAddr, 0⟩
  arpCache := fun _ => ⟨zeroAddr, 0⟩
  arpChcheCur := 0
  sent := []

/-- `arp_add_entry`. -/
def arpAddEntry (ha : EthAddr) (ip : IpAddr) (s : Arp) : Arp :=
  { s with arpEntrys := ⟨ha, hton ip⟩ }

/-- The loops of `arp_add_cache` and `arp_get_eth_addr`: the first entry with the address. -/
def findEntry (ip : IpAddr) (s : Arp) : Option (Fin arpCacheSize) :=
  (List.finRange arpCacheSize).find? fun i => ip = (s.arpCache i).arIp

/-- `arp_add_cache`. -/
def arpAddCache (ha : EthAddr) (ip : IpAddr) (s : Arp) : Arp :=
  match s.findEntry ip with
  | some i => { s with arpCache := Function.update s.arpCache i ⟨ha, ip⟩ }
  | none => { s with
      arpCache := Function.update s.arpCache s.arpChcheCur ⟨ha, ip⟩
      arpChcheCur := s.arpChcheCur + 1 }

/-- The header that `arp_send_req` builds. -/
def arpReq (ip : IpAddr) (s : Arp) : ArpHdr where
  arHrd := hton arphrdEther
  arPro := hton ethPIp
  arHln := 0x06
  arPln := 0x04
  arOp := hton arpopRequest
  arSha := s.arpEntrys.arHa
  arSip := s.arpEntrys.arIp
  arTha := zeroAddr
  arTip := hton ip

/-- `arp_send_req`. -/
def arpSendReq (ip : IpAddr) (s : Arp) : Arp :=
  { s with sent := s.sent ++ [(broadcast, s.arpReq ip)] }

/-- The header that `arp_send_rsp` builds. -/
def arpRsp (hdr : ArpHdr) (s : Arp) : ArpHdr where
  arHrd := hton arphrdEther
  arPro := hton ethPIp
  arHln := 0x06
  arPln := 0x04
  arOp := hton arpopReply
  arSha := s.arpEntrys.arHa
  arSip := hdr.arTip
  arTha := hdr.arSha
  arTip := hdr.arSip

/-- `arp_send_rsp`. -/
def arpSendRsp (hdr : ArpHdr) (s : Arp) : Arp :=
  { s with sent := s.sent ++ [(hdr.arSha, s.arpRsp hdr)] }

/-- `arp_get_eth_addr`: the value it returns, and what is in `ha` afterwards. -/
def arpGetEthAddr (ip : IpAddr) (ha : EthAddr) (s : Arp) : (ℤ × EthAddr) × Arp :=
  match s.findEntry (hton ip) with
  | some i => ((0, (s.arpCache i).arHa), s)
  | none => ((-1, ha), s.arpSendReq ip)

/-- `arp_rcv_packet`. -/
def arpRcvPacket (hdr : ArpHdr) (s : Arp) : Arp :=
  if hdr.arTip ≠ s.arpEntrys.arIp then s
  else
    let s := if hdr.arOp = hton arpopRequest then s.arpSendRsp hdr else s
    s.arpAddCache hdr.arSha hdr.arSip

/-! ## The map -/

/-- The array as a cache of the addresses. A zero address marks an entry that is free. -/
def cache (s : Arp) : FifoCache arpCacheSize IpAddr EthAddr where
  slot i :=
    if (s.arpCache i).arIp = 0#32 then none
    else some ((s.arpCache i).arIp, (s.arpCache i).arHa)
  cursor := s.arpChcheCur

/-- The state after calls of `arp_add_cache` since boot, the last call first. -/
def afterCalls (calls : List (IpAddr × EthAddr)) : Arp :=
  calls.foldr (fun call => arpAddCache call.2 call.1) arpInit

section Cache

variable {s : Arp} {ip : IpAddr} {ha : EthAddr} {i : Fin arpCacheSize}

theorem key_cache (nonzero : ip ≠ 0#32) :
    (s.cache.slot i).map Prod.fst = some ip ↔ ip = (s.arpCache i).arIp := by
  by_cases zero : (s.arpCache i).arIp = 0#32
  · simp [cache, zero, nonzero]
  · simp only [cache, if_neg zero, Option.map_some, Option.some.injEq]
    exact eq_comm

/-- The loops look for a key of the cache. -/
theorem find_cache (nonzero : ip ≠ 0#32) : s.cache.find ip = s.findEntry ip := by
  simp only [FifoCache.find, findEntry, key_cache nonzero]

/-- `arp_init` leaves the cache empty. -/
theorem cache_arpInit : arpInit.cache = FifoCache.empty := rfl

/-- `arp_add_cache` puts an address into the cache. -/
theorem cache_arpAddCache (nonzero : ip ≠ 0#32) :
    (s.arpAddCache ha ip).cache = s.cache.put ip ha := by
  have updated (i : Fin arpCacheSize) : (fun j =>
      if (Function.update s.arpCache i ⟨ha, ip⟩ j).arIp = 0#32 then none
      else some ((Function.update s.arpCache i ⟨ha, ip⟩ j).arIp,
        (Function.update s.arpCache i ⟨ha, ip⟩ j).arHa)) =
      Function.update s.cache.slot i (some (ip, ha)) := by
    funext j
    by_cases here : j = i
    · simp [here, nonzero]
    · simp [here, cache]
  rw [FifoCache.put, find_cache nonzero, arpAddCache]
  cases s.findEntry ip with
  | none => simp only [cache, updated]
  | some i => simp only [cache, updated]

end Cache

/-- The array is the cache of the calls. -/
theorem cache_afterCalls {calls : List (IpAddr × EthAddr)}
    (nonzero : ∀ call ∈ calls, call.1 ≠ 0#32) :
    (afterCalls calls).cache = FifoCache.after calls := by
  induction calls with
  | nil => exact cache_arpInit
  | cons call calls ih =>
      have before := ih fun c hc => nonzero c (List.mem_cons_of_mem _ hc)
      show ((afterCalls calls).arpAddCache call.2 call.1).cache = _
      rw [cache_arpAddCache (nonzero call List.mem_cons_self), before]
      rfl

/-- `arp_get_eth_addr` finds an address while it is among the last `ARP_CACHE_SIZE`
insertions, and returns the Ethernet address it was given last; it sends a request for every
other address. No address has two entries. -/
theorem arpGetEthAddr_after {calls : List (IpAddr × EthAddr)}
    (nonzero : ∀ call ∈ calls, call.1 ≠ 0#32) {ip : IpAddr} (ne : ip ≠ 0#32) (ha : EthAddr) :
    let s := afterCalls calls
    (Present arpCacheSize calls ip →
      ∃ ha', calls.lookup ip = some ha' ∧ s.arpGetEthAddr ip ha = ((0, ha'), s)) ∧
    (¬ Present arpCacheSize calls ip →
      s.arpGetEthAddr ip ha =
        ((-1, ha), { s with sent := s.sent ++ [(broadcast, s.arpReq ip)] })) ∧
    ∀ i j, ip = (s.arpCache i).arIp → ip = (s.arpCache j).arIp → i = j := by
  intro s
  have represents : s.cache.Represents calls := by
    rw [cache_afterCalls nonzero]
    exact FifoCache.represents_after calls
  refine ⟨fun present => ?_, fun absent => ?_, fun i j at_i at_j => ?_⟩
  · obtain ⟨i, ha', found, slot, last⟩ := represents.find_of_present present
    rw [find_cache ne] at found
    use ha', last
    have value : (s.arpCache i).arHa = ha' := by
      by_cases zero : (s.arpCache i).arIp = 0#32
      · simp [cache, zero] at slot
      · simp only [cache, if_neg zero] at slot
        exact congrArg Prod.snd (Option.some.inj slot)
    rw [arpGetEthAddr, hton, found]
    show ((0, (s.arpCache i).arHa), s) = _
    rw [value]
  · have missing := represents.find_of_absent absent
    rw [find_cache ne] at missing
    rw [arpGetEthAddr, hton, missing]
    rfl
  · exact represents.slot_unique ((key_cache ne).mpr at_i) ((key_cache ne).mpr at_j)

/-- The first address of seventeen is forgotten, the second is not, and it keeps its place
when it is updated. -/
theorem arpGetEthAddr_seventeen :
    let addr (n : ℕ) : IpAddr := BitVec.ofNat 32 (0x0A000000 + n)
    let calls := (addr 2, broadcast) :: ((List.range' 1 17).map fun n => (addr n, zeroAddr)).reverse
    let s := afterCalls calls
    (s.arpGetEthAddr (addr 2) zeroAddr).1 = (0, broadcast) ∧
      (s.arpGetEthAddr (addr 1) zeroAddr).1 = (-1, zeroAddr) := by
  intro addr calls s
  have nonzero : ∀ call ∈ calls, call.1 ≠ 0#32 := by decide +kernel
  obtain ⟨found, -, -⟩ := arpGetEthAddr_after nonzero (show addr 2 ≠ 0#32 by decide) zeroAddr
  obtain ⟨-, missing, -⟩ := arpGetEthAddr_after nonzero (show addr 1 ≠ 0#32 by decide) zeroAddr
  constructor
  · obtain ⟨ha', last, result⟩ := found (by decide +kernel)
    have value : calls.lookup (addr 2) = some broadcast := by decide +kernel
    rw [result, Option.some.inj (last.symm.trans value)]
  · rw [missing (by decide +kernel)]

end Arp

end En7512.Net
