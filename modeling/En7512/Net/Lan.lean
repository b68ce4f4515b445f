/-
# Boot loaders on a network

Any number of boot loaders are on a network with other machines. Every frame that has been
sent may arrive anywhere, any number of times or never; nothing is known of the frames of
the other machines, but that their ARP packets tell the truth about some addresses. Then
the acknowledgements to these addresses go where they belong. And when no more than
`ARP_CACHE_SIZE` addresses are used on the network, a boot loader that has heard of an
address never has to ask for it.
-/

import En7512.Net.Host

namespace En7512.Net

open En7512.Logic En7512.Nand

/-! ## The network -/

/-- The addresses of the boot loaders, and those the other machines tell the truth about.
Zero is not an address. -/
structure LanAddrs (ι : Type) where
  addr : ι → IpAddr
  owner : IpAddr → EthAddr
  trusted : Set IpAddr
  nonzero : 0#32 ∉ trusted

/-- The boot loaders, and the frames that have been sent. -/
structure Lan (ι : Type) where
  host : ι → Host
  wire : Set EthFrame

variable {ι : Type} {addrs : LanAddrs ι}

/-- Nothing has been sent. -/
def Lan.start (addrs : LanAddrs ι) (mem : ι → Bytes) : Lan ι where
  host i := .boot (addrs.owner (addrs.addr i)) (addrs.addr i) (mem i)
  wire := ∅

/-- What may happen next: another machine sends a frame, or a frame arrives. -/
inductive Lan.Step [DecidableEq ι] (dramSize : ℕ) (foreign : EthFrame → Prop) :
    Lan ι → Lan ι → Prop
  | send {w : Lan ι} {frame : EthFrame} (allowed : foreign frame) :
      Step dramSize foreign w { w with wire := insert frame w.wire }
  | receive {w : Lan ι} {i : ι} {frame : EthFrame} {h : Host} (sent : frame ∈ w.wire)
      (received : (w.host i).ethRcv dramSize frame = some h) :
      Step dramSize foreign w
        { host := Function.update w.host i h, wire := w.wire ∪ {f | f ∈ h.sent} }

/-- The states of a run. -/
abbrev Lan.Reaches [DecidableEq ι] (dramSize : ℕ) (foreign : EthFrame → Prop) :
    Lan ι → Lan ι → Prop :=
  Relation.ReflTransGen (Lan.Step dramSize foreign)

/-- An ARP packet with an address in `trusted` tells the truth about it. -/
def EthFrame.Truthful (addrs : LanAddrs ι) (frame : EthFrame) : Prop :=
  u16At frame.bytes 12 = ethPArp → frame.arp.arSip ∈ addrs.trusted →
    frame.arp.arSha = addrs.owner frame.arp.arSip

/-- A frame of boot loader `i`: the addresses are its own, and an IP packet to an address in
`trusted` goes to its owner. -/
structure EthFrame.Sound (addrs : LanAddrs ι) (i : ι) (frame : EthFrame) : Prop where
  source : (ethhdr.read frame.bytes).hSource = addrs.owner (addrs.addr i)
  arp : u16At frame.bytes 12 = ethPArp →
    frame.arp.arSip = addrs.addr i ∧ frame.arp.arSha = addrs.owner (addrs.addr i)
  ip : u16At frame.bytes 12 = ethPIp →
    let hdr := iphdr.read (fromCell ethhdrSize frame.bytes)
    hdr.saddr = addrs.addr i ∧
      (hdr.daddr ∈ addrs.trusted → (ethhdr.read frame.bytes).hDest = addrs.owner hdr.daddr)

theorem EthFrame.Sound.truthful {frame : EthFrame} {i : ι} (sound : frame.Sound addrs i) :
    frame.Truthful addrs := by
  intro isArp _
  obtain ⟨sip, sha⟩ := sound.arp isArp
  rw [sip, sha]

/-! ## The cache -/

namespace Arp

variable {s : Arp} {ha : EthAddr} {ip : IpAddr} {i : Fin arpCacheSize}

theorem arIp_of_findEntry (found : s.findEntry ip = some i) : (s.arpCache i).arIp = ip := by
  have here := List.find?_some found
  simp only [decide_eq_true_eq] at here
  exact here.symm

/-- An entry is what was added, or what it was before. -/
theorem arpCache_arpAddCache (ha : EthAddr) (ip : IpAddr) (s : Arp) (j : Fin arpCacheSize) :
    (s.arpAddCache ha ip).arpCache j = s.arpCache j ∨
      (s.arpAddCache ha ip).arpCache j = ⟨ha, ip⟩ := by
  have updated (i : Fin arpCacheSize) : Function.update s.arpCache i ⟨ha, ip⟩ j = s.arpCache j ∨
      Function.update s.arpCache i ⟨ha, ip⟩ j = ⟨ha, ip⟩ := by
    by_cases here : j = i
    · right
      rw [here, Function.update_self]
    · left
      rw [Function.update_of_ne here]
  rw [arpAddCache]
  cases s.findEntry ip with
  | none => exact updated s.arpChcheCur
  | some i => exact updated i

/-- The entries for addresses in `trusted` are true. -/
def Sound (addrs : LanAddrs ι) (s : Arp) : Prop :=
  ∀ j, (s.arpCache j).arIp ∈ addrs.trusted →
    (s.arpCache j).arHa = addrs.owner (s.arpCache j).arIp

theorem Sound.arpAddCache (sound : s.Sound addrs)
    (truth : ip ∈ addrs.trusted → ha = addrs.owner ip) : (s.arpAddCache ha ip).Sound addrs := by
  intro j
  rcases arpCache_arpAddCache ha ip s j with same | added
  · rw [same]
    exact sound j
  · rw [added]
    exact truth

end Arp

/-! ## The frames of one boot loader -/

section Sound

variable {i : ι} {frame : EthFrame} {dest : EthAddr} {h h' : Host} {dramSize : ℕ}

theorem EthFrame.CarriesArp.sound {hdr : ArpHdr}
    (carries : frame.CarriesArp (addrs.owner (addrs.addr i)) dest hdr)
    (sip : hdr.arSip = addrs.addr i) (sha : hdr.arSha = addrs.owner (addrs.addr i)) :
    frame.Sound addrs i := by
  have proto : u16At frame.bytes 12 = ethPArp :=
    proto_of_read (by decide) (by rw [carries.eth])
  constructor
  · rw [carries.eth]
  · intro _
    rw [EthFrame.arp, carries.arp]
    exact ⟨sip, sha⟩
  · intro ip
    rw [proto] at ip
    exact absurd ip (by decide)

theorem EthFrame.CarriesAck.sound {id : BitVec 16} {ack : AckPacket}
    (carries : frame.CarriesAck (addrs.owner (addrs.addr i)) dest (addrs.addr i) id ack)
    (known : BitVec.ofNat 32 ack.dest.ip ∈ addrs.trusted →
      dest = addrs.owner (BitVec.ofNat 32 ack.dest.ip)) : frame.Sound addrs i := by
  have proto : u16At frame.bytes 12 = ethPIp :=
    proto_of_read (by decide) (by rw [carries.eth])
  obtain ⟨check, ip⟩ := carries.ip
  constructor
  · rw [carries.eth]
  · intro arp
    rw [proto] at arp
    exact absurd arp (by decide)
  · intro _
    rw [ip, carries.eth]
    exact ⟨rfl, known⟩

/-- What a boot loader keeps: its addresses, true entries, and sound frames. -/
structure Host.Sound (addrs : LanAddrs ι) (i : ι) (h : Host) : Prop where
  settled : h.Settled (addrs.owner (addrs.addr i)) (addrs.addr i)
  cache : h.arp.Sound addrs
  sent : ∀ f ∈ h.sent, f.Sound addrs i

theorem Host.sound_boot (addrs : LanAddrs ι) (i : ι) (mem : Bytes) :
    (Host.boot (addrs.owner (addrs.addr i)) (addrs.addr i) mem).Sound addrs i where
  settled := Host.settled_boot ..
  cache _ trusted := absurd trusted addrs.nonzero
  sent _ none := absurd none List.not_mem_nil

/-- One more frame. -/
theorem sent_append {f : EthFrame} (sent : ∀ f ∈ h.sent, f.Sound addrs i)
    (sound : f.Sound addrs i) : ∀ f' ∈ h.sent ++ [f], f'.Sound addrs i := by
  intro f' mem
  rcases List.mem_append.mp mem with before | new
  · exact sent f' before
  · rw [List.mem_singleton.mp new]
    exact sound

/-- A truthful frame keeps a boot loader sound. -/
theorem Host.Sound.receive (sound : h.Sound addrs i) (truthful : frame.Truthful addrs)
    (receives : h.Receives dramSize frame h') : h'.Sound addrs i := by
  have settled := receives.settled sound.settled
  obtain ⟨⟨eth, ip, arp, quiet⟩, cache, sent⟩ := sound
  cases receives with
  | elsewhere isArp other => exact ⟨settled, cache, sent⟩
  | asked isArp own request =>
      refine ⟨settled, cache.arpAddCache (truthful isArp), sent_append sent ?_⟩
      rw [eth]
      apply (carriesArp_arpFrame ..).sound
      · rw [Arp.arpRsp, own, arp]
      · rw [Arp.arpRsp, arp]
  | told isArp own other => exact ⟨settled, cache.arpAddCache (truthful isArp), sent⟩
  | silent noArp reply => exact ⟨settled, cache, sent⟩
  | unknown noArp reply missing =>
      refine ⟨settled, cache, sent_append sent ?_⟩
      rw [eth]
      apply (carriesArp_arpFrame ..).sound
      · rw [Arp.arpReq, arp]
      · rw [Arp.arpReq, arp]
  | acknowledged noArp reply found carries =>
      refine ⟨settled, cache, sent_append sent ?_⟩
      rw [eth, ip] at carries
      apply carries.sound
      intro trusted
      rw [← Arp.arIp_of_findEntry found] at trusted ⊢
      exact cache _ trusted

end Sound

/-! ## The whole network -/

section Run

variable [DecidableEq ι] {dramSize : ℕ} {foreign : EthFrame → Prop} {w w' : Lan ι}

/-- What holds throughout a run. -/
structure Lan.Sound (addrs : LanAddrs ι) (w : Lan ι) : Prop where
  host : ∀ i, (w.host i).Sound addrs i
  wire : ∀ f ∈ w.wire, f.Truthful addrs

omit [DecidableEq ι] in
theorem Lan.sound_start (addrs : LanAddrs ι) (mem : ι → Bytes) :
    (Lan.start addrs mem).Sound addrs where
  host i := Host.sound_boot addrs i (mem i)
  wire _ none := absurd none (Set.notMem_empty _)

theorem Lan.Sound.step (sound : w.Sound addrs) (truth : ∀ f, foreign f → f.Truthful addrs)
    (step : Lan.Step dramSize foreign w w') : w'.Sound addrs := by
  cases step with
  | send allowed =>
      use sound.host
      rintro f (rfl | before)
      · exact truth f allowed
      · exact sound.wire f before
  | @receive i frame h sent received =>
      have receives := Host.ethRcv_receives (sound.host i).settled.quiet received
      have kept := (sound.host i).receive (sound.wire frame sent) receives
      constructor
      · intro j
        show (Function.update w.host i h j).Sound addrs j
        by_cases here : j = i
        · subst here
          rw [Function.update_self]
          exact kept
        · rw [Function.update_of_ne here]
          exact sound.host j
      · rintro f (before | new)
        · exact sound.wire f before
        · exact (kept.sent f new).truthful

theorem Lan.Sound.reaches (sound : w.Sound addrs) (truth : ∀ f, foreign f → f.Truthful addrs)
    (run : Lan.Reaches dramSize foreign w w') : w'.Sound addrs := by
  induction run with
  | refl => exact sound
  | tail _ step ih => exact ih.step truth step

end Run

/-- Whatever the other machines send and whatever the network does with it, as long as their
ARP packets tell the truth about the addresses in `trusted`: every frame that a boot loader
has sent has its own addresses, and a packet to an address in `trusted` goes to its owner. -/
theorem lan_frames_reach_owners [DecidableEq ι] (dramSize : ℕ) (addrs : LanAddrs ι)
    (mem : ι → Bytes) {w : Lan ι}
    (run : Lan.Reaches dramSize (EthFrame.Truthful addrs) (.start addrs mem) w) (i : ι) :
    ∀ frame ∈ (w.host i).sent, frame.Sound addrs i :=
  (((Lan.sound_start addrs mem).reaches (fun _ truth => truth) run).host i).sent

/-- A boot loader at 192.168.1.1 and its client at 192.168.1.2. -/
def twoMachines : LanAddrs Unit where
  addr _ := 0xC0A80101
  owner ip := if ip = 0xC0A80102 then Vector.replicate 6 2 else Vector.replicate 6 1
  trusted := {0xC0A80102}
  nonzero := by simp

/-- The boot loader has heard of its client. -/
theorem twoMachines_heard (foreign : EthFrame → Prop) (allowed : foreign clientFrame) :
    ∃ w : Lan Unit, Lan.Reaches 64 foreign (.start twoMachines fun _ => allOnes) w ∧
      (w.host ()).receiver = .initial allOnes ∧ (w.host ()).localIp = 0xC0A80101 ∧
      (w.host ()).sent ≠ [] ∧ (w.host ()).arp.findEntry 0xC0A80102 ≠ none := by
  have sent : Lan.Step 64 foreign (.start twoMachines fun _ => allOnes) _ := .send allowed
  obtain ⟨h, received, heard⟩ := boot_ethRcv_clientFrame
  have run := (Relation.ReflTransGen.single sent).tail
    (.receive (i := ()) (Set.mem_insert clientFrame _) received)
  refine ⟨_, run, ?_⟩
  dsimp only
  rw [Function.update_self]
  exact heard

/-- The answer to the client is sound. -/
theorem lan_frames_reach_owners_answer :
    ∃ w : Lan Unit,
      Lan.Reaches 64 (EthFrame.Truthful twoMachines) (.start twoMachines fun _ => allOnes) w ∧
        (w.host ()).sent ≠ [] ∧ ∀ frame ∈ (w.host ()).sent, frame.Sound twoMachines () := by
  have truthful : clientFrame.Truthful twoMachines := by
    rintro _ _
    rw [arp_clientFrame]
    rfl
  obtain ⟨w, run, -, -, answered, -⟩ := twoMachines_heard _ truthful
  exact ⟨w, run, answered, lan_frames_reach_owners 64 twoMachines (fun _ => allOnes) run ()⟩

/-! ## What the caches remember -/

namespace Arp

variable {s : Arp} {ha : EthAddr} {ip : IpAddr} {i : Fin arpCacheSize}
  {calls : List (IpAddr × EthAddr)} {used : Finset IpAddr}

/-- The address zero is put where none is. -/
theorem cache_arpAddCache_zero (free : s.cache.slot i = none) :
    (s.arpAddCache ha 0#32).cache = s.cache := by
  have zero : (s.arpCache i).arIp = 0#32 := by
    by_contra taken
    simp only [cache, if_neg taken] at free
    cases free
  cases found : s.findEntry 0#32 with
  | none =>
      have missing := List.find?_eq_none.mp found i (List.mem_finRange i)
      simp only [zero, decide_true, not_true_eq_false] at missing
  | some j =>
      have here := arIp_of_findEntry found
      rw [arpAddCache, found]
      dsimp only [cache]
      congr 1
      funext k
      by_cases same : k = j
      · simp [same, here]
      · simp [same]

/-- The cache has been given these calls, all of them for addresses in `used`. -/
structure Remembers (used : Finset IpAddr) (calls : List (IpAddr × EthAddr)) (s : Arp) :
    Prop where
  represents : s.cache.Represents calls
  within : ∀ call ∈ calls, call.1 ∈ used.erase 0#32

/-- Nothing is forgotten. -/
theorem Remembers.arpAddCache (remembers : s.Remembers used calls)
    (few : used.card ≤ arpCacheSize) (member : ip ∈ used) (ha : EthAddr) :
    ∃ calls', calls ⊆ calls' ∧ (s.arpAddCache ha ip).Remembers used calls' := by
  obtain ⟨represents, within⟩ := remembers
  by_cases zero : ip = 0#32
  · subst zero
    have fewer : (used.erase 0#32).card < arpCacheSize :=
      lt_of_lt_of_le (Finset.card_erase_lt_of_mem member) few
    obtain ⟨i, free⟩ := represents.exists_free fewer within
    refine ⟨calls, List.Subset.refl _, ?_, within⟩
    rw [cache_arpAddCache_zero free]
    exact represents
  · refine ⟨(ip, ha) :: calls, List.subset_cons_self .., ?_, fun call mem => ?_⟩
    · rw [cache_arpAddCache zero]
      exact represents.put ip ha
    · rcases List.mem_cons.mp mem with rfl | before
      · exact Finset.mem_erase.mpr ⟨zero, member⟩
      · exact within call before

theorem remembers_boot (ha : EthAddr) (ip : IpAddr) (used : Finset IpAddr) :
    (Arp.arpInit.arpAddEntry ha ip).Remembers used [] where
  represents := FifoCache.Represents.empty
  within _ none := absurd none List.not_mem_nil

/-- An address that is found has been given. -/
theorem Remembers.mem_of_findEntry (remembers : s.Remembers used calls) (nonzero : ip ≠ 0#32)
    (found : s.findEntry ip = some i) : ∃ ha, (ip, ha) ∈ calls := by
  rw [← find_cache nonzero] at found
  have present : Present arpCacheSize calls ip :=
    remembers.represents.present_iff.mpr ⟨i, FifoCache.key_of_find found⟩
  obtain ⟨i, ha, -, -, last⟩ := remembers.represents.find_of_present present
  obtain ⟨before, after, split, -⟩ := List.lookup_eq_some_iff.mp last
  rw [split]
  exact ⟨ha, List.mem_append_right before List.mem_cons_self⟩

/-- An address that has been given is found. -/
theorem Remembers.findEntry_of_mem (remembers : s.Remembers used calls)
    (few : used.card ≤ arpCacheSize) (mem : (ip, ha) ∈ calls) : ∃ i, s.findEntry ip = some i := by
  obtain ⟨represents, within⟩ := remembers
  have nonzero : ip ≠ 0#32 := Finset.ne_of_mem_erase (within _ mem)
  have fewer : (used.erase 0#32).card ≤ arpCacheSize := le_trans (Finset.card_erase_le) few
  obtain ⟨i, -, found, -⟩ := represents.find_of_present (present_of_few fewer within mem)
  rw [find_cache nonzero] at found
  exact ⟨i, found⟩

end Arp

section Memory

variable [DecidableEq ι] {dramSize : ℕ} {foreign : EthFrame → Prop} {w w' : Lan ι}
  {used : Finset IpAddr} {calls : ι → List (IpAddr × EthAddr)}

/-- The ARP packets in a frame come from an address in `used`. -/
def EthFrame.Within (used : Finset IpAddr) (frame : EthFrame) : Prop :=
  u16At frame.bytes 12 = ethPArp → frame.arp.arSip ∈ used

/-- No more addresses than entries are in use, those of the boot loaders among them. -/
structure LanAddrs.Few (addrs : LanAddrs ι) (used : Finset IpAddr) : Prop where
  card : used.card ≤ arpCacheSize
  own : ∀ i, addrs.addr i ∈ used

/-- What the boot loaders remember of a run. -/
structure Lan.Remembers (used : Finset IpAddr) (calls : ι → List (IpAddr × EthAddr))
    (w : Lan ι) : Prop where
  host : ∀ i, (w.host i).arp.Remembers used (calls i)
  wire : ∀ f ∈ w.wire, f.Within used

omit [DecidableEq ι] in
/-- A frame that arrives adds to it. -/
theorem Host.Receives.remembers {h h' : Host} {frame : EthFrame}
    {calls : List (IpAddr × EthAddr)} (receives : h.Receives dramSize frame h')
    (remembers : h.arp.Remembers used calls) (few : used.card ≤ arpCacheSize)
    (within : frame.Within used) :
    ∃ calls', calls ⊆ calls' ∧ h'.arp.Remembers used calls' := by
  cases receives with
  | elsewhere isArp other => exact ⟨calls, List.Subset.refl _, remembers⟩
  | asked isArp own request => exact remembers.arpAddCache few (within isArp) _
  | told isArp own other => exact remembers.arpAddCache few (within isArp) _
  | silent noArp reply => exact ⟨calls, List.Subset.refl _, remembers⟩
  | unknown noArp reply missing => exact ⟨calls, List.Subset.refl _, remembers⟩
  | acknowledged noArp reply found carries => exact ⟨calls, List.Subset.refl _, remembers⟩

omit [DecidableEq ι] in
theorem Lan.remembers_start (addrs : LanAddrs ι) (mem : ι → Bytes) (used : Finset IpAddr) :
    (Lan.start addrs mem).Remembers used fun _ => [] where
  host _ := Arp.remembers_boot ..
  wire _ none := absurd none (Set.notMem_empty _)

theorem Lan.Remembers.step (remembers : w.Remembers used calls) (sound : w'.Sound addrs)
    (few : addrs.Few used) (within : ∀ f, foreign f → f.Within used)
    (step : Lan.Step dramSize foreign w w') (quiet : ∀ i, (w.host i).arp.sent = []) :
    ∃ calls', (∀ i, calls i ⊆ calls' i) ∧ w'.Remembers used calls' := by
  cases step with
  | send allowed =>
      refine ⟨calls, fun i => List.Subset.refl _, remembers.host, ?_⟩
      rintro f (rfl | before)
      · exact within f allowed
      · exact remembers.wire f before
  | @receive i frame h sent received =>
      have receives := Host.ethRcv_receives (quiet i) received
      obtain ⟨calls', more, kept⟩ :=
        receives.remembers (remembers.host i) few.card (remembers.wire frame sent)
      refine ⟨Function.update calls i calls', fun j => ?_, fun j => ?_, ?_⟩
      · by_cases here : j = i
        · subst here
          rw [Function.update_self]
          exact more
        · rw [Function.update_of_ne here]
          exact List.Subset.refl _
      · show (Function.update w.host i h j).arp.Remembers used _
        by_cases here : j = i
        · subst here
          rw [Function.update_self, Function.update_self]
          exact kept
        · rw [Function.update_of_ne here, Function.update_of_ne here]
          exact remembers.host j
      · rintro f (before | new)
        · exact remembers.wire f before
        · intro isArp
          have own : (Function.update w.host i h i).sent = h.sent := by
            rw [Function.update_self]
          obtain ⟨sip, -⟩ := ((sound.host i).sent f (own ▸ new)).arp isArp
          rw [sip]
          exact few.own i

/-- What was remembered in the course of a run still is. -/
theorem Lan.Remembers.reaches (remembers : w.Remembers used calls) (sound : w.Sound addrs)
    (few : addrs.Few used) (truth : ∀ f, foreign f → f.Truthful addrs)
    (within : ∀ f, foreign f → f.Within used) (run : Lan.Reaches dramSize foreign w w') :
    ∃ calls', (∀ i, calls i ⊆ calls' i) ∧ w'.Remembers used calls' := by
  induction run with
  | refl => exact ⟨calls, fun i => List.Subset.refl _, remembers⟩
  | tail before step ih =>
      obtain ⟨calls₁, more₁, remembers₁⟩ := ih
      have sound₁ := sound.reaches truth before
      obtain ⟨calls', more, remembers'⟩ := remembers₁.step (sound₁.step truth step) few within step
        fun i => (sound₁.host i).settled.quiet
      exact ⟨calls', fun i => List.Subset.trans (more₁ i) (more i), remembers'⟩

end Memory

/-- On a network with no more addresses than the cache has entries, a boot loader that has an
address of `trusted` in its cache sends every later acknowledgement to that address at once,
and to its owner: none is dropped, whatever happens in between. The frame that is acknowledged
has room for the header of a packet. -/
theorem lan_acknowledges [DecidableEq ι] (dramSize : ℕ) (addrs : LanAddrs ι) (mem : ι → Bytes)
    (used : Finset IpAddr) (few : addrs.Few used) (foreign : EthFrame → Prop)
    (truth : ∀ f, foreign f → f.Truthful addrs) (within : ∀ f, foreign f → f.Within used)
    {w w' : Lan ι} (run : Lan.Reaches dramSize foreign (.start addrs mem) w)
    (later : Lan.Reaches dramSize foreign w w') (i : ι) {ip : IpAddr}
    (trusted : ip ∈ addrs.trusted) (known : (w.host i).arp.findEntry ip ≠ none)
    (frame : EthFrame) (room : 12 ≤ frame.udpLen) {ack : AckPacket}
    (reply : ((w'.host i).answer dramSize frame).reply = some ack)
    (client : BitVec.ofNat 32 ack.dest.ip = ip) :
    ∃ h answer, (w'.host i).ethRcv dramSize frame = some h ∧
      h.sent = (w'.host i).sent ++ [answer] ∧
      answer.CarriesAck (addrs.owner (addrs.addr i)) (addrs.owner ip) (addrs.addr i)
        (w'.host i).ipId ack := by
  have start := Lan.sound_start addrs mem
  have sound := start.reaches truth run
  have sound' := sound.reaches truth later
  obtain ⟨calls, -, remembers⟩ :=
    (Lan.remembers_start addrs mem used).reaches start few truth within run
  obtain ⟨calls', more, remembers'⟩ := remembers.reaches sound few truth within later
  have nonzero : ip ≠ 0#32 := fun zero => addrs.nonzero (zero ▸ trusted)
  obtain ⟨i₀, found₀⟩ := Option.ne_none_iff_exists'.mp known
  obtain ⟨ha, given⟩ := (remembers.host i).mem_of_findEntry nonzero found₀
  obtain ⟨j, found⟩ := (remembers'.host i).findEntry_of_mem few.card (more i given)
  have trueEntry := (sound'.host i).cache j
  rw [Arp.arIp_of_findEntry found] at trueEntry
  obtain ⟨eth, ip', -, quiet⟩ := (sound'.host i).settled
  rw [← client] at found
  obtain ⟨answer, carries, received⟩ :=
    Host.ethRcv_acknowledges quiet (Host.not_stuck_of_room room) reply found
  rw [eth, ip', trueEntry trusted] at carries
  exact ⟨_, answer, received, rfl, carries⟩

/-- The request of the client is acknowledged. -/
theorem lan_acknowledges_client :
    ∃ w : Lan Unit, Lan.Reaches 64 (· = clientFrame) (.start twoMachines fun _ => allOnes) w ∧
      ∃ h answer, (w.host ()).ethRcv 64 (tftpFrame 46 26 2 0) = some h ∧
        h.sent = (w.host ()).sent ++ [answer] ∧
        answer.CarriesAck (Vector.replicate 6 1) (Vector.replicate 6 2) 0xC0A80101
          (w.host ()).ipId ⟨⟨3232235778, 1024⟩, 0⟩ := by
  obtain ⟨w, run, receiver, localIp, -, known⟩ :=
    twoMachines_heard (· = clientFrame) rfl
  have few : twoMachines.Few {0xC0A80101, 0xC0A80102} :=
    ⟨by decide, fun _ => Finset.mem_insert_self _ _⟩
  have reply : ((w.host ()).answer 64 (tftpFrame 46 26 2 0)).reply =
      some ⟨⟨3232235778, 1024⟩, 0⟩ := by
    rw [Host.answer, receiver, localIp]
    decide +kernel
  refine ⟨w, run, lan_acknowledges 64 twoMachines (fun _ => allOnes) {0xC0A80101, 0xC0A80102} few
    (· = clientFrame) ?_ ?_ run .refl () (Set.mem_singleton _) known _ (by decide +kernel) reply
    rfl⟩
  · rintro f rfl _ _
    rw [arp_clientFrame]
    rfl
  · rintro f rfl _
    rw [arp_clientFrame]
    decide

end En7512.Net
