/-
# The multicast upgrade

`MultiUpgradeHandle` of `ip.c` receives an image that a server multicasts over and over,
in numbered packets of 1024 bytes. Reception may begin with any packet. It goes on as
long as each number is one more than the one before, or 1 after the highest, and it is
complete when it has come round to where it began. Any other number starts it anew.

A session keeps beside the variables the packets that have been stored since the last
start. When the image is written to the flash, each of its chunks is one of them. The
store itself is not guarded: it stays inside of the image only as long as the numbers do.

The code is the one without the `LIONS` option. `swap32`, `crc32buf` and `struct trx_header`
are defined elsewhere, and the sizes of the flash are those of the board.
-/

import En7512.Logic.Runs
import En7512.Nand.Chip

namespace En7512.Net

open En7512.Logic En7512.Nand

/-- `MULTI_BUF_BASE`. -/
def multiBufBase : ℕ := 0x80020000

/-- `MULTI_UPGRADE_DATA_LEN`. -/
def multiUpgradeDataLen : ℕ := 1024

/-- `MULTI_UPGRADE_PKT_HEADLEN`. -/
def multiUpgradePktHeadlen : ℕ := 32

/-- `LT_OFFSET`. -/
def ltOffset : ℕ := 8

/-- `IMG_LEN_OFFSET`. -/
def imgLenOffset : ℕ := 20

/-- `MICONF_OFFSET`. -/
def miconfOffset : ℕ := 0xff00

/-- `MICONF_SIZE`. -/
def miconfSize : ℕ := 0x100

/-- The `unsigned long` at offset `i`; the processor is big-endian. -/
def longAt (b : Bytes) (i : ℕ) : UInt32 :=
  (b i).toUInt32 <<< 24 ||| (b (i + 1)).toUInt32 <<< 16 ||| (b (i + 2)).toUInt32 <<< 8 |||
    (b (i + 3)).toUInt32

/-- What the handler uses and does not define. -/
structure Board where
  /-- `swap32`. -/
  swap32 : UInt32 → UInt32
  /-- `crc32buf(buf, len, 1)`. -/
  crc32buf : Bytes → UInt32 → UInt32
  /-- `sizeof(struct trx_header)`. -/
  trxHeaderSize : UInt32
  /-- `trx->magic`. -/
  trxMagic : Bytes → UInt32
  /-- `trx->crc32`. -/
  trxCrc32 : Bytes → UInt32
  /-- `TRX_MAGIC2`. -/
  trxMagic2 : UInt32
  /-- `TCBOOT_SIZE`. -/
  tcbootSize : ℕ
  /-- `ROMFILE_SIZE`. -/
  romfileSize : ℕ
  /-- The length above which an image is too big; `none` without such a check. -/
  partitionSize : Option UInt32
  /-- The `mi.conf` in the flash. -/
  miconf : Bytes

variable (b : Board)

/-- `pktseq`. -/
def pktseq (skb : Bytes) : ℕ := ((b.swap32 (longAt skb ltOffset) &&& 0xffff0000) >>> 16).toNat

/-- `imagelen`. -/
def imagelen (skb : Bytes) : UInt32 := b.swap32 (longAt skb imgLenOffset)

theorem pktseq_lt (skb : Bytes) : pktseq b skb < 65536 := by
  have bound := (b.swap32 (longAt skb ltOffset) &&& 0xffff0000).toNat_lt
  simp only [pktseq, UInt32.toNat_shiftRight]
  rw [show (16 : UInt32).toNat % 32 = 16 from rfl, Nat.shiftRight_eq_div_pow]
  omega

/-- The number of packets of an image: `imagelen / MULTI_UPGRADE_DATA_LEN`, and one more for
what is left. -/
def chunkCount (imagelen : UInt32) : ℕ :=
  if imagelen.toNat % multiUpgradeDataLen ≠ 0 then imagelen.toNat / multiUpgradeDataLen + 1
  else imagelen.toNat / multiUpgradeDataLen

/-! ## The handler -/

/-- The static variables, and the memory. The numbers stay far below 2 ^ 31, so that no
conversion between `int` and `unsigned long` changes one; the number before 0 is -1. -/
structure MultiState where
  /-- `oldSeq`. -/
  oldSeq : ℤ
  /-- `startSeq`; -1 until a packet has come. -/
  startSeq : ℤ
  /-- `maxSeq`. -/
  maxSeq : ℤ
  /-- `receive_len`. -/
  receiveLen : UInt32
  /-- `badimg`. -/
  badimg : Bool
  /-- `finishMultiUpgrade`. -/
  finishMultiUpgrade : Bool
  /-- The memory, by address. None of the variables lies where packets are stored. -/
  mem : Bytes

/-- The variables at the beginning. -/
def MultiState.initial (mem : Bytes) : MultiState := ⟨-1, -1, 0, 0, false, false, mem⟩

/-- A call of `MultiWriteImage`: the memory from which the image is written, and its length. -/
structure WriteImage where
  mem : Bytes
  datalen : UInt32

/-- The first packet sets the variables up. -/
def startUpgrade (skb : Bytes) (s : MultiState) : MultiState :=
  if s.startSeq = -1 then
    { s with
      startSeq := pktseq b skb
      oldSeq := (pktseq b skb : ℤ) - 1
      receiveLen := 0
      maxSeq := chunkCount (imagelen b skb) }
  else s

/-- The sequence check. -/
def InSequence (skb : Bytes) (s : MultiState) : Prop :=
  pktseq b skb = s.oldSeq + 1 ∨ pktseq b skb = 1 ∧ s.oldSeq = s.maxSeq

instance (skb : Bytes) (s : MultiState) : Decidable (InSequence b skb s) :=
  inferInstanceAs (Decidable (_ ∨ _))

/-- `last_packet`. -/
def LastPacket (skb : Bytes) (s : MultiState) : Prop :=
  s.startSeq ≠ 1 ∧ pktseq b skb = s.startSeq - 1 ∨ s.startSeq = 1 ∧ pktseq b skb = s.maxSeq

instance (skb : Bytes) (s : MultiState) : Decidable (LastPacket b skb s) :=
  inferInstanceAs (Decidable (_ ∨ _))

/-- `MULTI_BUF_BASE + (pktseq-1)*MULTI_UPGRADE_DATA_LEN`, in 32 bits. -/
def storeAddr (seq : ℕ) : ℕ :=
  (multiBufBase + (seq + (2 ^ 32 - 1)) % 2 ^ 32 * multiUpgradeDataLen) % 2 ^ 32

/-- The packet is stored. -/
def storePacket (skb : Bytes) (s : MultiState) : MultiState :=
  { s with
    oldSeq := pktseq b skb
    mem := overlay s.mem (storeAddr (pktseq b skb)) (fun i => skb (multiUpgradePktHeadlen + i))
      multiUpgradeDataLen
    receiveLen := s.receiveLen + 1024 }

/-- The label `error`. -/
def MultiState.error (s : MultiState) : MultiState := { s with startSeq := -1, maxSeq := 0 }

/-- The memory from an address on. -/
def MultiState.at (s : MultiState) (addr : ℕ) : Bytes := fun i => s.mem (addr + i)

/-- `raw_check_sum`: the last four bytes of the image, the lowest first. -/
def rawCheckSum (imagelen : UInt32) (s : MultiState) : UInt32 :=
  let crcPtr := s.at ((multiBufBase + (imagelen - 4).toNat) % 2 ^ 32)
  (crcPtr 0).toUInt32 ||| (crcPtr 1).toUInt32 <<< 8 ||| (crcPtr 2).toUInt32 <<< 16 |||
    (crcPtr 3).toUInt32 <<< 24

/-- `MultiWriteImage` is called, and the upgrade is over. -/
def writeImage (imagelen : UInt32) (s : MultiState) : MultiState × Option WriteImage :=
  ({ s with finishMultiUpgrade := true }, some ⟨s.mem, imagelen⟩)

/-- What is done after the last packet: the image is checked by its kind, and written. -/
def finishUpgrade (imagelen : UInt32) (s : MultiState) : MultiState × Option WriteImage :=
  if s.receiveLen < imagelen then ({ s with receiveLen := 0 }.error, none)
  else if b.trxMagic (s.at multiBufBase) = b.trxMagic2 then
    if b.crc32buf (s.at (multiBufBase + b.trxHeaderSize.toNat)) (imagelen - b.trxHeaderSize) ≠
        b.trxCrc32 (s.at multiBufBase) then
      (s.error, none)
    else
      let s := { s with badimg := s.badimg || b.partitionSize.any fun size => size < imagelen }
      if s.badimg then (s.error, none) else writeImage imagelen s
  else if b.trxMagic (s.at (multiBufBase + b.tcbootSize + b.romfileSize)) ≠ b.trxMagic2 then
    (s.error, none)
  else if b.crc32buf (s.at multiBufBase) (imagelen - 4) ≠ rawCheckSum imagelen s then
    (s.error, none)
  else
    -- an all-in-one image keeps the `mi.conf` of the board
    writeImage imagelen
      { s with mem := overlay s.mem (multiBufBase + miconfOffset) b.miconf miconfSize }

/-- `MultiUpgradeHandle`. -/
def multiUpgradeHandle (skb : Bytes) (s : MultiState) : MultiState × Option WriteImage :=
  if s.finishMultiUpgrade then (s, none)
  else
    let s := startUpgrade b skb s
    if InSequence b skb s then
      if LastPacket b skb s then finishUpgrade b (imagelen b skb) (storePacket b skb s)
      else (storePacket b skb s, none)
    else (s.error, none)

/-! ## Sessions -/

/-- The variables, with the packets that have been stored since the last start. -/
structure Session where
  state : MultiState
  since : List Bytes

/-- A packet that passes the sequence check is stored, unless the upgrade is over. -/
def Session.Stores (skb : Bytes) (w : Session) : Prop :=
  w.state.finishMultiUpgrade = false ∧ InSequence b skb (startUpgrade b skb w.state)

instance (skb : Bytes) (w : Session) : Decidable (w.Stores b skb) :=
  inferInstanceAs (Decidable (_ ∧ _))

/-- A packet arrives. -/
def Session.receive (skb : Bytes) (w : Session) : Session where
  state := (multiUpgradeHandle b skb w.state).1
  since :=
    if w.Stores b skb then
      if w.state.startSeq = -1 then [skb] else w.since ++ [skb]
    else w.since

/-- The packets arrive one after the other. -/
def session (mem : Bytes) (skbs : List Bytes) : Session :=
  runInputs (Session.receive b) ⟨.initial mem, []⟩ skbs

theorem session_append (mem : Bytes) (skbs : List Bytes) (skb : Bytes) :
    session b mem (skbs ++ [skb]) = (session b mem skbs).receive b skb :=
  runInputs_append ..

/-! ## The store -/

section Store

variable {b}

theorem storeAddr_zero : storeAddr 0 = multiBufBase - multiUpgradeDataLen := by decide

theorem storeAddr_of_pos {seq : ℕ} (pos : 1 ≤ seq) (lt : seq < 65536) :
    storeAddr seq = multiBufBase + (seq - 1) * multiUpgradeDataLen := by
  have wrapped : (seq + (2 ^ 32 - 1)) % 2 ^ 32 = seq - 1 := by omega
  rw [storeAddr, wrapped, Nat.mod_eq_of_lt]
  simp only [multiBufBase, multiUpgradeDataLen]
  omega

/-- Chunk `k` of the buffer is the data of a packet of that number. -/
def ChunkOf (b : Board) (mem : Bytes) (log : List Bytes) (k : ℕ) : Prop :=
  ∃ skb ∈ log, pktseq b skb = k ∧ ∀ i < multiUpgradeDataLen,
    mem (multiBufBase + (k - 1) * multiUpgradeDataLen + i) = skb (multiUpgradePktHeadlen + i)

variable {log : List Bytes} {skb : Bytes} {s : MultiState}

/-- The packet is in its own chunk. -/
theorem chunkOf_stored (mem : skb ∈ log) (pos : 1 ≤ pktseq b skb) :
    ChunkOf b (storePacket b skb s).mem log (pktseq b skb) := by
  use skb, mem, rfl
  intro i hi
  rw [← storeAddr_of_pos pos (pktseq_lt b skb), storePacket]
  dsimp only
  rw [overlay_of_mem ⟨Nat.le_add_right _ _, Nat.add_lt_add_left hi _⟩, Nat.add_sub_cancel_left]

/-- Every other chunk stays as it is. -/
theorem ChunkOf.store {k : ℕ} (pos : 1 ≤ k) (chunk : ChunkOf b s.mem log k) :
    ChunkOf b (storePacket b skb s).mem (log ++ [skb]) k := by
  by_cases own : pktseq b skb = k
  · rw [← own]
    exact chunkOf_stored List.mem_concat_self (own ▸ pos)
  · obtain ⟨p, mem, number, data⟩ := chunk
    use p, List.mem_append_left _ mem, number
    intro i hi
    rw [← data i hi, storePacket]
    dsimp only
    rw [overlay_of_not_mem]
    have below : k < 65536 := number ▸ pktseq_lt b p
    by_cases zero : pktseq b skb = 0
    · rw [zero, storeAddr_zero]
      simp only [multiBufBase, multiUpgradeDataLen]
      omega
    · rw [storeAddr_of_pos (by omega) (pktseq_lt b skb)]
      simp only [multiBufBase, multiUpgradeDataLen] at hi ⊢
      omega

end Store

/-! ## The last packet -/

section Complete

variable {b}

/-- The image is written from the memory as it is, or with the `mi.conf` of the board in
it; or reception starts anew. -/
theorem finishUpgrade_cases (len : UInt32) (s : MultiState) :
    (finishUpgrade b len s).2 = none ∧ (finishUpgrade b len s).1.startSeq = -1 ∨
      (finishUpgrade b len s).1.finishMultiUpgrade = true ∧
        ∃ image, (finishUpgrade b len s).2 = some image ∧ image.datalen = len ∧
          (image.mem = s.mem ∨
            image.mem = overlay s.mem (multiBufBase + miconfOffset) b.miconf miconfSize) := by
  simp only [finishUpgrade]
  split
  · exact .inl ⟨rfl, rfl⟩
  split
  · split
    · exact .inl ⟨rfl, rfl⟩
    split
    · exact .inl ⟨rfl, rfl⟩
    · exact .inr ⟨rfl, _, rfl, rfl, .inl rfl⟩
  split
  · exact .inl ⟨rfl, rfl⟩
  split
  · exact .inl ⟨rfl, rfl⟩
  · exact .inr ⟨rfl, _, rfl, rfl, .inr rfl⟩

/-- The chunks received since reception began at packet `first`, the last of them being
`last`: those in between, or, when the numbers have gone round, those from `first` to the
highest and from 1 to `last`. -/
inductive Circle (b : Board) (len : UInt32) (mem : Bytes) (log : List Bytes) :
    ℕ → ℕ → Prop
  /-- From number 0 on, no packet ever counts as the last. -/
  | zero {last : ℕ} : Circle b len mem log 0 last
  | ahead {first last : ℕ} (pos : 1 ≤ first) (le : first ≤ last)
      (chunks : ∀ k, first ≤ k → k ≤ last → ChunkOf b mem log k) : Circle b len mem log first last
  | round {first last : ℕ} (pos : 1 ≤ last) (gap : last + 1 < first)
      (le : first ≤ chunkCount len)
      (high : ∀ k, first ≤ k → k ≤ chunkCount len → ChunkOf b mem log k)
      (low : ∀ k, 1 ≤ k → k ≤ last → ChunkOf b mem log k) : Circle b len mem log first last

/-- Reception is under way. -/
structure Receiving (b : Board) (len : UInt32) (s : MultiState) (log : List Bytes) : Prop where
  maxSeq : s.maxSeq = chunkCount len
  circle : ∃ first last : ℕ, s.startSeq = first ∧ s.oldSeq = last ∧
    Circle b len s.mem log first last

/-- The upgrade is over, reception has not begun, or it is under way. -/
def Tracked (b : Board) (len : UInt32) (w : Session) : Prop :=
  w.state.finishMultiUpgrade = true ∨ w.state.startSeq = -1 ∨ Receiving b len w.state w.since

/-- All chunks of the image are in the buffer. -/
def AllChunks (b : Board) (len : UInt32) (mem : Bytes) (log : List Bytes) : Prop :=
  ∀ k, 1 ≤ k → k ≤ chunkCount len → ChunkOf b mem log k

variable {len : UInt32} {log : List Bytes} {skb : Bytes} {s : MultiState}

/-- The first packet: it is the last as well when there is only one. -/
theorem receiving_start (carries : imagelen b skb = len) (idle : s.startSeq = -1) :
    (LastPacket b skb (startUpgrade b skb s) →
      AllChunks b len (storePacket b skb (startUpgrade b skb s)).mem [skb]) ∧
    Receiving b len (storePacket b skb (startUpgrade b skb s)) [skb] := by
  rw [startUpgrade, if_pos idle]
  constructor
  · rintro (⟨-, before⟩ | ⟨one, highest⟩)
    · dsimp only at before
      omega
    · dsimp only at one highest
      intro k low high
      have number : pktseq b skb = k := by
        rw [carries] at highest
        omega
      rw [← number]
      exact chunkOf_stored List.mem_cons_self (number ▸ low)
  · use congrArg (fun n => (chunkCount n : ℤ)) carries, pktseq b skb, pktseq b skb, rfl, rfl
    by_cases zero : pktseq b skb = 0
    · rw [zero]
      exact .zero
    · apply Circle.ahead (by omega) le_rfl
      intro k low high
      obtain rfl := le_antisymm low high
      exact chunkOf_stored List.mem_cons_self (by omega)

/-- A run of chunks with the packet that follows. -/
theorem chunks_snoc {low high : ℕ} (pos : 1 ≤ low) (next : pktseq b skb = high + 1)
    (chunks : ∀ k, low ≤ k → k ≤ high → ChunkOf b s.mem log k) :
    ∀ k, low ≤ k → k ≤ high + 1 → ChunkOf b (storePacket b skb s).mem (log ++ [skb]) k := by
  intro k hlow hhigh
  by_cases here : k = pktseq b skb
  · rw [here]
    exact chunkOf_stored List.mem_concat_self (by omega)
  · exact (chunks k hlow (by omega)).store (pos.trans hlow)

theorem chunks_store (skb : Bytes) {low high : ℕ} (pos : 1 ≤ low)
    (chunks : ∀ k, low ≤ k → k ≤ high → ChunkOf b s.mem log k) :
    ∀ k, low ≤ k → k ≤ high → ChunkOf b (storePacket b skb s).mem (log ++ [skb]) k :=
  fun k hlow hhigh => (chunks k hlow hhigh).store (pos.trans hlow)

/-- Each packet widens the part that has been received, and the last one closes the
circle. -/
theorem Circle.next (skb : Bytes) {first last : ℕ} (circle : Circle b len s.mem log first last)
    (next : pktseq b skb = last + 1 ∨ pktseq b skb = 1 ∧ last = chunkCount len) :
    (first ≠ 1 ∧ pktseq b skb + 1 = first ∨ first = 1 ∧ pktseq b skb = chunkCount len →
      AllChunks b len (storePacket b skb s).mem (log ++ [skb])) ∧
    (¬ (first ≠ 1 ∧ pktseq b skb + 1 = first ∨ first = 1 ∧ pktseq b skb = chunkCount len) →
      Circle b len (storePacket b skb s).mem (log ++ [skb]) first (pktseq b skb)) := by
  cases circle with
  | zero => exact ⟨fun ends => by omega, fun _ => .zero⟩
  | ahead pos le chunks =>
      rcases next with next | ⟨one, highest⟩
      · have wider := chunks_snoc pos next chunks
        rw [← next] at wider
        constructor
        · intro ends
          have whole : first = 1 ∧ pktseq b skb = chunkCount len := by omega
          rw [whole.1, whole.2] at wider
          exact wider
        · exact fun _ => .ahead pos (by omega) wider
      · -- the numbers begin again: chunk 1 is new, those from `first` on are there
        have new : ChunkOf b (storePacket b skb s).mem (log ++ [skb]) 1 :=
          one ▸ chunkOf_stored List.mem_concat_self (by omega)
        have old := chunks_store skb pos chunks
        rw [highest] at old
        have low : ∀ k, 1 ≤ k → k ≤ pktseq b skb →
            ChunkOf b (storePacket b skb s).mem (log ++ [skb]) k := by
          intro k hlow hhigh
          obtain rfl : k = 1 := by omega
          exact new
        constructor
        · intro ends k hlow hhigh
          rcases Nat.lt_or_ge k first with before | after
          · exact low k hlow (by omega)
          · exact old k after hhigh
        · intro goes
          by_cases begins : first = 1
          · subst begins
            exact .ahead le_rfl (by omega) low
          · exact .round (by omega) (by omega) (by omega) old low
  | round pos gap le high low =>
      have next : pktseq b skb = last + 1 := by omega
      have high := chunks_store skb (by omega) high
      have low := chunks_snoc le_rfl next low
      rw [← next] at low
      constructor
      · intro ends k hlow hhigh
        rcases Nat.lt_or_ge k first with before | after
        · exact low k hlow (by omega)
        · exact high k after hhigh
      · exact fun goes => .round (by omega) (by omega) le high low

/-- A packet in the middle of a reception. -/
theorem Receiving.next (now : Receiving b len s log) (inSequence : InSequence b skb s) :
    (LastPacket b skb s → AllChunks b len (storePacket b skb s).mem (log ++ [skb])) ∧
    (¬ LastPacket b skb s → Receiving b len (storePacket b skb s) (log ++ [skb])) := by
  obtain ⟨maxSeq, first, last, startSeq, oldSeq, circle⟩ := now
  rw [InSequence, oldSeq, maxSeq] at inSequence
  have closes : LastPacket b skb s ↔
      (first ≠ 1 ∧ pktseq b skb + 1 = first ∨ first = 1 ∧ pktseq b skb = chunkCount len) := by
    rw [LastPacket, startSeq, maxSeq]
    omega
  obtain ⟨ends, goes⟩ := circle.next skb (by omega)
  rw [closes]
  exact ⟨ends, fun more => ⟨maxSeq, first, pktseq b skb, startSeq, rfl, goes more⟩⟩

theorem multiUpgradeHandle_finished (finished : s.finishMultiUpgrade = true) :
    multiUpgradeHandle b skb s = (s, none) := if_pos finished

theorem multiUpgradeHandle_rejected (going : s.finishMultiUpgrade = false)
    (outOfSequence : ¬ InSequence b skb (startUpgrade b skb s)) :
    multiUpgradeHandle b skb s = ((startUpgrade b skb s).error, none) := by
  rw [multiUpgradeHandle, if_neg (by simp [going])]
  exact if_neg outOfSequence

theorem multiUpgradeHandle_stored (going : s.finishMultiUpgrade = false)
    (inSequence : InSequence b skb (startUpgrade b skb s)) :
    multiUpgradeHandle b skb s =
      if LastPacket b skb (startUpgrade b skb s) then
        finishUpgrade b (imagelen b skb) (storePacket b skb (startUpgrade b skb s))
      else (storePacket b skb (startUpgrade b skb s), none) := by
  rw [multiUpgradeHandle, if_neg (by simp [going])]
  exact if_pos inSequence

/-- The part that has been received with a packet that is stored, be it the first or a later
one. -/
theorem Tracked.store {w : Session} (carries : imagelen b skb = len) (tracked : Tracked b len w)
    (stores : w.Stores b skb) :
    (LastPacket b skb (startUpgrade b skb w.state) → AllChunks b len
      (storePacket b skb (startUpgrade b skb w.state)).mem (w.receive b skb).since) ∧
    (¬ LastPacket b skb (startUpgrade b skb w.state) → Receiving b len
      (storePacket b skb (startUpgrade b skb w.state)) (w.receive b skb).since) := by
  rw [Session.receive, if_pos stores]
  obtain ⟨going, inSequence⟩ := stores
  by_cases idle : w.state.startSeq = -1
  · rw [if_pos idle]
    obtain ⟨ends, goes⟩ := receiving_start carries idle
    exact ⟨ends, fun _ => goes⟩
  · rw [if_neg idle]
    rw [startUpgrade, if_neg idle] at inSequence ⊢
    have now := (tracked.resolve_left (by simp [going])).resolve_left idle
    exact now.next inSequence

/-- What one packet does to a session in which all packets carry the same length: the
session stays tracked, and when the image is written all its chunks are in the buffer. -/
theorem Tracked.receive {w : Session} (carries : imagelen b skb = len) (tracked : Tracked b len w) :
    Tracked b len (w.receive b skb) ∧
    ∀ image, (multiUpgradeHandle b skb w.state).2 = some image →
      image.datalen = len ∧
        let received := (storePacket b skb (startUpgrade b skb w.state)).mem
        AllChunks b len received (w.receive b skb).since ∧
          (image.mem = received ∨
            image.mem = overlay received (multiBufBase + miconfOffset) b.miconf miconfSize) := by
  have after : (w.receive b skb).state = (multiUpgradeHandle b skb w.state).1 := rfl
  rw [Tracked, after]
  cases going : w.state.finishMultiUpgrade with
  | true =>
      rw [multiUpgradeHandle_finished going]
      exact ⟨.inl going, fun _ called => nomatch called⟩
  | false =>
      by_cases inSequence : InSequence b skb (startUpgrade b skb w.state)
      case neg =>
        rw [multiUpgradeHandle_rejected going inSequence]
        exact ⟨.inr (.inl rfl), fun _ called => nomatch called⟩
      obtain ⟨ends, goes⟩ := tracked.store carries ⟨going, inSequence⟩
      rw [multiUpgradeHandle_stored going inSequence]
      by_cases last : LastPacket b skb (startUpgrade b skb w.state)
      case neg =>
        rw [if_neg last]
        exact ⟨.inr (.inr (goes last)), fun _ called => nomatch called⟩
      rw [if_pos last, carries]
      rcases finishUpgrade_cases len (storePacket b skb (startUpgrade b skb w.state)) with
        ⟨none, anew⟩ | ⟨done, image, called, datalen, mem⟩
      · rw [none]
        exact ⟨.inr (.inl anew), fun _ called => nomatch called⟩
      · rw [called]
        constructor
        · exact .inl done
        · rintro _ ⟨⟩
          exact ⟨datalen, ends last, mem⟩

theorem tracked_session {mem : Bytes} {skbs : List Bytes}
    (carry : ∀ p ∈ skbs, imagelen b p = len) : Tracked b len (session b mem skbs) :=
  runInputs_invariant (fun _ _ carries tracked => (tracked.receive carries).1) carry
    (.inr (.inl rfl))

end Complete

/-- When `MultiWriteImage` is called, each chunk of the image is the data of a packet of its
number that has arrived since the last start; only the `mi.conf` may have been put over
it. -/
theorem multiWriteImage_complete {b : Board} {L : UInt32} {mem : Bytes} {skbs : List Bytes}
    {skb : Bytes} {image : WriteImage} (same : ∀ p ∈ skbs ++ [skb], imagelen b p = L)
    (called : (multiUpgradeHandle b skb (session b mem skbs).state).2 = some image) :
    image.datalen = L ∧
      let received := (storePacket b skb (startUpgrade b skb (session b mem skbs).state)).mem
      (∀ k, 1 ≤ k → k ≤ chunkCount L →
        ChunkOf b received (session b mem (skbs ++ [skb])).since k) ∧
      (image.mem = received ∨
        image.mem = overlay received (multiBufBase + miconfOffset) b.miconf miconfSize) := by
  have carry : ∀ p ∈ skbs, imagelen b p = L := fun p hp => same p (List.mem_append_left _ hp)
  have carries : imagelen b skb = L := same skb (List.mem_append_right _ List.mem_cons_self)
  rw [session_append]
  exact ((tracked_session carry).receive carries).2 image called

/-- A board whose `struct trx_header` is 256 bytes long, with the checksum in the fourth
word. The checksum of no bytes at all is 0. -/
def someBoard : Board where
  swap32 x := (x <<< 24) ||| ((x &&& 0xff00) <<< 8) ||| ((x &&& 0xff0000) >>> 8) ||| (x >>> 24)
  crc32buf _ _ := 0
  trxHeaderSize := 256
  trxMagic trx := longAt trx 0
  trxCrc32 trx := longAt trx 12
  trxMagic2 := 0x32524448
  tcbootSize := 0x20000
  romfileSize := 0x40000
  partitionSize := none
  miconf := allOnes

/-- A packet with the given number and image length. Its data begin with the magic number. -/
def somePacket (seq len : UInt8) : Bytes := fun i =>
  [0, 0, 0, 0, 0, 0, 0, 0, 0, 0, seq, 0, 0, 0, 0, 0, 0, 0, 0, 0, 0, len, 0, 0, 0, 0, 0, 0, 0, 0,
    0, 0, 0x32, 0x52, 0x44, 0x48].getD i 0

/-- An image of three chunks. The first reception is given up at packet 2, which is out of order;
the second begins there and goes on with packet 3. -/
def someSkbs : List Bytes := [somePacket 3 12, somePacket 2 12, somePacket 2 12, somePacket 3 12]

/-- Packet 1 follows packet 3, and is the last one. -/
theorem multiWriteImage_complete_wrap :
    let before := (session someBoard allOnes someSkbs).state
    ∃ image, (multiUpgradeHandle someBoard (somePacket 1 12) before).2 = some image ∧
      image.datalen = 3072 ∧
      ∀ k, 1 ≤ k → k ≤ 3 → ChunkOf someBoard
        (storePacket someBoard (somePacket 1 12)
          (startUpgrade someBoard (somePacket 1 12) before)).mem
        (session someBoard allOnes (someSkbs ++ [somePacket 1 12])).since k := by
  intro before
  obtain ⟨image, called⟩ := Option.isSome_iff_exists.mp (show (multiUpgradeHandle someBoard
    (somePacket 1 12) before).2.isSome = true by decide +kernel)
  have same : ∀ p ∈ someSkbs ++ [somePacket 1 12], imagelen someBoard p = 3072 := by
    decide +kernel
  have complete := multiWriteImage_complete same called
  exact ⟨image, called, complete.1, complete.2.1⟩

/-! ## Where packets are stored -/

/-- The length announced by the first packet since the last start. -/
def announced (w : Session) : UInt32 := (w.since.head?.map (imagelen b)).getD 0

/-- A packet that is stored lies in the chunks of the image that has been announced. -/
def StoredInside (skb : Bytes) (w : Session) : Prop :=
  w.Stores b skb → multiBufBase ≤ storeAddr (pktseq b skb) ∧
    storeAddr (pktseq b skb) + multiUpgradeDataLen ≤
      multiBufBase + multiUpgradeDataLen * chunkCount (announced b (w.receive b skb))

/-- A packet that begins a reception has a number of its image, and one that continues it
does not go on behind the highest number. -/
def NumberedInside (skb : Bytes) (w : Session) : Prop :=
  w.Stores b skb →
    if w.state.startSeq = -1 then
      1 ≤ pktseq b skb ∧ pktseq b skb ≤ chunkCount (imagelen b skb)
    else pktseq b skb = w.state.oldSeq + 1 → w.state.oldSeq < w.state.maxSeq

/-- The highest number is that of the image that has been announced. -/
def Announced (w : Session) : Prop :=
  w.state.finishMultiUpgrade = true ∨ w.state.startSeq = -1 ∨
    0 ≤ w.state.oldSeq ∧ w.state.maxSeq = chunkCount (announced b w) ∧ w.since ≠ []

section Store

variable {b} {skb : Bytes} {w : Session}

/-- The store lies in the chunks of an image if and only if its number is that of one of
them. -/
theorem stored_inside_iff {count : ℕ} : (multiBufBase ≤ storeAddr (pktseq b skb) ∧
    storeAddr (pktseq b skb) + multiUpgradeDataLen ≤
      multiBufBase + multiUpgradeDataLen * count) ↔ 1 ≤ pktseq b skb ∧ pktseq b skb ≤ count := by
  have lt := pktseq_lt b skb
  by_cases zero : pktseq b skb = 0
  · rw [zero, storeAddr_zero]
    simp only [multiBufBase, multiUpgradeDataLen]
    omega
  · rw [storeAddr_of_pos (by omega) lt]
    simp only [multiBufBase, multiUpgradeDataLen]
    omega

/-- What is announced when a packet has been stored. -/
theorem announced_receive (tracked : Announced b w) (stores : w.Stores b skb) :
    announced b (w.receive b skb) =
      if w.state.startSeq = -1 then imagelen b skb else announced b w := by
  rw [announced, Session.receive, if_pos stores]
  split
  · rfl
  · next going =>
    obtain ⟨-, -, some_since⟩ :=
      (tracked.resolve_left (by simp [stores.1])).resolve_left going
    rw [announced, List.head?_append_of_ne_nil _ some_since]

/-- The two conditions agree on every packet. -/
theorem storedInside_iff (tracked : Announced b w) :
    StoredInside b skb w ↔ NumberedInside b skb w := by
  rw [StoredInside, NumberedInside]
  apply imp_congr_right
  intro stores
  rw [stored_inside_iff, announced_receive tracked stores]
  obtain ⟨going, inSequence⟩ := stores
  by_cases idle : w.state.startSeq = -1
  · rw [if_pos idle, if_pos idle]
  · rw [if_neg idle, if_neg idle]
    obtain ⟨old, maxSeq, -⟩ := (tracked.resolve_left (by simp [going])).resolve_left idle
    rw [startUpgrade, if_neg idle, InSequence] at inSequence
    omega

theorem Announced.receive (tracked : Announced b w) : Announced b (w.receive b skb) := by
  have after : (w.receive b skb).state = (multiUpgradeHandle b skb w.state).1 := rfl
  cases going : w.state.finishMultiUpgrade with
  | true =>
      rw [Announced, after, multiUpgradeHandle_finished going]
      exact .inl going
  | false =>
      by_cases inSequence : InSequence b skb (startUpgrade b skb w.state)
      case neg =>
        rw [Announced, after, multiUpgradeHandle_rejected going inSequence]
        exact .inr (.inl rfl)
      have length := announced_receive tracked ⟨going, inSequence⟩
      have since : (w.receive b skb).since ≠ [] := by
        rw [Session.receive, if_pos ⟨going, inSequence⟩]
        split <;> simp
      have maxSeq : (startUpgrade b skb w.state).maxSeq =
          chunkCount (announced b (w.receive b skb)) := by
        rw [length, startUpgrade]
        split
        · rfl
        · next started =>
          exact ((tracked.resolve_left (by simp [going])).resolve_left started).2.1
      rw [Announced, after, multiUpgradeHandle_stored going inSequence]
      split
      · rcases finishUpgrade_cases (b := b) (imagelen b skb)
          (storePacket b skb (startUpgrade b skb w.state)) with ⟨-, anew⟩ | ⟨done, -⟩
        · exact .inr (.inl anew)
        · exact .inl done
      · exact .inr (.inr ⟨Int.natCast_nonneg _, maxSeq, since⟩)

end Store

/-- In every run, the packets are stored inside of the image if and only if they are numbered
inside. -/
theorem multiUpgrade_storedInside_iff (b : Board) (mem : Bytes) (skbs : List Bytes) :
    EveryStep (Session.receive b) (StoredInside b) ⟨.initial mem, []⟩ skbs ↔
      EveryStep (Session.receive b) (NumberedInside b) ⟨.initial mem, []⟩ skbs :=
  everyStep_congr (Announced b) (fun _ _ => Announced.receive) (fun _ _ => storedInside_iff)
    (.inr (.inl rfl))

/-- A packet with number 0 comes first and is stored below the buffer. -/
theorem multiUpgrade_stored_below :
    ¬ EveryStep (Session.receive someBoard) (StoredInside someBoard) ⟨.initial allOnes, []⟩
      [somePacket 0 4] := by
  rintro ⟨inside, -⟩
  have stores : Session.Stores someBoard (somePacket 0 4) ⟨.initial allOnes, []⟩ := by
    decide +kernel
  have above : multiBufBase ≤ storeAddr (pktseq someBoard (somePacket 0 4)) := (inside stores).1
  exact absurd above (by decide +kernel)

end En7512.Net
