/-
# Receiving frames from the Ethernet ring

The hardware fills the receive descriptors one after the other and latches one
bit of the interrupt status for all of them. `mtk_handle_irq` reads the status,
reads how far the hardware has come, hands the frame of the descriptor before
that place to the network stack, and acknowledges what it read.

The hardware runs on while the handler runs, so the handler is taken step by
step, and frames may complete between any two of its steps. One invocation hands
over one frame: two frames that complete together, or a frame that completes
while another is handled, are not received rightly. What holds is that no frame
is lost or repeated as long as each completes by itself.
-/

import En7512.Nand.Chip
import Mathlib.Logic.Relation

namespace En7512.Net

open En7512.Nand

/-! ## The driver -/

/-- `RX0_DSCP_NUM`. -/
def rx0DscpNum : ℕ := 4

/-- `INT_STATUS_RX0_DONE`. -/
def intStatusRx0Done : BitVec 32 := 1#32 <<< 1

/-- `INT_STATUS_TX0_DONE`. -/
def intStatusTx0Done : BitVec 32 := 1#32 <<< 0

/-- `IRQ_DEF_VALUE`. -/
def irqDefValue : BitVec 32 := 0xFFFFFFFF#32

/-- The bytes of one frame. -/
abbrev Frame := List UInt8

/-- The control word of a descriptor. -/
structure Dscp where
  done : Bool
  pktLen : ℕ
  deriving DecidableEq, Repr

/-- How far an invocation of `mtk_handle_irq` is, with the values it has read. -/
inductive Handler
  /-- No invocation is running. -/
  | idle
  /-- `INT_MASK` has been read. -/
  | masked (mask : BitVec 32)
  /-- `INT_STATUS` has been read. -/
  | sampled (mask status : BitVec 32)
  /-- `RX_DMA_IDX` has been read; `idx` is the place before it. -/
  | indexed (mask status : BitVec 32) (idx : ℕ)
  /-- The buffer has been taken out of the ring. -/
  | popped (mask status : BitVec 32) (idx : ℕ) (skb : Option Bytes)
  /-- The frame has been handed over. -/
  | delivered (mask status : BitVec 32) (idx : ℕ)
  /-- Only the acknowledgement is left. -/
  | handled (mask status : BitVec 32)

/-- The receive ring, the registers and the memory of the transmit interrupts, the
invocation that is running, and the frames handed to `netif_rx`. -/
structure Eth where
  /-- `dscp_ary[TX0_DSCP_NUM + idx]`. -/
  dscp : ℕ → Dscp
  /-- The data of `dscp_sk_buff_p_ary[TX0_DSCP_NUM + idx]`. -/
  buffer : ℕ → Bytes
  rxDmaIdx : ℕ
  rxCpuIdx : ℕ
  intMask : BitVec 32
  intStatus : BitVec 32
  irqStatus : BitVec 32
  irqClearLen : BitVec 32
  irqQueue : ℕ → BitVec 32
  handler : Handler
  received : List Frame

/-- `rx0_pop_skb`: the buffer at `idx`, if there is a fresh one to take its place. -/
def rx0PopSkb (fresh : Option Bytes) (idx : ℕ) (s : Eth) : Option Bytes × Eth :=
  match fresh with
  | none => (none, s)
  | some data => (some (s.buffer idx), { s with buffer := Function.update s.buffer idx data })

/-- `skb_put` and `netif_rx`: the first bytes of the buffer, as many as the descriptor
says. -/
def netifRx (skb : Option Bytes) (idx : ℕ) (s : Eth) : Eth :=
  match skb with
  | none => s
  | some data => { s with
      received := s.received ++ [(List.range (s.dscp idx).pktLen).map data] }

/-- The end of `rx0_done`: the descriptor goes back to the hardware. -/
def rx0Return (idx : ℕ) (s : Eth) : Eth :=
  { s with dscp := Function.update s.dscp idx ⟨false, 1518⟩, rxCpuIdx := idx }

/-- `tx0_recycle_if_required`. -/
def tx0RecycleIfRequired (s : Eth) : Eth :=
  let len := ((s.irqStatus &&& (0xFFF#32 <<< 16)) >>> 16).toNat
  { s with
    irqQueue := fun i => if i < len then irqDefValue else s.irqQueue i
    irqClearLen := BitVec.ofNat 32 len &&& 0x7F#32 }

/-- The next step of `mtk_handle_irq`. -/
def mtkHandleIrq (fresh : Option Bytes) (s : Eth) : Eth :=
  match s.handler with
  | .idle => { s with handler := .masked s.intMask }
  | .masked mask => { s with handler := .sampled mask s.intStatus }
  | .sampled mask status =>
      if status &&& intStatusRx0Done ≠ 0#32 then
        { s with
          handler := .indexed mask status ((s.rxDmaIdx + (rx0DscpNum - 1)) % rx0DscpNum) }
      else if status &&& intStatusTx0Done ≠ 0#32 then
        { tx0RecycleIfRequired s with handler := .handled mask status }
      else { s with handler := .handled mask status }
  | .indexed mask status idx =>
      let (skb, s) := rx0PopSkb fresh idx s
      { s with handler := .popped mask status idx skb }
  | .popped mask status idx skb =>
      { netifRx skb idx s with handler := .delivered mask status idx }
  | .delivered mask status idx => { rx0Return idx s with handler := .handled mask status }
  | .handled mask status =>
      -- writing a bit clears it
      { s with intStatus := s.intStatus &&& ~~~(status &&& mask), handler := .idle }

/-! ## The hardware -/

/-- The length of the buffers. -/
def rxBufferLen : ℕ := 2000

/-- The hardware completes a frame. -/
def completeFrame (f : Frame) (s : Eth) : Eth :=
  { s with
    dscp := Function.update s.dscp s.rxDmaIdx ⟨true, f.length⟩
    buffer := Function.update s.buffer s.rxDmaIdx
      (overlay (s.buffer s.rxDmaIdx) 0 (fun i => f.getD i 0) f.length)
    rxDmaIdx := (s.rxDmaIdx + 1) % rx0DscpNum
    intStatus := s.intStatus ||| intStatusRx0Done }

/-- The driver and the hardware, with the frames that have been completed. -/
structure Ring where
  eth : Eth
  completed : List Frame
  /-- How many were completed when the last invocation began. -/
  atStart : ℕ
  /-- How many were completed when the last invocation that is over began. -/
  followed : ℕ

/-- A frame completes. -/
def Ring.complete (f : Frame) (r : Ring) : Ring :=
  { r with eth := completeFrame f r.eth, completed := r.completed ++ [f] }

/-- The hardware has sent frames, and notes in the interrupt queue which. -/
def Ring.txDone (irqStatus : BitVec 32) (irqQueue : ℕ → BitVec 32) (r : Ring) : Ring :=
  { r with eth := { r.eth with
      intStatus := r.eth.intStatus ||| intStatusTx0Done
      irqStatus := irqStatus
      irqQueue := irqQueue } }

/-- A step of the handler, with what is counted at its beginning and its end. -/
def Ring.handle (fresh : Bytes) (r : Ring) : Ring :=
  let r' := { r with eth := mtkHandleIrq (some fresh) r.eth }
  match r.eth.handler with
  | .idle => { r' with atStart := r.completed.length }
  | .handled _ _ => { r' with followed := r.atStart }
  | _ => r'

/-- One step of the hardware or of the handler. The hardware completes a frame only in a
descriptor the driver has returned, and here only in the states that `mayComplete`
allows. -/
inductive Ring.Step (mayComplete : Eth → Prop) : Ring → Ring → Prop
  | complete {r : Ring} (f : Frame) (fits : f.length ≤ rxBufferLen)
      (returned : (r.eth.dscp r.eth.rxDmaIdx).done = false) (may : mayComplete r.eth) :
      Step mayComplete r (r.complete f)
  | txDone {r : Ring} (irqStatus : BitVec 32) (irqQueue : ℕ → BitVec 32) :
      Step mayComplete r (r.txDone irqStatus irqQueue)
  | handle {r : Ring} (fresh : Bytes) : Step mayComplete r (r.handle fresh)

/-- After `qdma_config`, with no frame completed. -/
structure Configured (s : Eth) : Prop where
  dscp : s.dscp = fun _ => ⟨false, 1518⟩
  rxDmaIdx : s.rxDmaIdx = 0
  rxCpuIdx : s.rxCpuIdx = rx0DscpNum
  /-- The interrupts selected, `INT_STATUS_RX0_DONE` among them. -/
  intMask : s.intMask = 1#32 <<< 10 ||| 1#32 <<< 9 ||| 1#32 <<< 8 ||| 1#32 <<< 3 ||| 1#32 <<< 2 |||
    intStatusRx0Done
  intStatus : s.intStatus &&& intStatusRx0Done = 0#32
  handler : s.handler = .idle
  received : s.received = []

/-- The states of a run, in which the hardware completes frames only as `mayComplete`
allows. -/
abbrev Ring.Reaches (mayComplete : Eth → Prop) (s : Eth) : Ring → Prop :=
  Relation.ReflTransGen (Ring.Step mayComplete) ⟨s, [], 0, 0⟩

/-- The frames handed over are the first ones completed, each once and in order, and all
that an invocation has followed are among them. -/
def Ring.Faithful (r : Ring) : Prop :=
  r.eth.received <+: r.completed ∧ r.followed ≤ r.eth.received.length

/-! ## The receive bit -/

/-- The status, or the mask, has the receive bit. -/
def HasRx (v : BitVec 32) : Prop := v &&& intStatusRx0Done ≠ 0#32

instance (v : BitVec 32) : Decidable (HasRx v) := inferInstanceAs (Decidable (¬ _))

section HasRx

variable {v status mask : BitVec 32}

theorem hasRx_iff : HasRx v ↔ v.getLsbD 1 = true := by
  have bit : intStatusRx0Done = BitVec.twoPow 32 1 := by decide
  rw [HasRx, bit, BitVec.and_twoPow]
  cases v.getLsbD 1 with
  | true => exact iff_of_true (by decide) rfl
  | false => exact iff_of_false (by decide) (by decide)

theorem hasRx_or_rx : HasRx (v ||| intStatusRx0Done) := by
  rw [hasRx_iff, BitVec.getLsbD_or]
  exact Bool.or_eq_true_iff.mpr (.inr (by decide))

theorem hasRx_or_tx : HasRx (v ||| intStatusTx0Done) ↔ HasRx v := by
  have other : intStatusTx0Done.getLsbD 1 = false := by decide
  rw [hasRx_iff, hasRx_iff, BitVec.getLsbD_or, other, Bool.or_false]

theorem hasRx_acknowledged :
    HasRx (v &&& ~~~(status &&& mask)) ↔ HasRx v ∧ ¬ (HasRx status ∧ HasRx mask) := by
  simp only [hasRx_iff, BitVec.getLsbD_and, BitVec.getLsbD_not, Bool.and_eq_true,
    Bool.not_eq_true', decide_eq_true_eq]
  simp

end HasRx

/-! ## Frames that complete one by one -/

/-- The descriptor the hardware filled last. -/
def Eth.lastFilled (s : Eth) : ℕ := (s.rxDmaIdx + (rx0DscpNum - 1)) % rx0DscpNum

/-- An invocation that has seen the receive bit is not over. -/
def Handler.Receiving : Handler → Prop
  | .idle => False
  | .masked _ => False
  | .sampled _ status => HasRx status
  | .indexed _ status _ => HasRx status
  | .popped _ status _ _ => HasRx status
  | .delivered _ status _ => HasRx status
  | .handled _ status => HasRx status

/-- A frame that completes now does so by itself: the one before has been returned, and no
invocation is going to acknowledge it unseen. -/
def Alone (s : Eth) : Prop :=
  (s.dscp s.lastFilled).done = false ∧ ¬ s.handler.Receiving

/-- The completed frame `f` waits in the ring, and `data` begins with its bytes. -/
def Ring.Waits (r : Ring) (f : Frame) (data : Bytes) : Prop :=
  r.completed = r.eth.received ++ [f] ∧ r.eth.dscp r.eth.lastFilled = ⟨true, f.length⟩ ∧
    ∀ i < f.length, data i = f.getD i 0

/-- No frame waits. -/
def Ring.Drained (r : Ring) : Prop :=
  r.completed = r.eth.received ∧ (r.eth.dscp r.eth.lastFilled).done = false

/-- The receive bit says whether a frame waits. -/
def Ring.Settled (r : Ring) : Prop :=
  (HasRx r.eth.intStatus → ∃ f, r.Waits f (r.eth.buffer r.eth.lastFilled)) ∧
    (¬ HasRx r.eth.intStatus → r.Drained)

/-- What holds at each place of the handler. -/
def Ring.Phase (r : Ring) : Handler → Prop
  | .idle => r.Settled
  | .masked mask => HasRx mask ∧ r.Settled
  | .sampled mask status => HasRx mask ∧
      (HasRx status → ∃ f, r.Waits f (r.eth.buffer r.eth.lastFilled)) ∧
      (¬ HasRx status → r.Settled ∧ r.atStart ≤ r.eth.received.length)
  | .indexed mask status idx => HasRx mask ∧ HasRx status ∧ idx = r.eth.lastFilled ∧
      ∃ f, r.Waits f (r.eth.buffer r.eth.lastFilled)
  | .popped mask status idx skb => HasRx mask ∧ HasRx status ∧ idx = r.eth.lastFilled ∧
      ∃ f data, skb = some data ∧ r.Waits f data
  | .delivered mask status idx => HasRx mask ∧ HasRx status ∧ idx = r.eth.lastFilled ∧
      r.completed = r.eth.received
  | .handled mask status => HasRx mask ∧ r.atStart ≤ r.eth.received.length ∧
      (HasRx status → r.Drained) ∧ (¬ HasRx status → r.Settled)

/-- What holds throughout a run in which frames complete one by one. -/
structure Ring.Synced (r : Ring) : Prop where
  inRing : r.eth.rxDmaIdx < rx0DscpNum
  intMask : HasRx r.eth.intMask
  phase : r.Phase r.eth.handler
  atStart : r.atStart ≤ r.completed.length
  followed : r.followed ≤ r.eth.received.length

section Steps

variable {r : Ring}

theorem Ring.Waits.inOrder {f : Frame} {data : Bytes} (h : r.Waits f data) :
    r.eth.received <+: r.completed := by
  rw [h.1]
  exact List.prefix_append _ _

theorem Ring.Settled.inOrder (h : r.Settled) : r.eth.received <+: r.completed := by
  by_cases bit : HasRx r.eth.intStatus
  · obtain ⟨f, waits⟩ := h.1 bit
    exact waits.inOrder
  · rw [(h.2 bit).1]

/-- If the descriptor before is free, no frame waits. -/
theorem Ring.Settled.drained_of_returned (h : r.Settled)
    (free : (r.eth.dscp r.eth.lastFilled).done = false) : r.Drained := by
  apply h.2
  intro bit
  obtain ⟨f, -, busy, -⟩ := h.1 bit
  rw [busy] at free
  cases free

theorem lastFilled_complete (inRing : r.eth.rxDmaIdx < rx0DscpNum) (f : Frame) :
    (r.complete f).eth.lastFilled = r.eth.rxDmaIdx := by
  simp only [Eth.lastFilled, Ring.complete, completeFrame, rx0DscpNum] at inRing ⊢
  omega

/-- A frame that completes when none waits. -/
theorem Ring.Drained.complete (h : r.Drained) (inRing : r.eth.rxDmaIdx < rx0DscpNum)
    (f : Frame) : (r.complete f).Settled := by
  refine ⟨fun _ => ⟨f, ?_, ?_, ?_⟩, fun none => absurd hasRx_or_rx none⟩
  · show r.completed ++ [f] = r.eth.received ++ [f]
    rw [h.1]
  · rw [lastFilled_complete inRing]
    exact Function.update_self _ _ _
  · intro i hi
    rw [lastFilled_complete inRing]
    simp only [Ring.complete, completeFrame, Function.update_self]
    rw [overlay_of_mem ⟨Nat.zero_le i, by omega⟩, Nat.sub_zero]

theorem Ring.Phase.complete {place : Handler} (h : r.Phase place)
    (inRing : r.eth.rxDmaIdx < rx0DscpNum)
    (free : (r.eth.dscp r.eth.lastFilled).done = false) (quiet : ¬ place.Receiving) (f : Frame) :
    (r.complete f).Phase place := by
  have settles (settled : r.Settled) := (settled.drained_of_returned free).complete inRing f
  cases place with
  | idle => exact settles h
  | masked mask => exact ⟨h.1, settles h.2⟩
  | sampled mask status =>
      exact ⟨h.1, fun bit => absurd bit quiet, fun bit => ⟨settles (h.2.2 bit).1, (h.2.2 bit).2⟩⟩
  | indexed mask status idx => exact absurd h.2.1 quiet
  | popped mask status idx skb => exact absurd h.2.1 quiet
  | delivered mask status idx => exact absurd h.2.1 quiet
  | handled mask status =>
      exact ⟨h.1, h.2.1, fun bit => absurd bit quiet, fun bit => settles (h.2.2.2 bit)⟩

/-- A frame that completes by itself. -/
theorem Ring.Synced.complete (h : r.Synced) (alone : Alone r.eth) (f : Frame) :
    (r.complete f).Synced where
  inRing := Nat.mod_lt _ (by decide)
  intMask := h.intMask
  phase := h.phase.complete h.inRing alone.1 alone.2 f
  atStart := by
    show r.atStart ≤ (r.completed ++ [f]).length
    rw [List.length_append]
    exact Nat.le_add_right_of_le h.atStart
  followed := h.followed

/-- A transmit interrupt leaves the receive bit alone. -/
theorem Ring.Settled.txDone (h : r.Settled) (irqStatus : BitVec 32) (irqQueue : ℕ → BitVec 32) :
    (r.txDone irqStatus irqQueue).Settled :=
  ⟨fun bit => h.1 (hasRx_or_tx.mp bit), fun bit => h.2 (mt hasRx_or_tx.mpr bit)⟩

theorem Ring.Phase.txDone {place : Handler} (h : r.Phase place) (irqStatus : BitVec 32)
    (irqQueue : ℕ → BitVec 32) : (r.txDone irqStatus irqQueue).Phase place := by
  have settles (settled : r.Settled) := settled.txDone irqStatus irqQueue
  cases place with
  | idle => exact settles h
  | masked mask => exact ⟨h.1, settles h.2⟩
  | sampled mask status =>
      exact ⟨h.1, h.2.1, fun bit => ⟨settles (h.2.2 bit).1, (h.2.2 bit).2⟩⟩
  | indexed mask status idx => exact h
  | popped mask status idx skb => exact h
  | delivered mask status idx => exact h
  | handled mask status => exact ⟨h.1, h.2.1, h.2.2.1, fun bit => settles (h.2.2.2 bit)⟩

theorem Ring.Synced.txDone (h : r.Synced) (irqStatus : BitVec 32) (irqQueue : ℕ → BitVec 32) :
    (r.txDone irqStatus irqQueue).Synced where
  inRing := h.inRing
  intMask := h.intMask
  phase := h.phase.txDone irqStatus irqQueue
  atStart := h.atStart
  followed := h.followed

/-- The frame that waits is handed over as it is. -/
theorem Ring.Waits.handed {f : Frame} {data : Bytes} (h : r.Waits f data) :
    (List.range (r.eth.dscp r.eth.lastFilled).pktLen).map data = f := by
  rw [h.2.1]
  apply List.ext_getElem
  · rw [List.length_map, List.length_range]
  · intro i _ hi
    rw [List.getElem_map, List.getElem_range, h.2.2 i hi, List.getD_eq_getElem f 0 hi]

/-- A step of the handler. -/
theorem Ring.Synced.handle (h : r.Synced) (fresh : Bytes) : (r.handle fresh).Synced := by
  have phase := h.phase
  have inRing := h.inRing
  cases place : r.eth.handler with
  | idle =>
      rw [place] at phase
      have step : r.handle fresh = { r with
          eth := { r.eth with handler := .masked r.eth.intMask }
          atStart := r.completed.length } := by
        simp only [Ring.handle, mtkHandleIrq, place]
      rw [step]
      exact ⟨h.inRing, h.intMask, ⟨h.intMask, phase⟩, le_rfl, h.followed⟩
  | masked mask =>
      rw [place] at phase
      have step : r.handle fresh = { r with
          eth := { r.eth with handler := .sampled mask r.eth.intStatus } } := by
        simp only [Ring.handle, mtkHandleIrq, place]
      rw [step]
      refine ⟨h.inRing, h.intMask, ⟨phase.1, phase.2.1, fun bit => ⟨phase.2, ?_⟩⟩, h.atStart,
        h.followed⟩
      show r.atStart ≤ r.eth.received.length
      rw [← (phase.2.2 bit).1]
      exact h.atStart
  | sampled mask status =>
      rw [place] at phase
      by_cases bit : status &&& intStatusRx0Done ≠ 0#32
      · have step : r.handle fresh = { r with
            eth := { r.eth with handler := .indexed mask status r.eth.lastFilled } } := by
          simp only [Ring.handle, mtkHandleIrq, place]
          rw [if_pos bit, Eth.lastFilled]
        rw [step]
        exact ⟨h.inRing, h.intMask, ⟨phase.1, bit, rfl, phase.2.1 bit⟩, h.atStart, h.followed⟩
      · obtain ⟨settled, started⟩ := phase.2.2 bit
        have handled (s : Eth) (same : s = r.eth ∨ s = tx0RecycleIfRequired r.eth)
            (step : r.handle fresh = { r with eth := { s with handler := .handled mask status } }) :
            (r.handle fresh).Synced := by
          rw [step]
          obtain rfl | rfl := same <;>
          exact ⟨h.inRing, h.intMask, ⟨phase.1, started, fun seen => absurd seen bit,
            fun _ => settled⟩, h.atStart, h.followed⟩
        by_cases tx : status &&& intStatusTx0Done ≠ 0#32
        · apply handled _ (.inr rfl)
          simp only [Ring.handle, mtkHandleIrq, place]
          rw [if_neg bit, if_pos tx]
        · apply handled _ (.inl rfl)
          simp only [Ring.handle, mtkHandleIrq, place]
          rw [if_neg bit, if_neg tx]
  | indexed mask status idx =>
      rw [place] at phase
      obtain ⟨maskRx, bit, rfl, f, waits⟩ := phase
      have step : r.handle fresh = { r with eth := { r.eth with
          buffer := Function.update r.eth.buffer r.eth.lastFilled fresh
          handler := .popped mask status r.eth.lastFilled
            (some (r.eth.buffer r.eth.lastFilled)) } } := by
        simp only [Ring.handle, mtkHandleIrq, place, rx0PopSkb]
      rw [step]
      exact ⟨h.inRing, h.intMask, ⟨maskRx, bit, rfl, f, _, rfl, waits⟩, h.atStart, h.followed⟩
  | popped mask status idx skb =>
      rw [place] at phase
      obtain ⟨maskRx, bit, rfl, f, data, rfl, waits⟩ := phase
      have step : r.handle fresh = { r with eth := { r.eth with
          received := r.eth.received ++ [f]
          handler := .delivered mask status r.eth.lastFilled } } := by
        simp only [Ring.handle, mtkHandleIrq, place, netifRx, waits.handed]
      rw [step]
      refine ⟨h.inRing, h.intMask, ⟨maskRx, bit, rfl, waits.1⟩, h.atStart, ?_⟩
      show r.followed ≤ (r.eth.received ++ [f]).length
      rw [List.length_append]
      exact Nat.le_add_right_of_le h.followed
  | delivered mask status idx =>
      rw [place] at phase
      obtain ⟨maskRx, bit, rfl, all⟩ := phase
      have step : r.handle fresh = { r with eth := { rx0Return r.eth.lastFilled r.eth with
          handler := .handled mask status } } := by
        simp only [Ring.handle, mtkHandleIrq, place]
      rw [step]
      refine ⟨h.inRing, h.intMask, ⟨maskRx, ?_, fun _ => ⟨all, ?_⟩, fun none => absurd bit none⟩,
        h.atStart, h.followed⟩
      · show r.atStart ≤ r.eth.received.length
        rw [← all]
        exact h.atStart
      · show (Function.update r.eth.dscp r.eth.lastFilled ⟨false, 1518⟩ r.eth.lastFilled).done = _
        rw [Function.update_self]
  | handled mask status =>
      rw [place] at phase
      obtain ⟨maskRx, started, returned, settled⟩ := phase
      have step : r.handle fresh = { r with
          eth := { r.eth with
            intStatus := r.eth.intStatus &&& ~~~(status &&& mask), handler := .idle }
          followed := r.atStart } := by
        simp only [Ring.handle, mtkHandleIrq, place]
      rw [step]
      refine ⟨h.inRing, h.intMask, ⟨fun left => ?_, fun left => ?_⟩, h.atStart, started⟩
      · obtain ⟨before, unseen⟩ := hasRx_acknowledged.mp left
        exact (settled fun seen => unseen ⟨seen, maskRx⟩).1 before
      · by_cases bit : HasRx status
        · exact returned bit
        · apply (settled bit).2
          intro before
          exact left (hasRx_acknowledged.mpr ⟨before, fun both => bit both.1⟩)

/-- Every state of a run in which frames complete one by one. -/
theorem Ring.synced_of_reaches {s : Eth} (configured : Configured s)
    (run : Ring.Reaches Alone s r) : r.Synced := by
  induction run with
  | refl =>
      constructor
      · show s.rxDmaIdx < rx0DscpNum
        rw [configured.rxDmaIdx]
        decide
      · show HasRx s.intMask
        rw [configured.intMask]
        decide
      · show Ring.Phase _ s.handler
        rw [configured.handler]
        refine ⟨fun bit => absurd configured.intStatus bit, fun _ => ⟨configured.received.symm, ?_⟩⟩
        show (s.dscp s.lastFilled).done = false
        rw [configured.dscp]
      · exact le_rfl
      · exact Nat.zero_le _
  | tail _ step ih =>
      cases step with
      | complete f fits returned alone => exact ih.complete alone f
      | txDone irqStatus irqQueue => exact ih.txDone irqStatus irqQueue
      | handle fresh => exact ih.handle fresh

theorem Ring.Synced.inOrder (h : r.Synced) : r.eth.received <+: r.completed := by
  have phase := h.phase
  cases place : r.eth.handler with
  | idle =>
      rw [place] at phase
      exact Ring.Settled.inOrder phase
  | masked mask =>
      rw [place] at phase
      exact phase.2.inOrder
  | sampled mask status =>
      rw [place] at phase
      by_cases bit : HasRx status
      · obtain ⟨f, waits⟩ := phase.2.1 bit
        exact waits.inOrder
      · exact (phase.2.2 bit).1.inOrder
  | indexed mask status idx =>
      rw [place] at phase
      obtain ⟨-, -, -, f, waits⟩ := phase
      exact waits.inOrder
  | popped mask status idx skb =>
      rw [place] at phase
      obtain ⟨-, -, -, f, data, -, waits⟩ := phase
      exact waits.inOrder
  | delivered mask status idx =>
      rw [place] at phase
      rw [phase.2.2.2]
  | handled mask status =>
      rw [place] at phase
      by_cases bit : HasRx status
      · rw [(phase.2.2.1 bit).1]
      · exact (phase.2.2.2 bit).inOrder

end Steps

/-- If every frame completes by itself, no frame is lost or repeated, whatever else happens
between the steps of the handler. -/
theorem mtkHandleIrq_receives {s : Eth} (configured : Configured s) {r : Ring}
    (run : Ring.Reaches Alone s r) : r.Faithful :=
  have synced := Ring.synced_of_reaches configured run
  ⟨synced.inOrder, synced.followed⟩

/-- The state after `qdma_config`, with buffers of zeros. -/
def Eth.afterQdmaConfig : Eth where
  dscp := fun _ => ⟨false, 1518⟩
  buffer := fun _ _ => 0
  rxDmaIdx := 0
  rxCpuIdx := rx0DscpNum
  intMask := 1#32 <<< 10 ||| 1#32 <<< 9 ||| 1#32 <<< 8 ||| 1#32 <<< 3 ||| 1#32 <<< 2 |||
    intStatusRx0Done
  intStatus := 0#32
  irqStatus := 0#32
  irqClearLen := 0#32
  irqQueue := fun _ => irqDefValue
  handler := .idle
  received := []

theorem configured_afterQdmaConfig : Configured Eth.afterQdmaConfig :=
  ⟨rfl, rfl, rfl, rfl, by decide, rfl, rfl⟩

/-- One whole invocation of the handler. -/
def Ring.invoke (r : Ring) : Ring := (Ring.handle fun _ => 0)^[7] r

/-- The handler goes on for some steps. -/
theorem Ring.reaches_handle {mayComplete : Eth → Prop} {s : Eth} {r : Ring} (n : ℕ)
    (run : Ring.Reaches mayComplete s r) :
    Ring.Reaches mayComplete s ((Ring.handle fun _ => 0)^[n] r) := by
  induction n with
  | zero => exact run
  | succ n ih =>
      rw [Function.iterate_succ_apply']
      exact ih.tail (.handle _)

theorem Ring.reaches_invoke {mayComplete : Eth → Prop} {s : Eth} {r : Ring}
    (run : Ring.Reaches mayComplete s r) : Ring.Reaches mayComplete s r.invoke :=
  reaches_handle 7 run

/-- Three frames, the first together with a sent frame, the second after the handler has masked
the interrupts, the third after another sent frame. -/
theorem mtkHandleIrq_receives_three : ∃ r, Ring.Reaches Alone Eth.afterQdmaConfig r ∧
    r.followed = 3 ∧ r.eth.received = [[7, 8], [9], [1, 2, 3]] ∧ r.Faithful := by
  have first : Ring.Reaches Alone Eth.afterQdmaConfig _ :=
    .single (.complete [7, 8] (by decide) rfl ⟨rfl, id⟩)
  have handled := Ring.reaches_invoke (first.tail (.txDone 1#32 fun _ => 0))
  have masked := handled.tail (.handle fun _ => 0)
  have second := masked.tail (.complete [9] (by decide) rfl ⟨rfl, id⟩)
  have handled := Ring.reaches_handle 6 second
  have sent := Ring.reaches_handle 4 (handled.tail (.txDone 1#32 fun _ => 5))
  have third := sent.tail (.complete [1, 2, 3] (by decide) rfl ⟨rfl, id⟩)
  have run := Ring.reaches_invoke third
  exact ⟨_, run, by decide, by decide, mtkHandleIrq_receives configured_afterQdmaConfig run⟩

/-- Two frames complete before the handler runs. It hands over the second one only. -/
theorem mtkHandleIrq_loses_frame : ∃ r,
    Ring.Reaches (fun _ => True) Eth.afterQdmaConfig r ∧ r.completed = [[1], [2]] ∧
      r.followed = 2 ∧ r.eth.received = [[2]] ∧ ¬ r.Faithful := by
  have first : Ring.Step (fun _ => True) ⟨Eth.afterQdmaConfig, [], 0, 0⟩ _ :=
    .complete [1] (by decide) rfl trivial
  have run := Ring.reaches_invoke ((Relation.ReflTransGen.single first).tail
    (.complete [2] (by decide) rfl trivial))
  refine ⟨_, run, by decide, by decide, by decide, fun faithful => ?_⟩
  exact absurd faithful.2 (by decide)

end En7512.Net
