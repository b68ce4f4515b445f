/-
# Sending frames through the GMAC ring

`tc3162_eth_send` first takes back the descriptors that the engine is done with, in order,
and frees their packets; then it fills the next descriptor and gives it to the engine. The
place that is filled next, the place that is taken back next and the number of descriptors
in between are kept in three variables with a test for the end of the ring each, and a
register tells the engine how far the ring is filled and, in bit 15, in which round.

Counting from the beginning of a run, the variables are the number of packets accepted, the
number freed and their difference, and that makes the ring a queue.
-/

import En7512.Logic.Around
import En7512.Logic.Runs
import Mathlib.Data.List.Induction
import Mathlib.Data.List.TakeDrop
import Mathlib.Data.Nat.Bitwise

namespace En7512.Net

open En7512.Logic

variable {σ : Type}

/-! ## The driver -/

/-- The bit `owner` of `tdes0` and `rdes0`. -/
def ownerBit : BitVec 32 := 1#32 <<< 31

/-- `K1_TO_PHY`. -/
def k1ToPhy (addr : BitVec 32) : BitVec 32 := addr &&& 0x1fffffff#32

/-- `macTxDescr_t`. -/
structure MacTxDescr where
  tdes0 : BitVec 32
  tdes1 : BitVec 32
  tdes2 : BitVec 32
  tdes3 : BitVec 32
  deriving DecidableEq

/-- The bit is set: the descriptor belongs to the engine. -/
def MacTxDescr.owner (d : MacTxDescr) : Bool := d.tdes0.getLsbD 31

/-- The transmit half of `macAdapter_t`, the register, and the packets given to `free_skb` at
the two places that do so. -/
structure MacTx (σ : Type) where
  descr : ℕ → MacTxDescr
  txskbs : ℕ → Option σ
  txCurrentDescp : ℕ
  txUnReleasedDescp : ℕ
  txUnReleasedBufCnt : ℕ
  /-- `CR_GMAC_GTTPR(0)`. -/
  gttpr : BitVec 32
  /-- Freed by `macTxRingProc`, in order. -/
  released : List σ
  /-- Freed by `tc3162_eth_send`, in order. -/
  dropped : List σ

/-- What `tc3162_eth_send` uses of a packet. -/
structure MacPacket (σ : Type) where
  skb : σ
  /-- `skb->data`; NULL is zero. -/
  data : BitVec 32
  /-- `skb->len`. -/
  len : BitVec 32

namespace MacTx

/-- `macDrvDescripInit`, with `CR_GMAC_GTTPR` at zero. -/
def macDrvDescripInit : MacTx σ where
  descr _ := ⟨0, 0, 0, 0⟩
  txskbs _ := none
  txCurrentDescp := 0
  txUnReleasedDescp := 0
  txUnReleasedBufCnt := 0
  gttpr := 0
  released := []
  dropped := []

/-- The body of the loop of `macTxRingProc`, when the descriptor is not the engine's. -/
def releaseNext (n : ℕ) (s : MacTx σ) : MacTx σ :=
  let i := s.txUnReleasedDescp
  { s with
    released := s.released ++ (s.txskbs i).toList
    descr := Function.update s.descr i { s.descr i with tdes2 := 0 }
    txskbs := Function.update s.txskbs i none
    txUnReleasedDescp := nextIdx n i
    txUnReleasedBufCnt := s.txUnReleasedBufCnt - 1 }

/-- The loop of `macTxRingProc`. Each round lowers the counter, so that many are enough. -/
def macTxRingProcLoop (n : ℕ) : ℕ → MacTx σ → MacTx σ
  | 0, s => s
  | fuel + 1, s =>
      if s.txUnReleasedBufCnt = 0 then s
      else if (s.descr s.txUnReleasedDescp).owner then s
      else macTxRingProcLoop n fuel (s.releaseNext n)

/-- `macTxRingProc`. -/
def macTxRingProc (n : ℕ) (s : MacTx σ) : MacTx σ := macTxRingProcLoop n s.txUnReleasedBufCnt s

/-- `tc3162_eth_send` drops a packet. -/
def drop (skb : σ) (s : MacTx σ) : MacTx σ := { s with dropped := s.dropped ++ [skb] }

/-- The register after a descriptor has been filled, when `cur` is filled next. -/
def nextReg (n i : ℕ) (reg : BitVec 32) : BitVec 32 :=
  if i = n - 1 then ((reg ^^^ 1#32 <<< 15) &&& 0x8000#32) ||| BitVec.ofNat 32 (nextIdx n i)
  else (reg &&& 0x8000#32) ||| BitVec.ofNat 32 (nextIdx n i)

/-- The end of `tc3162_eth_send`: the packet goes into the descriptor. -/
def fill (n : ℕ) (pkt : MacPacket σ) (s : MacTx σ) : MacTx σ :=
  let i := s.txCurrentDescp
  let d : MacTxDescr := { s.descr i with
    tdes0 := 0
    tdes1 := pkt.len &&& 0x7ff#32
    tdes2 := k1ToPhy pkt.data }
  { s with
    descr := Function.update s.descr i { d with tdes0 := d.tdes0 ||| ownerBit }
    txskbs := Function.update s.txskbs i (some pkt.skb)
    gttpr := nextReg n i s.gttpr
    txCurrentDescp := nextIdx n i
    txUnReleasedBufCnt := s.txUnReleasedBufCnt + 1 }

/-- `tc3162_eth_send`, with the size `n` of the ring. -/
def tc3162EthSend (n : ℕ) (pkt : MacPacket σ) (s : MacTx σ) : ℕ × MacTx σ :=
  if pkt.data = 0#32 then (1, s)
  else
    let s := s.macTxRingProc n
    if s.txUnReleasedBufCnt = n then (1, s.drop pkt.skb)
    else if (s.descr s.txCurrentDescp).owner then (1, s.drop pkt.skb)
    else (0, s.fill n pkt)

end MacTx

/-! ## The engine -/

/-- The driver and the engine, with what has been accepted and rejected so far. -/
structure MacTxRun (σ : Type) where
  tx : MacTx σ
  /-- The packets for which `tc3162_eth_send` returned zero. -/
  accepted : List σ
  /-- The packets with data for which it did not. -/
  rejected : List σ
  /-- How often `txCurrentDescp` has come to the end of the ring. -/
  wraps : ℕ
  /-- How many descriptors the engine has given back. -/
  cleared : ℕ

/-- A call of the driver, or a step of the engine. What the engine does within a call comes to the
same (`Interleaved.exists_inputs`). -/
inductive MacTxInput (σ : Type)
  | send (pkt : MacPacket σ)
  /-- The engine is done with the next descriptor in the order of the ring, and writes its
  status there with the bit `owner` clear. -/
  | giveBack (status : BitVec 32)

namespace MacTxRun

/-- The initialised ring. -/
def initial : MacTxRun σ := ⟨MacTx.macDrvDescripInit, [], [], 0, 0⟩

/-- A call of `tc3162_eth_send`. -/
def send (n : ℕ) (pkt : MacPacket σ) (r : MacTxRun σ) : MacTxRun σ :=
  match r.tx.tc3162EthSend n pkt with
  | (0, tx) => { r with
      tx := tx
      accepted := r.accepted ++ [pkt.skb]
      wraps := if r.tx.txCurrentDescp = n - 1 then r.wraps + 1 else r.wraps }
  | (_, tx) => { r with
      tx := tx
      rejected := if pkt.data = 0#32 then r.rejected else r.rejected ++ [pkt.skb] }

/-- The engine gives a descriptor back, if the next one is its own. -/
def giveBack (n : ℕ) (status : BitVec 32) (r : MacTxRun σ) : MacTxRun σ :=
  let i := r.cleared % n
  if (r.tx.descr i).owner then
    { r with
      tx := { r.tx with
        descr := Function.update r.tx.descr i
          { r.tx.descr i with tdes0 := status &&& ~~~ownerBit } }
      cleared := r.cleared + 1 }
  else r

/-- One step of a run. -/
def step (n : ℕ) : MacTxInput σ → MacTxRun σ → MacTxRun σ
  | .send pkt => send n pkt
  | .giveBack status => giveBack n status

/-- The ring is a queue: counting from the beginning of the run, the packets from the first
that has not been freed to the last that was accepted are in their places, in order, and the
engine owns the ones it has not given back. -/
structure Fifo (n : ℕ) (r : MacTxRun σ) : Prop where
  released : r.tx.released <+: r.accepted
  freed : r.tx.released.length ≤ r.cleared
  cleared : r.cleared ≤ r.accepted.length
  fits : r.accepted.length ≤ r.tx.released.length + n
  count : r.tx.released.length + r.tx.txUnReleasedBufCnt = r.accepted.length
  unReleased : r.tx.txUnReleasedDescp = r.tx.released.length % n
  current : r.tx.txCurrentDescp = r.accepted.length % n
  slot : ∀ k, r.tx.released.length ≤ k → k < r.accepted.length →
    r.tx.txskbs (k % n) = r.accepted[k]?
  owner : ∀ i, (r.tx.descr i).owner ↔
    ∃ k, r.cleared ≤ k ∧ k < r.accepted.length ∧ k % n = i
  dropped : r.tx.dropped = r.rejected

section Fifo

variable {n : ℕ} {r : MacTxRun σ} {s : MacTx σ} {pkt : MacPacket σ}

theorem Fifo.initial (n : ℕ) : (initial : MacTxRun σ).Fifo n where
  released := List.nil_prefix
  freed := le_rfl
  cleared := le_rfl
  fits := Nat.zero_le _
  count := rfl
  unReleased := (Nat.zero_mod n).symm
  current := (Nat.zero_mod n).symm
  slot k _ hk := absurd hk (Nat.not_lt_zero k)
  owner i := by
    apply iff_of_false
    · show ¬ (⟨0, 0, 0, 0⟩ : MacTxDescr).owner
      decide
    · rintro ⟨k, -, hk, -⟩
      exact Nat.not_lt_zero k hk
  dropped := rfl

/-- A descriptor that is not the engine's, at the end of the queue, has been given back. -/
theorem Fifo.freed_lt (h : r.Fifo n) (some : r.tx.txUnReleasedBufCnt ≠ 0)
    (free : ¬ (r.tx.descr r.tx.txUnReleasedDescp).owner) :
    r.tx.released.length < r.cleared := by
  by_contra all
  have count := h.count
  apply free
  rw [h.owner, h.unReleased]
  exact ⟨_, by omega, by omega, rfl⟩

/-- A round of `macTxRingProc` frees the packet that was accepted first. -/
theorem Fifo.releaseNext (h : r.Fifo n) (pos : 0 < n) (some : r.tx.txUnReleasedBufCnt ≠ 0)
    (free : ¬ (r.tx.descr r.tx.txUnReleasedDescp).owner) :
    ({ r with tx := r.tx.releaseNext n } : MacTxRun σ).Fifo n := by
  have count := h.count
  have inside : r.tx.released.length < r.accepted.length := by omega
  have slot : r.tx.txskbs r.tx.txUnReleasedDescp =
      Option.some r.accepted[r.tx.released.length] := by
    rw [h.unReleased, h.slot _ le_rfl inside, List.getElem?_eq_getElem inside]
  have released : (r.tx.releaseNext n).released =
      r.accepted.take (r.tx.released.length + 1) := by
    show r.tx.released ++ (r.tx.txskbs r.tx.txUnReleasedDescp).toList = _
    rw [slot, List.take_succ_eq_append_getElem inside,
      ← List.prefix_iff_eq_take.mp h.released]
    rfl
  have length : (r.tx.releaseNext n).released.length = r.tx.released.length + 1 := by
    rw [released, List.length_take]
    omega
  constructor
  · show (r.tx.releaseNext n).released <+: r.accepted
    rw [released]
    exact List.take_prefix _ _
  · show (r.tx.releaseNext n).released.length ≤ r.cleared
    rw [length]
    exact h.freed_lt some free
  · exact h.cleared
  · show r.accepted.length ≤ (r.tx.releaseNext n).released.length + n
    have fits := h.fits
    omega
  · show (r.tx.releaseNext n).released.length + (r.tx.txUnReleasedBufCnt - 1) = r.accepted.length
    omega
  · show nextIdx n r.tx.txUnReleasedDescp = (r.tx.releaseNext n).released.length % n
    rw [length, h.unReleased, nextIdx_mod pos]
  · exact h.current
  · intro k low high
    have low' : r.tx.released.length + 1 ≤ k := by
      rw [← length]
      exact low
    have fits := h.fits
    have high' : k < r.accepted.length := high
    have other : k % n ≠ r.tx.txUnReleasedDescp := by
      rw [h.unReleased]
      intro same
      have equal := eq_of_mod_eq same.symm (by omega) (by omega)
      omega
    show Function.update r.tx.txskbs r.tx.txUnReleasedDescp none (k % n) = _
    rw [Function.update_of_ne other]
    exact h.slot k (by omega) high'
  · intro i
    show (Function.update r.tx.descr r.tx.txUnReleasedDescp _ i).owner ↔ _
    by_cases here : i = r.tx.txUnReleasedDescp
    · rw [here, Function.update_self]
      exact h.owner _
    · rw [Function.update_of_ne here]
      exact h.owner i
  · exact h.dropped

/-- `macTxRingProc`, whatever the number of its rounds. -/
theorem Fifo.macTxRingProcLoop (h : r.Fifo n) (pos : 0 < n) (fuel : ℕ) :
    ({ r with tx := r.tx.macTxRingProcLoop n fuel } : MacTxRun σ).Fifo n := by
  induction fuel generalizing r with
  | zero => exact h
  | succ fuel ih =>
      rw [MacTx.macTxRingProcLoop]
      by_cases empty : r.tx.txUnReleasedBufCnt = 0
      · rw [if_pos empty]
        exact h
      · rw [if_neg empty]
        by_cases owned : (r.tx.descr r.tx.txUnReleasedDescp).owner
        · rw [if_pos owned]
          exact h
        · rw [if_neg owned]
          exact ih (h.releaseNext pos empty owned)

theorem Fifo.macTxRingProc (h : r.Fifo n) (pos : 0 < n) :
    ({ r with tx := r.tx.macTxRingProc n } : MacTxRun σ).Fifo n :=
  h.macTxRingProcLoop pos _

/-- The engine is not given a descriptor it still owns. -/
theorem Fifo.current_free (h : r.Fifo n) (room : r.tx.txUnReleasedBufCnt ≠ n) :
    ¬ (r.tx.descr r.tx.txCurrentDescp).owner := by
  rw [h.owner, h.current]
  rintro ⟨k, low, high, same⟩
  have count := h.count
  have fits := h.fits
  have freed := h.freed
  have equal := eq_of_mod_eq same high.le (by omega)
  omega

/-- A packet goes into the descriptor after the last one. -/
theorem Fifo.fill (h : r.Fifo n) (pos : 0 < n) (room : r.tx.txUnReleasedBufCnt ≠ n)
    (pkt : MacPacket σ) (wraps : ℕ) :
    ({ r with
      tx := r.tx.fill n pkt
      accepted := r.accepted ++ [pkt.skb]
      wraps := wraps } : MacTxRun σ).Fifo n := by
  have count := h.count
  have fits := h.fits
  have freed := h.freed
  have cleared := h.cleared
  have length : (r.accepted ++ [pkt.skb]).length = r.accepted.length + 1 := List.length_append
  constructor
  · exact h.released.trans (List.prefix_append _ _)
  · exact freed
  · show r.cleared ≤ (r.accepted ++ [pkt.skb]).length
    omega
  · show (r.accepted ++ [pkt.skb]).length ≤ r.tx.released.length + n
    omega
  · show r.tx.released.length + (r.tx.txUnReleasedBufCnt + 1) = (r.accepted ++ [pkt.skb]).length
    omega
  · exact h.unReleased
  · show nextIdx n r.tx.txCurrentDescp = (r.accepted ++ [pkt.skb]).length % n
    rw [length, h.current, nextIdx_mod pos]
  · intro k low high
    have high' : k < r.accepted.length + 1 := by
      rw [← length]
      exact high
    have low' : r.tx.released.length ≤ k := low
    show Function.update r.tx.txskbs r.tx.txCurrentDescp _ (k % n) =
      (r.accepted ++ [pkt.skb])[k]?
    by_cases last : k = r.accepted.length
    · rw [last, ← h.current, Function.update_self, List.getElem?_concat_length]
    · have before : k < r.accepted.length := by omega
      have other : k % n ≠ r.tx.txCurrentDescp := by
        rw [h.current]
        intro same
        have equal := eq_of_mod_eq same before.le (by omega)
        omega
      rw [Function.update_of_ne other, List.getElem?_append_left before]
      exact h.slot k low' before
  · intro i
    show (Function.update r.tx.descr r.tx.txCurrentDescp _ i).owner ↔
      ∃ k, r.cleared ≤ k ∧ k < (r.accepted ++ [pkt.skb]).length ∧ k % n = i
    rw [length]
    by_cases here : i = r.tx.txCurrentDescp
    · rw [here, Function.update_self]
      apply iff_of_true
      · show (0#32 ||| ownerBit).getLsbD 31
        decide
      · exact ⟨_, cleared, Nat.lt_succ_self _, h.current.symm⟩
    · rw [Function.update_of_ne here, h.owner]
      constructor
      · rintro ⟨k, low, high, same⟩
        exact ⟨k, low, Nat.lt_succ_of_lt high, same⟩
      · rintro ⟨k, low, high, same⟩
        obtain before | rfl := Nat.lt_succ_iff_lt_or_eq.mp high
        · exact ⟨k, low, before, same⟩
        · exact absurd (same.symm.trans h.current.symm) here
  · exact h.dropped

/-- A packet is dropped. -/
theorem Fifo.drop (h : r.Fifo n) (skb : σ) :
    ({ r with tx := r.tx.drop skb, rejected := r.rejected ++ [skb] } : MacTxRun σ).Fifo n where
  released := h.released
  freed := h.freed
  cleared := h.cleared
  fits := h.fits
  count := h.count
  unReleased := h.unReleased
  current := h.current
  slot := h.slot
  owner := h.owner
  dropped := congrArg (· ++ [skb]) h.dropped

/-- One call of `tc3162_eth_send`. -/
theorem Fifo.send (h : r.Fifo n) (pos : 0 < n) (pkt : MacPacket σ) : (r.send n pkt).Fifo n := by
  rw [MacTxRun.send, MacTx.tc3162EthSend]
  by_cases noData : pkt.data = 0#32
  · simp only [if_pos noData]
    exact h
  · have recycled := h.macTxRingProc pos
    simp only [if_neg noData]
    by_cases full : (r.tx.macTxRingProc n).txUnReleasedBufCnt = n
    · simp only [if_pos full]
      exact recycled.drop pkt.skb
    · simp only [if_neg full, if_neg (recycled.current_free full)]
      exact recycled.fill pos full pkt _

/-- The engine gives a descriptor back. -/
theorem Fifo.giveBack (h : r.Fifo n) (status : BitVec 32) : (r.giveBack n status).Fifo n := by
  rw [MacTxRun.giveBack]
  by_cases owned : (r.tx.descr (r.cleared % n)).owner
  · have fits := h.fits
    have freed := h.freed
    have more : r.cleared < r.accepted.length := by
      obtain ⟨k, low, high, -⟩ := (h.owner _).mp owned
      omega
    rw [if_pos owned]
    constructor
    · exact h.released
    · exact Nat.le_succ_of_le freed
    · exact more
    · exact fits
    · exact h.count
    · exact h.unReleased
    · exact h.current
    · exact h.slot
    · intro i
      show (Function.update r.tx.descr (r.cleared % n) _ i).owner ↔
        ∃ k, r.cleared + 1 ≤ k ∧ k < r.accepted.length ∧ k % n = i
      by_cases here : i = r.cleared % n
      · rw [here, Function.update_self]
        apply iff_of_false
        · have bit : ownerBit.getLsbD 31 = true := by decide
          show ¬ (status &&& ~~~ownerBit).getLsbD 31
          rw [BitVec.getLsbD_and, BitVec.getLsbD_not, bit]
          simp
        · rintro ⟨k, low, high, same⟩
          have equal := eq_of_mod_eq same.symm (by omega) (by omega)
          omega
      · rw [Function.update_of_ne here, h.owner]
        constructor
        · rintro ⟨k, low, high, same⟩
          have later : k ≠ r.cleared := by
            rintro rfl
            exact here same.symm
          exact ⟨k, by omega, high, same⟩
        · rintro ⟨k, low, high, same⟩
          exact ⟨k, by omega, high, same⟩
    · exact h.dropped
  · rw [if_neg owned]
    exact h

/-- Every run. -/
theorem Fifo.run (pos : 0 < n) (inputs : List (MacTxInput σ)) :
    (runInputs (step n) MacTxRun.initial inputs).Fifo n := by
  induction inputs using List.reverseRecOn with
  | nil => exact Fifo.initial n
  | append_singleton inputs input ih =>
      rw [runInputs_append]
      cases input with
      | send pkt => exact ih.send pos pkt
      | giveBack status => exact ih.giveBack status

end Fifo

/-! ## What the engine owns -/

section Owned

variable {n i : ℕ} {s : MacTx σ}

/-- `macTxRingProc` leaves the engine's descriptors alone. -/
theorem descr_macTxRingProcLoop (owned : (s.descr i).owner) (fuel : ℕ) :
    (s.macTxRingProcLoop n fuel).descr i = s.descr i := by
  induction fuel generalizing s with
  | zero => rfl
  | succ fuel ih =>
      rw [MacTx.macTxRingProcLoop]
      by_cases empty : s.txUnReleasedBufCnt = 0
      · rw [if_pos empty]
      · rw [if_neg empty]
        by_cases engine : (s.descr s.txUnReleasedDescp).owner
        · rw [if_pos engine]
        · rw [if_neg engine]
          have other : i ≠ s.txUnReleasedDescp := by
            rintro rfl
            exact engine owned
          have same : (s.releaseNext n).descr i = s.descr i := Function.update_of_ne other _ _
          have next := ih (s := s.releaseNext n) (by rwa [same])
          rw [next, same]

/-- `tc3162_eth_send` does, too. -/
theorem descr_tc3162EthSend (owned : (s.descr i).owner) (pkt : MacPacket σ) :
    (s.tc3162EthSend n pkt).2.descr i = s.descr i := by
  have recycled : (s.macTxRingProc n).descr i = s.descr i := descr_macTxRingProcLoop owned _
  rw [MacTx.tc3162EthSend]
  by_cases noData : pkt.data = 0#32
  · rw [if_pos noData]
  · simp only [if_neg noData]
    by_cases full : (s.macTxRingProc n).txUnReleasedBufCnt = n
    · rw [if_pos full]
      exact recycled
    · rw [if_neg full]
      by_cases engine : ((s.macTxRingProc n).descr (s.macTxRingProc n).txCurrentDescp).owner
      · rw [if_pos engine]
        exact recycled
      · rw [if_neg engine]
        have other : i ≠ (s.macTxRingProc n).txCurrentDescp := by
          rintro rfl
          rw [recycled] at engine
          exact engine owned
        exact (Function.update_of_ne other _ _).trans recycled

end Owned

/-! ## The register -/

/-- Bit 15 of the register. -/
def phase (odd : Bool) : BitVec 32 := if odd then 0x8000#32 else 0#32

section Register

variable {n i c : ℕ} {odd : Bool}

/-- An index has no bit 15. -/
theorem index_and_phase (hc : c < 0x8000) : BitVec.ofNat 32 c &&& 0x8000#32 = 0#32 := by
  have bit : 0x8000#32 = BitVec.twoPow 32 15 := by decide
  have clear : c.testBit 15 = false := Nat.testBit_lt_two_pow hc
  rw [bit, BitVec.and_twoPow, BitVec.getLsbD_ofNat, clear, Bool.and_false]
  rfl

theorem reg_and_phase (hc : c < 0x8000) (odd : Bool) :
    (phase odd ||| BitVec.ofNat 32 c) &&& 0x8000#32 = phase odd := by
  rw [BitVec.and_comm, BitVec.and_or_distrib_left, BitVec.and_comm (0x8000#32) (BitVec.ofNat 32 c),
    index_and_phase hc, BitVec.or_zero]
  cases odd <;> decide

/-- The register keeps its form, and bit 15 changes at the end of the ring. -/
theorem nextReg_eq (hc : c < 0x8000) (odd : Bool) :
    MacTx.nextReg n i (phase odd ||| BitVec.ofNat 32 c) =
      phase (odd ^^ decide (i = n - 1)) ||| BitVec.ofNat 32 (nextIdx n i) := by
  rw [MacTx.nextReg]
  by_cases last : i = n - 1
  · have flipped : ((phase odd ||| BitVec.ofNat 32 c) ^^^ 1#32 <<< 15) &&& 0x8000#32 =
        phase (!odd) := by
      have split : ((phase odd ||| BitVec.ofNat 32 c) ^^^ 1#32 <<< 15) &&& 0x8000#32 =
          ((phase odd ||| BitVec.ofNat 32 c) &&& 0x8000#32) ^^^ 0x8000#32 := by
        ext j hj
        have same : (1#32 <<< 15)[j] = (0x8000#32)[j] := by congr 1
        simp only [BitVec.getElem_and, BitVec.getElem_xor, same]
        cases (0x8000#32)[j] <;> simp
      rw [split, reg_and_phase hc]
      cases odd <;> decide
    rw [if_pos last, flipped, decide_eq_true last, Bool.xor_true]
  · rw [if_neg last, reg_and_phase hc, decide_eq_false last, Bool.xor_false]

/-- The register as a number. -/
theorem toNat_reg (hc : c < 0x8000) (odd : Bool) :
    (phase odd ||| BitVec.ofNat 32 c).toNat = c + 0x8000 * odd.toNat := by
  have index : (BitVec.ofNat 32 c).toNat = c := by
    rw [BitVec.toNat_ofNat]
    exact Nat.mod_eq_of_lt (by omega)
  rw [BitVec.toNat_or, index]
  cases odd with
  | false => simp [phase]
  | true =>
      show 2 ^ 15 ||| c = _
      have sum := Nat.two_pow_add_eq_or_of_lt (i := 15) hc 1
      rw [Nat.mul_one] at sum
      rw [← sum, Nat.add_comm]
      rfl

/-- The register says how far the ring is filled, and in which round. -/
def InRound (r : MacTxRun σ) : Prop :=
  r.tx.gttpr = phase (decide (r.wraps % 2 = 1)) ||| BitVec.ofNat 32 r.tx.txCurrentDescp

/-- `macTxRingProc` does not touch the register and the place that is filled next. -/
theorem macTxRingProcLoop_register (s : MacTx σ) (fuel : ℕ) :
    (s.macTxRingProcLoop n fuel).gttpr = s.gttpr ∧
      (s.macTxRingProcLoop n fuel).txCurrentDescp = s.txCurrentDescp := by
  induction fuel generalizing s with
  | zero => exact ⟨rfl, rfl⟩
  | succ fuel ih =>
      rw [MacTx.macTxRingProcLoop]
      by_cases empty : s.txUnReleasedBufCnt = 0
      · rw [if_pos empty]
        exact ⟨rfl, rfl⟩
      · rw [if_neg empty]
        by_cases engine : (s.descr s.txUnReleasedDescp).owner
        · rw [if_pos engine]
          exact ⟨rfl, rfl⟩
        · rw [if_neg engine]
          exact ih (s.releaseNext n)

/-- One call of `tc3162_eth_send`. -/
theorem InRound.send {r : MacTxRun σ} (h : r.InRound) (fifo : r.Fifo n) (pos : 0 < n)
    (small : n ≤ 0x8000) (pkt : MacPacket σ) : (r.send n pkt).InRound := by
  rw [MacTxRun.send, MacTx.tc3162EthSend]
  by_cases noData : pkt.data = 0#32
  · simp only [if_pos noData]
    exact h
  · obtain ⟨reg, cur⟩ : (r.tx.macTxRingProc n).gttpr = r.tx.gttpr ∧
        (r.tx.macTxRingProc n).txCurrentDescp = r.tx.txCurrentDescp :=
      macTxRingProcLoop_register r.tx _
    have recycled : ({ r with tx := r.tx.macTxRingProc n } : MacTxRun σ).InRound := by
      show (r.tx.macTxRingProc n).gttpr =
        _ ||| BitVec.ofNat 32 (r.tx.macTxRingProc n).txCurrentDescp
      rw [reg, cur]
      exact h
    simp only [if_neg noData]
    by_cases full : (r.tx.macTxRingProc n).txUnReleasedBufCnt = n
    · simp only [if_pos full]
      exact recycled
    · simp only [if_neg full, if_neg ((fifo.macTxRingProc pos).current_free full)]
      have inRing : r.tx.txCurrentDescp < 0x8000 := by
        rw [fifo.current]
        exact Nat.lt_of_lt_of_le (Nat.mod_lt _ pos) small
      show MacTx.nextReg n (r.tx.macTxRingProc n).txCurrentDescp (r.tx.macTxRingProc n).gttpr =
        phase _ ||| BitVec.ofNat 32 (nextIdx n (r.tx.macTxRingProc n).txCurrentDescp)
      rw [reg, cur, h, nextReg_eq inRing]
      congr 2
      by_cases last : r.tx.txCurrentDescp = n - 1
      · have flip : ((r.wraps + 1) % 2 = 1) ↔ ¬ r.wraps % 2 = 1 := by omega
        rw [if_pos last, decide_eq_true last, Bool.xor_true, ← decide_not]
        exact decide_eq_decide.mpr flip.symm
      · simp [last]

/-- Every run. -/
theorem InRound.run (pos : 0 < n) (small : n ≤ 0x8000) (inputs : List (MacTxInput σ)) :
    (runInputs (step n) MacTxRun.initial inputs).InRound := by
  induction inputs using List.reverseRecOn with
  | nil => exact show (0#32 : BitVec 32) = 0#32 ||| 0#32 by decide
  | append_singleton inputs input ih =>
      rw [runInputs_append]
      cases input with
      | send pkt => exact ih.send (Fifo.run pos inputs) pos small pkt
      | giveBack status =>
          show (MacTxRun.giveBack n status _).InRound
          rw [MacTxRun.giveBack]
          split
          · exact ih
          · exact ih

end Register

/-! ## The engine during a call -/

section During

variable {n : ℕ} {r r' : MacTxRun σ} {pkt : MacPacket σ}

/-- The engine gives descriptors back, one after the other. -/
inductive GivesBack (n : ℕ) : MacTxRun σ → MacTxRun σ → Prop
  | refl {r : MacTxRun σ} : GivesBack n r r
  | step {r r' : MacTxRun σ} (status : BitVec 32) (owned : (r.tx.descr (r.cleared % n)).owner)
      (rest : GivesBack n (r.giveBack n status) r') : GivesBack n r r'

/-- `macTxRingProc`, with the engine giving descriptors back between the rounds. -/
inductive Recycles (n : ℕ) : MacTxRun σ → MacTxRun σ → Prop
  | none {r : MacTxRun σ} (none : r.tx.txUnReleasedBufCnt = 0) : Recycles n r r
  | owned {r : MacTxRun σ} (owned : (r.tx.descr r.tx.txUnReleasedDescp).owner) : Recycles n r r
  | more {r r' : MacTxRun σ} (some : r.tx.txUnReleasedBufCnt ≠ 0)
      (free : ¬ (r.tx.descr r.tx.txUnReleasedDescp).owner)
      (rest : Recycles n { r with tx := r.tx.releaseNext n } r') : Recycles n r r'
  | meanwhile {r r' : MacTxRun σ} (status : BitVec 32)
      (rest : Recycles n (r.giveBack n status) r') : Recycles n r r'

/-- The packet goes into the descriptor. -/
def accept (n : ℕ) (pkt : MacPacket σ) (r : MacTxRun σ) : MacTxRun σ :=
  { r with
    tx := r.tx.fill n pkt
    accepted := r.accepted ++ [pkt.skb]
    wraps := if r.tx.txCurrentDescp = n - 1 then r.wraps + 1 else r.wraps }

/-- The packet is dropped. -/
def reject (skb : σ) (r : MacTxRun σ) : MacTxRun σ :=
  { r with tx := r.tx.drop skb, rejected := r.rejected ++ [skb] }

/-- `tc3162_eth_send`, with the engine giving descriptors back between its steps. -/
inductive Sends (n : ℕ) (pkt : MacPacket σ) (r : MacTxRun σ) : MacTxRun σ → Prop
  | noData (noData : pkt.data = 0#32) : Sends n pkt r r
  | full {r₁ : MacTxRun σ} (dat : pkt.data ≠ 0#32) (recycles : Recycles n r r₁)
      (full : r₁.tx.txUnReleasedBufCnt = n) :
      Sends n pkt r (r₁.reject pkt.skb)
  | owned {r₁ r₂ : MacTxRun σ} (dat : pkt.data ≠ 0#32) (recycles : Recycles n r r₁)
      (room : r₁.tx.txUnReleasedBufCnt ≠ n) (engine : GivesBack n r₁ r₂)
      (owned : (r₂.tx.descr r₂.tx.txCurrentDescp).owner) :
      Sends n pkt r (r₂.reject pkt.skb)
  | filled {r₁ r₂ r₃ : MacTxRun σ} (dat : pkt.data ≠ 0#32) (recycles : Recycles n r r₁)
      (room : r₁.tx.txUnReleasedBufCnt ≠ n) (engine : GivesBack n r₁ r₂)
      (free : ¬ (r₂.tx.descr r₂.tx.txCurrentDescp).owner) (engine' : GivesBack n r₂ r₃) :
      Sends n pkt r (r₃.accept n pkt)

/-- The engine gives descriptors back, with these values of their status. -/
def giveBacks (n : ℕ) (r : MacTxRun σ) (statuses : List (BitVec 32)) : MacTxRun σ :=
  statuses.foldl (fun r status => r.giveBack n status) r

theorem GivesBack.fifo (h : GivesBack n r r') (fifo : r.Fifo n) : r'.Fifo n := by
  induction h with
  | refl => exact fifo
  | step status _ _ ih => exact ih (fifo.giveBack status)

theorem GivesBack.trans {r'' : MacTxRun σ} (h : GivesBack n r r') (h' : GivesBack n r' r'') :
    GivesBack n r r'' := by
  induction h with
  | refl => exact h'
  | step status owned _ ih => exact .step status owned (ih h')

/-- It changes none of the driver's variables. -/
theorem GivesBack.variables (h : GivesBack n r r') :
    r'.tx.txUnReleasedBufCnt = r.tx.txUnReleasedBufCnt ∧
      r'.tx.txCurrentDescp = r.tx.txCurrentDescp := by
  induction h with
  | refl => exact ⟨rfl, rfl⟩
  | step status owned _ ih =>
      rw [giveBack, if_pos owned] at ih
      exact ih

/-- A descriptor that the driver takes back is not the one the engine gives back. -/
theorem giveBack_releaseNext (free : ¬ (r.tx.descr r.tx.txUnReleasedDescp).owner)
    (status : BitVec 32) :
    ({ r with tx := r.tx.releaseNext n } : MacTxRun σ).giveBack n status =
      { r.giveBack n status with tx := (r.giveBack n status).tx.releaseNext n } := by
  have owner : ((r.tx.releaseNext n).descr (r.cleared % n)).owner =
      (r.tx.descr (r.cleared % n)).owner := by
    show (Function.update r.tx.descr r.tx.txUnReleasedDescp _ (r.cleared % n)).owner = _
    by_cases same : r.cleared % n = r.tx.txUnReleasedDescp
    · rw [same, Function.update_self]
      rfl
    · rw [Function.update_of_ne same]
  rw [giveBack, giveBack, owner]
  by_cases owned : (r.tx.descr (r.cleared % n)).owner
  · rw [if_pos owned, if_pos owned]
    have other : r.cleared % n ≠ r.tx.txUnReleasedDescp := by
      intro same
      rw [same] at owned
      exact free owned
    simp only [MacTx.releaseNext, Function.update_of_ne other, Function.update_of_ne other.symm,
      Function.update_comm other]
  · rw [if_neg owned, if_neg owned]

/-- Giving back changes none of the driver's variables, and makes no descriptor the engine's. -/
theorem giveBack_variables (r : MacTxRun σ) (status : BitVec 32) :
    (r.giveBack n status).tx.txUnReleasedBufCnt = r.tx.txUnReleasedBufCnt ∧
      (r.giveBack n status).tx.txUnReleasedDescp = r.tx.txUnReleasedDescp ∧
      ∀ i, ¬ (r.tx.descr i).owner → ((r.giveBack n status).tx.descr i) = r.tx.descr i := by
  rw [giveBack]
  by_cases owned : (r.tx.descr (r.cleared % n)).owner
  · rw [if_pos owned]
    refine ⟨rfl, rfl, fun i free => Function.update_of_ne ?_ _ _⟩
    rintro rfl
    exact free owned
  · rw [if_neg owned]
    exact ⟨rfl, rfl, fun _ _ => rfl⟩

/-- A round may come after all that is given back. -/
theorem giveBacks_releaseNext (some : r.tx.txUnReleasedBufCnt ≠ 0)
    (free : ¬ (r.tx.descr r.tx.txUnReleasedDescp).owner) (statuses : List (BitVec 32)) :
    let back := giveBacks n r statuses
    giveBacks n { r with tx := r.tx.releaseNext n } statuses =
        { back with tx := back.tx.releaseNext n } ∧
      back.tx.txUnReleasedBufCnt ≠ 0 ∧ ¬ (back.tx.descr back.tx.txUnReleasedDescp).owner := by
  induction statuses generalizing r with
  | nil => exact ⟨rfl, some, free⟩
  | cons status statuses ih =>
      obtain ⟨count, place, same⟩ := giveBack_variables (n := n) r status
      have free' : ¬ ((r.giveBack n status).tx.descr
          (r.giveBack n status).tx.txUnReleasedDescp).owner := by
        rwa [place, same _ free]
      have next := ih (r := r.giveBack n status) (count ▸ some) free'
      rw [← giveBack_releaseNext free status] at next
      exact next

theorem macTxRingProc_more {s : MacTx σ} (some : s.txUnReleasedBufCnt ≠ 0)
    (free : ¬ (s.descr s.txUnReleasedDescp).owner) :
    s.macTxRingProc n = (s.releaseNext n).macTxRingProc n := by
  obtain ⟨count, eq⟩ := Nat.exists_eq_succ_of_ne_zero some
  have next : (s.releaseNext n).txUnReleasedBufCnt = count := by
    show s.txUnReleasedBufCnt - 1 = count
    omega
  rw [MacTx.macTxRingProc, MacTx.macTxRingProc, next, eq, Nat.succ_eq_add_one,
    MacTx.macTxRingProcLoop, if_neg some, if_neg free]

theorem macTxRingProc_owned {s : MacTx σ} (owned : (s.descr s.txUnReleasedDescp).owner) :
    s.macTxRingProc n = s := by
  rw [MacTx.macTxRingProc]
  cases s.txUnReleasedBufCnt with
  | zero => rfl
  | succ count =>
      rw [MacTx.macTxRingProcLoop]
      by_cases empty : s.txUnReleasedBufCnt = 0
      · rw [if_pos empty]
      · rw [if_neg empty, if_pos owned]

/-- What is given back between the rounds may as well be given back before them. -/
theorem Recycles.eq (h : Recycles n r r') : ∃ statuses,
    r' = { giveBacks n r statuses with tx := (giveBacks n r statuses).tx.macTxRingProc n } := by
  induction h with
  | none none =>
      refine ⟨[], ?_⟩
      rw [giveBacks, List.foldl_nil, MacTx.macTxRingProc, none]
      rfl
  | owned owned =>
      refine ⟨[], ?_⟩
      rw [giveBacks, List.foldl_nil, macTxRingProc_owned owned]
  | more some free _ ih =>
      obtain ⟨statuses, eq⟩ := ih
      obtain ⟨release, some', free'⟩ := giveBacks_releaseNext some free statuses
      refine ⟨statuses, ?_⟩
      rw [eq, release, macTxRingProc_more some' free']
  | meanwhile status _ ih =>
      obtain ⟨statuses, eq⟩ := ih
      exact ⟨status :: statuses, eq⟩

/-- What is given back before the descriptor is filled may as well be given back after that. -/
theorem GivesBack.accept (h : GivesBack n r r') (pkt : MacPacket σ)
    (free : ¬ (r.tx.descr r.tx.txCurrentDescp).owner) : ∃ statuses,
    r'.accept n pkt = giveBacks n (r.accept n pkt) statuses := by
  induction h with
  | refl => exact ⟨[], rfl⟩
  | @step r r' status owned _ ih =>
      have other : r.cleared % n ≠ r.tx.txCurrentDescp := by
        intro same
        rw [same] at owned
        exact free owned
      have back : (r.giveBack n status).accept n pkt = (r.accept n pkt).giveBack n status := by
        have owned' : ((r.accept n pkt).tx.descr ((r.accept n pkt).cleared % n)).owner := by
          show (Function.update r.tx.descr r.tx.txCurrentDescp _ (r.cleared % n)).owner
          rwa [Function.update_of_ne other]
        rw [giveBack, giveBack, if_pos owned, if_pos owned']
        simp only [MacTxRun.accept, MacTx.fill, Function.update_of_ne other,
          Function.update_of_ne other.symm, Function.update_comm other]
      have free' : ¬ ((r.giveBack n status).tx.descr
          (r.giveBack n status).tx.txCurrentDescp).owner := by
        rw [giveBack, if_pos owned]
        show ¬ (Function.update r.tx.descr (r.cleared % n) _ r.tx.txCurrentDescp).owner
        rwa [Function.update_of_ne other.symm]
      obtain ⟨statuses, eq⟩ := ih free'
      exact ⟨status :: statuses, by rw [eq, back]; rfl⟩

theorem Fifo.giveBacks (h : r.Fifo n) (statuses : List (BitVec 32)) :
    (giveBacks n r statuses).Fifo n := by
  induction statuses generalizing r with
  | nil => exact h
  | cons status statuses ih => exact ih (h.giveBack status)

theorem send_full (dat : pkt.data ≠ 0#32) (full : (r.tx.macTxRingProc n).txUnReleasedBufCnt = n) :
    r.send n pkt = ({ r with tx := r.tx.macTxRingProc n } : MacTxRun σ).reject pkt.skb := by
  rw [MacTxRun.send, MacTx.tc3162EthSend]
  simp only [if_neg dat, if_pos full]
  rfl

theorem send_room (dat : pkt.data ≠ 0#32) (room : (r.tx.macTxRingProc n).txUnReleasedBufCnt ≠ n)
    (free : ¬ ((r.tx.macTxRingProc n).descr (r.tx.macTxRingProc n).txCurrentDescp).owner) :
    r.send n pkt = ({ r with tx := r.tx.macTxRingProc n } : MacTxRun σ).accept n pkt := by
  have cur : (r.tx.macTxRingProc n).txCurrentDescp = r.tx.txCurrentDescp :=
    (macTxRingProcLoop_register r.tx _).2
  rw [cur] at free
  rw [MacTxRun.send, MacTx.tc3162EthSend, MacTxRun.accept]
  simp only [if_neg dat, if_neg room, if_neg free, cur]

/-- A call during which the engine goes on is a whole call, with what the engine gives back
before it and after it. -/
theorem Sends.eq (h : Sends n pkt r r') (pos : 0 < n) (fifo : r.Fifo n) :
    ∃ before after, r' = giveBacks n ((giveBacks n r before).send n pkt) after := by
  cases h with
  | noData noData =>
      refine ⟨[], [], ?_⟩
      simp only [MacTxRun.giveBacks, List.foldl_nil, MacTxRun.send, MacTx.tc3162EthSend,
        if_pos noData]
  | full dat recycles full =>
      obtain ⟨before, rfl⟩ := recycles.eq
      refine ⟨before, [], ?_⟩
      rw [send_full dat full]
      rfl
  | owned dat recycles room engine owned =>
      obtain ⟨before, rfl⟩ := recycles.eq
      have fifo₁ := (fifo.giveBacks before).macTxRingProc pos
      have count := engine.variables.1
      exact absurd owned ((engine.fifo fifo₁).current_free (count ▸ room))
  | filled dat recycles room engine free engine' =>
      obtain ⟨before, rfl⟩ := recycles.eq
      have fifo₁ := (fifo.giveBacks before).macTxRingProc pos
      have free₁ := fifo₁.current_free room
      obtain ⟨after, eq⟩ := (engine.trans engine').accept pkt free₁
      exact ⟨before, after, eq.trans (by rw [send_room dat room free₁])⟩

/-- Calls, during which the engine may go on, and what it does between them. -/
inductive Interleaved (n : ℕ) : MacTxRun σ → Prop
  | initial : Interleaved n initial
  | send {r r' : MacTxRun σ} (pkt : MacPacket σ) (before : Interleaved n r)
      (sends : Sends n pkt r r') : Interleaved n r'
  | giveBack {r : MacTxRun σ} (status : BitVec 32) (before : Interleaved n r) :
      Interleaved n (r.giveBack n status)

theorem runInputs_giveBacks (inputs : List (MacTxInput σ)) (statuses : List (BitVec 32)) :
    giveBacks n (runInputs (step n) initial inputs) statuses =
      runInputs (step n) initial (inputs ++ statuses.map .giveBack) := by
  induction statuses generalizing inputs with
  | nil => rw [List.map_nil, List.append_nil]; rfl
  | cons status statuses ih =>
      rw [List.map_cons, List.append_cons, ← ih, runInputs_append]
      rfl

/-- Every such run comes to a state that is reached by whole calls and by what the engine does
between them. -/
theorem Interleaved.exists_inputs (pos : 0 < n) (run : Interleaved n r) :
    ∃ inputs, r = runInputs (step n) MacTxRun.initial inputs := by
  induction run with
  | initial => exact ⟨[], rfl⟩
  | send pkt _ sends ih =>
      obtain ⟨inputs, rfl⟩ := ih
      obtain ⟨before, after, rfl⟩ := sends.eq pos (Fifo.run pos inputs)
      refine ⟨inputs ++ before.map .giveBack ++ [.send pkt] ++ after.map .giveBack, ?_⟩
      rw [← runInputs_giveBacks, runInputs_append, ← runInputs_giveBacks]
      rfl
  | giveBack status _ ih =>
      obtain ⟨inputs, rfl⟩ := ih
      exact ⟨inputs ++ [.giveBack status], by rw [runInputs_append]; rfl⟩

end During

/-- For every size of the ring and every run of `tc3162_eth_send` and the engine: the ring is
a queue, its end is as far from its beginning as the counter says, the driver never writes
to a descriptor the engine owns, and the register says where the ring ends and in which
round it is. -/
theorem tc3162EthSend_fifo {n : ℕ} (pos : 0 < n) (small : n ≤ 32768)
    (inputs : List (MacTxInput σ)) :
    let r := runInputs (step n) initial inputs
    r.Fifo n ∧
      r.tx.txCurrentDescp = (r.tx.txUnReleasedDescp + r.tx.txUnReleasedBufCnt) % n ∧
      r.tx.txUnReleasedBufCnt ≤ n ∧
      (∀ pkt i, (r.tx.descr i).owner → (r.tx.tc3162EthSend n pkt).2.descr i = r.tx.descr i) ∧
      r.tx.gttpr.toNat % 0x8000 = r.tx.txCurrentDescp ∧
      r.tx.gttpr.toNat / 0x8000 = r.wraps % 2 := by
  intro r
  have fifo : r.Fifo n := Fifo.run pos inputs
  have register : r.InRound := InRound.run pos small inputs
  have inRing : r.tx.txCurrentDescp < 0x8000 := by
    rw [fifo.current]
    exact Nat.lt_of_lt_of_le (Nat.mod_lt _ pos) small
  have value : r.tx.gttpr.toNat = r.tx.txCurrentDescp + 0x8000 * (r.wraps % 2) := by
    rw [register, toNat_reg inRing]
    obtain even | odd := Nat.mod_two_eq_zero_or_one r.wraps
    · simp [even]
    · simp [odd]
  have count := fifo.count
  have fits := fifo.fits
  refine ⟨fifo, ?_, by omega, fun pkt i owned => descr_tc3162EthSend owned pkt, ?_, ?_⟩
  · rw [fifo.current, fifo.unReleased, Nat.mod_add_mod, count]
  · rw [value]
    omega
  · rw [value]
    omega

/-- Three packets for a ring of two places. The third one is rejected, and accepted when it
comes again after the engine has given the first descriptor back. -/
theorem tc3162EthSend_fifo_two :
    let pkt (skb : ℕ) : MacTxInput ℕ := .send ⟨skb, 0xa2000000#32, 60#32⟩
    let r := runInputs (step 2) initial [pkt 1, pkt 2, pkt 3, .giveBack 0#32, pkt 3]
    r.tx.released = [1] ∧ r.tx.dropped = [3] ∧ r.accepted = [1, 2, 3] ∧
      r.tx.txUnReleasedBufCnt ≤ 2 ∧ r.tx.gttpr.toNat % 0x8000 = 1 := by
  intro pkt r
  obtain ⟨fifo, -, count, -, low, -⟩ :=
    tc3162EthSend_fifo (show 0 < 2 by decide) (show 2 ≤ 32768 by decide)
      [pkt 1, pkt 2, pkt 3, .giveBack 0#32, pkt 3]
  have current : r.tx.txCurrentDescp = 1 := by decide +kernel
  exact ⟨by decide +kernel, by decide +kernel, by decide +kernel, count, low.trans current⟩

end MacTxRun

end En7512.Net
