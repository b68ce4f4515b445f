/-
# Sending frames through the Ethernet ring

`mtk_start_xmit` maps the packet into the descriptor of the producer, releases the two
descriptors after it by following their links, and moves the producer on by one. It
releases by place and not by what the hardware says is done.

The packets are accounted for in every run: each one passed in is in one slot or has been
freed once, because the two slots that the producer comes to next are always empty. The
hardware, however, may not have read the packet in the second one. That is the case when it
lags by more than one packet.
-/

import En7512.Logic.Runs
import Mathlib.Data.List.Count
import Mathlib.Data.List.Induction
import Mathlib.Data.List.Nodup
import Mathlib.Data.List.Pairwise
import Mathlib.Data.Nat.Basic
import Mathlib.Tactic.IntervalCases

namespace En7512.Net

open En7512.Logic

/-! ## The driver -/

/-- `TX0_DSCP_NUM`. -/
def tx0DscpNum : ℕ := 4

/-- The part of a `QDMA_DMA_DSCP_T` that the transmit path uses. -/
structure TxDscp where
  done : Bool
  pktLen : ℕ
  pktAddr : BitVec 32
  nextIdx : ℕ
  fport : ℕ

/-- The transmit half of the descriptors, the pointers to their packets, the producer's
register, and the packets given to `dev_kfree_skb`. -/
structure EthTx (σ : Type) where
  dscp : ℕ → TxDscp
  /-- `dscp_sk_buff_p_ary`. -/
  skBuffP : ℕ → Option σ
  /-- `QDMA_CSR_TX_CPU_IDX`. -/
  txCpuIdx : ℕ
  freed : List σ
  txDropped : ℕ

/-- A call of `mtk_start_xmit`, with what the kernel and the hardware answer during it. -/
structure Xmit (σ : Type) where
  skb : σ
  /-- `skb->len`. -/
  len : ℕ
  /-- `skb_headlen`. -/
  headlen : ℕ
  /-- `MTK_RESETTING` is set. -/
  resetting : Bool
  /-- `GLB_CFG_TX_DMA_BUSY` reads set. -/
  busy : Bool
  /-- What `dma_map_single` returns. -/
  phys : BitVec 32

variable {σ : Type}

/-- `skb_headlen` after the packet has been padded to 60 bytes. -/
def Xmit.padded (call : Xmit σ) : ℕ := call.headlen + (60 - call.len)

namespace EthTx

/-- `qdma_initialize_tx_ring` on zeroed descriptors, and `TX_CPU_IDX` at its beginning. -/
def initial : EthTx σ where
  dscp i := ⟨false, 0, 0, if i < tx0DscpNum - 1 then i + 1 else 0, 0⟩
  skBuffP _ := none
  txCpuIdx := 0
  freed := []
  txDropped := 0

/-- Change one descriptor. -/
def setDscp (i : ℕ) (d : TxDscp) (s : EthTx σ) : EthTx σ :=
  { s with dscp := Function.update s.dscp i d }

/-- `tx0_free_skb`. The address is mapped once more, which has no effect here. -/
def tx0FreeSkb (idx : ℕ) (s : EthTx σ) : EthTx σ :=
  { s with
    skBuffP := Function.update s.skBuffP idx none
    freed := s.freed ++ (s.skBuffP idx).toList }

/-- A round of the loop of `tx0_free_some`, for the descriptor after the one at `at`. -/
def freeRound (place : ℕ) (s : EthTx σ) : ℕ × EthTx σ :=
  let idx := (s.dscp place).nextIdx
  let s :=
    if (s.dscp idx).pktAddr ≠ 0#32 then
      (s.tx0FreeSkb idx).setDscp idx { s.dscp idx with pktAddr := 0#32 }
    else s
  (idx, s.setDscp idx { s.dscp idx with done := false, pktLen := 0 })

/-- `tx0_free_some`, from the descriptor at `place`. -/
def tx0FreeSome (place : ℕ) (s : EthTx σ) : EthTx σ :=
  let (place, s) := s.freeRound place
  (s.freeRound place).2

/-- `tx0_dscp_pkt_addr`. -/
def tx0DscpPktAddr (call : Xmit σ) (idx : ℕ) (s : EthTx σ) : BitVec 32 × EthTx σ :=
  if call.phys = 0#32 then (0#32, s)
  else (call.phys, { s with skBuffP := Function.update s.skBuffP idx (some call.skb) })

/-- `mtk_tx_map` up to the place where the packet is mapped, if it gets there: the descriptor
it is mapped into. -/
def mapSkb (call : Xmit σ) (s : EthTx σ) : Option ℕ × EthTx σ :=
  if call.busy then (none, s)
  else
    let idx := s.txCpuIdx % tx0DscpNum
    let s := s.setDscp idx { s.dscp idx with fport := 1 }
    let (addr, s) := s.tx0DscpPktAddr call idx
    let s := s.setDscp idx { s.dscp idx with pktAddr := addr }
    if addr = 0#32 then (none, s)
    else (some idx, s.setDscp idx { s.dscp idx with pktLen := call.padded % 2 ^ 16 })

/-- `mtk_tx_map` writes `TX_CPU_IDX`. -/
def kick (idx : ℕ) (s : EthTx σ) : EthTx σ := { s with txCpuIdx := (s.dscp idx).nextIdx }

/-- `mtk_tx_map`. -/
def mtkTxMap (call : Xmit σ) (s : EthTx σ) : ℤ × EthTx σ :=
  match s.mapSkb call with
  | (none, s) => (-1, s)
  | (some idx, s) => (0, (s.tx0FreeSome idx).kick idx)

/-- The label `drop` of `mtk_start_xmit`. -/
def drop (call : Xmit σ) (s : EthTx σ) : EthTx σ :=
  { s with txDropped := s.txDropped + 1, freed := s.freed ++ [call.skb] }

/-- `mtk_start_xmit`. -/
def mtkStartXmit (call : Xmit σ) (s : EthTx σ) : EthTx σ :=
  if call.resetting then s.drop call
  else
    match s.mtkTxMap call with
    | (ret, s) => if ret < 0 then s.drop call else s

/-- The packets in the slots. -/
def held (s : EthTx σ) : List σ := (List.range tx0DscpNum).flatMap fun i => (s.skBuffP i).toList

/-! ## The links and the addresses -/

/-- Empty a slot and clear its descriptor. -/
def release (idx : ℕ) (s : EthTx σ) : EthTx σ :=
  (s.tx0FreeSkb idx).setDscp idx
    { s.dscp idx with done := false, pktLen := 0, pktAddr := 0#32 }

/-- The state after a packet has been mapped into a slot. -/
def hook (call : Xmit σ) (idx : ℕ) (s : EthTx σ) : EthTx σ :=
  { s with
    dscp := Function.update s.dscp idx
      { s.dscp idx with pktAddr := call.phys, pktLen := call.padded % 2 ^ 16, fport := 1 }
    skBuffP := Function.update s.skBuffP idx (some call.skb) }

/-- The descriptors are linked into a ring, and an address is there when a packet is. -/
structure Linked (s : EthTx σ) : Prop where
  links : ∀ i < tx0DscpNum, (s.dscp i).nextIdx = (i + 1) % tx0DscpNum
  addr : ∀ i < tx0DscpNum, (s.dscp i).pktAddr ≠ 0#32 ↔ (s.skBuffP i).isSome

section Linked

variable {s : EthTx σ} {i idx place : ℕ} {call : Xmit σ}

theorem Linked.setDscp (h : s.Linked) {d : TxDscp} (link : d.nextIdx = (s.dscp idx).nextIdx)
    (addr : d.pktAddr ≠ 0#32 ↔ (s.skBuffP idx).isSome) : (s.setDscp idx d).Linked where
  links i hi := by
    by_cases here : i = idx
    · rw [here] at hi ⊢
      simp only [EthTx.setDscp, Function.update_self, link, h.links idx hi]
    · simp only [EthTx.setDscp, Function.update_of_ne here, h.links i hi]
  addr i hi := by
    by_cases here : i = idx
    · rw [here]
      simpa only [EthTx.setDscp, Function.update_self] using addr
    · simpa only [EthTx.setDscp, Function.update_of_ne here] using h.addr i hi

theorem Linked.release (h : s.Linked) (idx : ℕ) : (s.release idx).Linked where
  links i hi := by
    by_cases here : i = idx
    · rw [here] at hi ⊢
      simp only [EthTx.release, EthTx.setDscp, Function.update_self, h.links idx hi]
    · simpa only [EthTx.release, EthTx.setDscp, tx0FreeSkb, Function.update_of_ne here]
        using h.links i hi
  addr i hi := by
    by_cases here : i = idx
    · simp [EthTx.release, EthTx.setDscp, tx0FreeSkb, here]
    · simpa only [EthTx.release, EthTx.setDscp, tx0FreeSkb, Function.update_of_ne here]
        using h.addr i hi

theorem Linked.hook (h : s.Linked) (phys : call.phys ≠ 0#32) : (s.hook call idx).Linked where
  links i hi := by
    by_cases here : i = idx
    · rw [here] at hi ⊢
      simp only [EthTx.hook, Function.update_self, h.links idx hi]
    · simpa only [EthTx.hook, Function.update_of_ne here] using h.links i hi
  addr i hi := by
    by_cases here : i = idx
    · simp only [EthTx.hook, here, Function.update_self, Option.isSome_some, iff_true]
      exact phys
    · simpa only [EthTx.hook, Function.update_of_ne here] using h.addr i hi

/-- A round of `tx0_free_some` empties the next slot, whether it holds a packet or not. -/
theorem Linked.freeRound (h : s.Linked) (hp : place < tx0DscpNum) :
    s.freeRound place =
      ((place + 1) % tx0DscpNum, s.release ((place + 1) % tx0DscpNum)) := by
  have addr := h.addr ((place + 1) % tx0DscpNum) (Nat.mod_lt _ (by decide))
  rw [EthTx.freeRound, h.links place hp]
  generalize (place + 1) % tx0DscpNum = idx at addr ⊢
  by_cases used : (s.dscp idx).pktAddr ≠ 0#32
  · simp only [if_pos used, EthTx.release, EthTx.setDscp, tx0FreeSkb, Function.update_self,
      Function.update_idem]
  · have unused : s.skBuffP idx = none := by simpa using mt addr.mpr used
    have zero : (s.dscp idx).pktAddr = 0#32 := not_not.mp used
    have same : Function.update s.skBuffP idx none = s.skBuffP := by
      rw [← unused, Function.update_eq_self]
    have blank : { s.dscp idx with done := false, pktLen := 0 } =
        { s.dscp idx with done := false, pktLen := 0, pktAddr := 0#32 } := by rw [← zero]
    simp only [if_neg used, EthTx.release, EthTx.setDscp, tx0FreeSkb, unused, same, blank,
      Option.toList_none, List.append_nil]

/-- `tx0_free_some` empties the two slots ahead. -/
theorem Linked.tx0FreeSome (h : s.Linked) (hp : place < tx0DscpNum) :
    s.tx0FreeSome place = (s.release ((place + 1) % tx0DscpNum)).release
      ((place + 2) % tx0DscpNum) := by
  have inRing : (place + 1) % tx0DscpNum < tx0DscpNum := Nat.mod_lt _ (by decide)
  have next := (h.release ((place + 1) % tx0DscpNum)).freeRound inRing
  rw [EthTx.tx0FreeSome, h.freeRound hp]
  show (EthTx.freeRound _ _).2 = _
  rw [next, Nat.mod_add_mod]

/-- A packet that is not mapped leaves everything but its descriptor's tag as it was. -/
theorem mapSkb_none {s' : EthTx σ} (fails : s.mapSkb call = (none, s')) :
    s' = s ∨ s' = s.setDscp (s.txCpuIdx % tx0DscpNum)
      { s.dscp (s.txCpuIdx % tx0DscpNum) with pktAddr := 0#32, fport := 1 } := by
  rw [mapSkb] at fails
  by_cases busy : call.busy
  · rw [if_pos busy] at fails
    cases fails
    exact .inl rfl
  · by_cases phys : call.phys = 0#32
    · simp only [if_neg busy, tx0DscpPktAddr, if_pos phys, if_true, EthTx.setDscp,
        Function.update_self, Function.update_idem] at fails
      cases fails
      exact .inr rfl
    · simp only [if_neg busy, tx0DscpPktAddr, if_neg phys] at fails
      cases fails

/-- A packet that is mapped goes into the producer's slot. -/
theorem mapSkb_some {s' : EthTx σ} (maps : s.mapSkb call = (some idx, s')) :
    idx = s.txCpuIdx % tx0DscpNum ∧ call.phys ≠ 0#32 ∧ s' = s.hook call idx := by
  rw [mapSkb] at maps
  by_cases busy : call.busy
  · rw [if_pos busy] at maps
    cases maps
  · by_cases phys : call.phys = 0#32
    · simp only [if_neg busy, tx0DscpPktAddr, if_pos phys, if_true] at maps
      cases maps
    · simp only [if_neg busy, tx0DscpPktAddr, if_neg phys, EthTx.setDscp, Function.update_self,
        Function.update_idem] at maps
      cases maps
      exact ⟨rfl, phys, rfl⟩

end Linked

/-! ## One call -/

/-- What holds between calls, when the packets in `passed` have been passed in. -/
structure Owned (s : EthTx σ) (passed : List σ) : Prop extends s.Linked where
  inRing : s.txCpuIdx < tx0DscpNum
  /-- The producer's slot is empty. -/
  free : s.skBuffP s.txCpuIdx = none
  /-- So is the one after it. -/
  freeNext : s.skBuffP ((s.txCpuIdx + 1) % tx0DscpNum) = none
  account : passed.Perm (s.freed ++ s.held)

section Calls

variable {s : EthTx σ} {passed : List σ} {call : Xmit σ}

theorem Owned.initial : (EthTx.initial : EthTx σ).Owned [] where
  links i hi := by
    have four : i < 4 := hi
    interval_cases i <;> rfl
  addr := by simp [EthTx.initial]
  inRing := Nat.zero_lt_succ _
  free := rfl
  freeNext := rfl
  account := List.Perm.nil

/-- A packet that is dropped is freed. -/
theorem Owned.drop (h : s.Owned passed) (call : Xmit σ) :
    (s.drop call).Owned (passed ++ [call.skb]) where
  links := h.links
  addr := h.addr
  inRing := h.inRing
  free := h.free
  freeNext := h.freeNext
  account := by
    have more := h.account.append_right [call.skb]
    apply more.trans
    show (s.freed ++ s.held ++ [call.skb]).Perm (s.freed ++ [call.skb] ++ s.held)
    rw [List.append_assoc, List.append_assoc]
    exact List.perm_append_comm.append_left _

/-- A packet that is not mapped. -/
theorem Owned.mapSkb_none (h : s.Owned passed) {s' : EthTx σ}
    (fails : s.mapSkb call = (none, s')) : s'.Owned passed := by
  obtain rfl | rfl := EthTx.mapSkb_none fails
  · exact h
  · have here : s.txCpuIdx % tx0DscpNum = s.txCpuIdx := Nat.mod_eq_of_lt h.inRing
    rw [here]
    have linked : (s.setDscp s.txCpuIdx
        { s.dscp s.txCpuIdx with pktAddr := 0#32, fport := 1 }).Linked :=
      h.toLinked.setDscp rfl (by simp [h.free])
    exact ⟨linked, h.inRing, h.free, h.freeNext, h.account⟩

/-- The packets in the slots after a call: the one passed in has come, and the one in the
second slot ahead has gone. -/
theorem held_perm (f : ℕ → Option σ) (a : σ) {c : ℕ} (hc : c < tx0DscpNum) (free : f c = none)
    (freeNext : f ((c + 1) % tx0DscpNum) = none) :
    ((List.range tx0DscpNum).flatMap (fun i => (f i).toList) ++ [a]).Perm
      ((f ((c + 2) % tx0DscpNum)).toList ++ (List.range tx0DscpNum).flatMap fun i =>
        (Function.update (Function.update (Function.update f c (some a))
          ((c + 1) % tx0DscpNum) none) ((c + 2) % tx0DscpNum) none i).toList) := by
  classical
  apply List.perm_iff_count.mpr
  intro b
  simp only [tx0DscpNum] at hc free freeNext ⊢
  interval_cases c
  all_goals
    simp only [Nat.reduceAdd, Nat.reduceMod] at free freeNext
    simp only [List.range_succ, List.range_zero, List.nil_append, List.flatMap_append,
      List.flatMap_cons, List.flatMap_nil, List.append_nil, List.count_append, Function.update]
    simp [free, freeNext]
    omega

/-- A packet that is mapped. -/
theorem Owned.transmit (h : s.Owned passed) (phys : call.phys ≠ 0#32) :
    (((s.hook call s.txCpuIdx).tx0FreeSome s.txCpuIdx).kick s.txCpuIdx).Owned
      (passed ++ [call.skb]) := by
  have hooked : (s.hook call s.txCpuIdx).Linked := h.toLinked.hook phys
  have linked := (hooked.release ((s.txCpuIdx + 1) % tx0DscpNum)).release
    ((s.txCpuIdx + 2) % tx0DscpNum)
  have next : (s.txCpuIdx + 1) % tx0DscpNum ≠ s.txCpuIdx := by
    have inRing := h.inRing
    simp only [tx0DscpNum] at inRing ⊢
    omega
  have second : (s.txCpuIdx + 2) % tx0DscpNum ≠ s.txCpuIdx := by
    have inRing := h.inRing
    simp only [tx0DscpNum] at inRing ⊢
    omega
  have apart : (s.txCpuIdx + 2) % tx0DscpNum ≠ (s.txCpuIdx + 1) % tx0DscpNum := by
    simp only [tx0DscpNum]
    omega
  have moved := linked.links s.txCpuIdx h.inRing
  rw [hooked.tx0FreeSome h.inRing]
  refine ⟨⟨linked.links, linked.addr⟩, ?_, ?_, ?_, ?_⟩
  · rw [kick, moved]
    exact Nat.mod_lt _ (by decide)
  · rw [kick, moved]
    simp [release, setDscp, tx0FreeSkb, apart.symm]
  · rw [kick, moved, Nat.mod_add_mod]
    simp [release, setDscp, tx0FreeSkb]
  · have slots := held_perm s.skBuffP call.skb h.inRing h.free h.freeNext
    have freed : ((((s.hook call s.txCpuIdx).release ((s.txCpuIdx + 1) % tx0DscpNum)).release
        ((s.txCpuIdx + 2) % tx0DscpNum)).kick s.txCpuIdx).freed =
        s.freed ++ (s.skBuffP ((s.txCpuIdx + 2) % tx0DscpNum)).toList := by
      simp [kick, release, setDscp, tx0FreeSkb, hook, next, second, apart, h.freeNext]
    rw [freed, List.append_assoc]
    apply (h.account.append_right [call.skb]).trans
    rw [List.append_assoc]
    exact slots.append_left _

/-- What a call of `mtk_start_xmit` can do: drop the packet, before or after it has tried to
map it, or send it. -/
theorem mtkStartXmit_cases (inRing : s.txCpuIdx < tx0DscpNum) (call : Xmit σ) :
    (∃ s', s.mtkStartXmit call = s'.drop call ∧ (s' = s ∨ s.mapSkb call = (none, s'))) ∨
      call.phys ≠ 0#32 ∧ s.mtkStartXmit call =
        ((s.hook call s.txCpuIdx).tx0FreeSome s.txCpuIdx).kick s.txCpuIdx := by
  rw [EthTx.mtkStartXmit]
  by_cases resetting : call.resetting
  · rw [if_pos resetting]
    exact .inl ⟨s, rfl, .inl rfl⟩
  · rw [if_neg resetting, mtkTxMap]
    cases maps : s.mapSkb call with
    | mk place s' =>
        cases place with
        | none => exact .inl ⟨s', rfl, .inr rfl⟩
        | some idx =>
            obtain ⟨rfl, phys, rfl⟩ := mapSkb_some maps
            right
            rw [Nat.mod_eq_of_lt inRing]
            exact ⟨phys, rfl⟩

/-- One call of `mtk_start_xmit`. -/
theorem Owned.mtkStartXmit (h : s.Owned passed) (call : Xmit σ) :
    (s.mtkStartXmit call).Owned (passed ++ [call.skb]) := by
  obtain ⟨s', result, rfl | fails⟩ | ⟨phys, result⟩ := mtkStartXmit_cases h.inRing call
  · rw [result]
    exact h.drop call
  · rw [result]
    exact (h.mapSkb_none fails).drop call
  · rw [result]
    exact h.transmit phys

theorem slot_release {i : ℕ} {skb : σ} (kept : s.skBuffP i = some skb ∨ s.skBuffP i = none)
    (idx : ℕ) :
    (s.release idx).skBuffP i = some skb ∨ (s.release idx).skBuffP i = none := by
  by_cases here : i = idx
  · right
    simp [release, setDscp, tx0FreeSkb, here]
  · simpa [release, setDscp, tx0FreeSkb, here] using kept

/-- A call leaves the packets in the slots alone, or takes them out. -/
theorem Owned.slot_kept (h : s.Owned passed) (call : Xmit σ) {i : ℕ} {skb : σ}
    (holds : s.skBuffP i = some skb) :
    (s.mtkStartXmit call).skBuffP i = some skb ∨ (s.mtkStartXmit call).skBuffP i = none := by
  obtain ⟨s', result, rfl | fails⟩ | ⟨phys, result⟩ := mtkStartXmit_cases h.inRing call
  · rw [result]
    exact .inl holds
  · rw [result]
    obtain rfl | rfl := EthTx.mapSkb_none fails
    · exact .inl holds
    · exact .inl holds
  · rw [result, (h.toLinked.hook phys).tx0FreeSome h.inRing]
    have other : i ≠ s.txCpuIdx := by
      rintro rfl
      rw [h.free] at holds
      cases holds
    apply slot_release
    apply slot_release
    exact .inl ((Function.update_of_ne other _ _).trans holds)

/-- At most two slots hold packets between calls. -/
theorem Owned.held_length (h : s.Owned passed) : s.held.length ≤ tx0DscpNum - 2 := by
  obtain ⟨-, inRing, free, freeNext, -⟩ := h
  have small (i : ℕ) : (s.skBuffP i).toList.length ≤ 1 := by
    cases s.skBuffP i <;> simp
  have first := small 0
  have second := small 1
  have third := small 2
  have fourth := small 3
  generalize s.txCpuIdx = c at inRing free freeNext
  simp only [tx0DscpNum] at inRing freeNext ⊢
  simp only [held, tx0DscpNum, List.range_succ, List.range_zero, List.nil_append,
    List.flatMap_append, List.flatMap_cons, List.flatMap_nil, List.append_nil, List.length_append]
  interval_cases c
  all_goals
    simp only [Nat.reduceAdd, Nat.reduceMod] at free freeNext
    simp only [free, freeNext, Option.toList_none, List.length_nil] at *
    omega

/-- Every sequence of calls. -/
theorem Owned.run (calls : List (Xmit σ)) :
    (runInputs EthTx.mtkStartXmit EthTx.initial calls).Owned (calls.map Xmit.skb) := by
  induction calls using List.reverseRecOn with
  | nil => exact Owned.initial
  | append_singleton calls call ih =>
      rw [runInputs_append, List.map_append]
      exact ih.mtkStartXmit call

end Calls

/-- Whatever the calls of `mtk_start_xmit` and the hardware do, the packets passed in are the
ones that have been freed and the ones in the slots, each as often as it was passed in. If
they were different packets, each has been freed once and is in no slot, or is in one slot
and has not been freed. A slot has an address when it holds a packet, and keeps the packet
until it is taken out; at most `TX0_DSCP_NUM - 2` are in the slots. -/
theorem mtkStartXmit_owners (calls : List (Xmit σ)) :
    let s := runInputs mtkStartXmit initial calls
    (calls.map Xmit.skb).Perm (s.freed ++ s.held) ∧
      ((calls.map Xmit.skb).Nodup → s.freed.Nodup ∧ ∀ skb ∈ calls.map Xmit.skb,
        (skb ∈ s.freed ∧ ∀ i < tx0DscpNum, s.skBuffP i ≠ some skb) ∨
        (skb ∉ s.freed ∧ ∃! i, i < tx0DscpNum ∧ s.skBuffP i = some skb)) ∧
      (∀ i < tx0DscpNum, (s.dscp i).pktAddr ≠ 0#32 ↔ (s.skBuffP i).isSome) ∧
      s.held.length ≤ tx0DscpNum - 2 ∧
      ∀ call i skb, s.skBuffP i = some skb →
        (s.mtkStartXmit call).skBuffP i = some skb ∨ (s.mtkStartXmit call).skBuffP i = none := by
  intro s
  have owned : s.Owned (calls.map Xmit.skb) := Owned.run calls
  refine ⟨owned.account, fun different => ?_, owned.addr, owned.held_length,
    fun call i skb => owned.slot_kept call⟩
  have apart := owned.account.nodup different
  rw [List.nodup_append'] at apart
  refine ⟨apart.1, fun skb passed => ?_⟩
  have inSlot (i : ℕ) (hi : i < tx0DscpNum) (here : s.skBuffP i = some skb) : skb ∈ s.held :=
    List.mem_flatMap.mpr ⟨i, List.mem_range.mpr hi, by simp [here]⟩
  obtain freed | held := List.mem_append.mp (owned.account.mem_iff.mp passed)
  · left
    exact ⟨freed, fun i hi here => apart.2.2 freed (inSlot i hi here)⟩
  · right
    obtain ⟨i, hi, here⟩ := List.mem_flatMap.mp held
    rw [Option.mem_toList] at here
    refine ⟨fun freed => apart.2.2 freed held, i, ⟨List.mem_range.mp hi, here⟩, ?_⟩
    rintro j ⟨hj, there⟩
    by_contra other
    have symm : Std.Symm (Function.onFun List.Disjoint fun i => (s.skBuffP i).toList) :=
      ⟨fun a b h => List.disjoint_symm h⟩
    have disjoint := (List.nodup_flatMap.mp apart.2.1).2.forall hi (List.mem_range.mpr hj)
      (Ne.symm other)
    exact disjoint (Option.mem_toList.mpr here) (Option.mem_toList.mpr there)

end EthTx

end En7512.Net
