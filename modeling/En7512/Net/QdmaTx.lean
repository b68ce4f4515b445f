/-
# The descriptors of the QDMA transmit ring

The nodes of unused descriptors are linked into a queue. One node more, at `txUsingPtr`, is
held back: a packet goes into its descriptor, and the node at the front of the queue takes
its place. The engine reports the descriptors it is done with in a queue of its own, in any
order; `qdma_bm_transmit_done` takes the entries of that queue, frees the packets and puts
the nodes back. That a node is out of the queue is seen from its pointer `next`, which is
NULL in the last node of the queue as well.
-/

import En7512.Logic.LinkedQueue
import En7512.Net.GmacTx

namespace En7512.Net

open En7512.Logic

variable {σ : Type}

/-! ## The driver -/

/-- A `QDMA_DMA_DSCP_T`. -/
structure QdmaDscp where
  done : Bool
  pktLen : BitVec 16
  pktAddr : BitVec 32
  nextIdx : BitVec 12
  msg0 : BitVec 32
  msg1 : BitVec 32

/-- A `QDMA_DscpInfo_S` of the transmit ring, with its descriptor. Pointers to such nodes are
indexes in the array of the nodes. -/
structure DscpInfo (σ : Type) where
  dscp : QdmaDscp
  dscpIdx : ℕ
  skb : Option σ
  next : Option ℕ

/-- The nodes, the pointers to them, and what has been done with packets so far. -/
structure TxPool (σ : Type) where
  info : ℕ → DscpInfo σ
  txHeadPtr : Option ℕ
  txTailPtr : Option ℕ
  txUsingPtr : ℕ
  /-- The packets put into descriptors and given to the engine, in order. -/
  hooked : List (ℕ × σ)
  /-- The packets given to `free_skb`, with the descriptors they were in, in order. -/
  freed : List (ℕ × σ)

/-- `CONFIG_IRQ_DEPTH`. -/
def irqDepth : ℕ := 32

/-- The index in an entry of the IRQ queue. -/
def irqIdx (irqValue : BitVec 32) : ℕ := (irqValue &&& 0xfff#32).toNat

/-- The transmit half of `QDMA_Private_T` and the IRQ queue. -/
structure QdmaTx (σ : Type) where
  pool : TxPool σ
  /-- The memory of the queue. -/
  irqQueue : ℕ → BitVec 32
  /-- The entries taken from the queue, in order. -/
  irqTaken : List (BitVec 32)
  /-- What has been written to the register `QDMA_CSR_IRQ_CLEAR_LEN`. -/
  irqCleared : List ℕ

/-- What a call of the driver gets from the engine. -/
structure IrqInput where
  /-- `QDMA_CSR_IRQ_STATUS`. -/
  status : BitVec 32
  /-- The memory of the queue when the entry of this number is read, with so many tries left,
  if it was as given before. -/
  dma : ℕ → ℕ → (ℕ → BitVec 32) → ℕ → BitVec 32

/-- `headIdx` in `QDMA_CSR_IRQ_STATUS`. -/
def irqHeadIdx (status : BitVec 32) : ℕ := (status &&& 0xfff#32).toNat

/-- `entryLen` in `QDMA_CSR_IRQ_STATUS`. -/
def irqEntryLen (status : BitVec 32) : ℕ := (status >>> 16 &&& 0xfff#32).toNat

namespace TxPool

/-- The pointer `next` of a node. -/
def next (p : TxPool σ) (i : ℕ) : Option ℕ := (p.info i).next

/-- The pool with one node changed. -/
def setInfo (i : ℕ) (d : DscpInfo σ) (p : TxPool σ) : TxPool σ :=
  { p with info := Function.update p.info i d }

/-- `qdma_bm_push_tx_dscp`. Its callers do not look at what it returns. -/
def pushTxDscp (i : ℕ) (p : TxPool σ) : TxPool σ :=
  if p.next i ≠ none then p
  else
    let p := p.setInfo i { p.info i with skb := none }
    match p.txHeadPtr, p.txTailPtr with
    | none, _ => { p with txHeadPtr := some i, txTailPtr := some i }
    | some _, some tail =>
        { p.setInfo tail { p.info tail with next := some i } with txTailPtr := some i }
    -- There is no head without a tail.
    | some _, none => p

/-- `qdma_bm_pop_tx_dscp`. -/
def popTxDscp (p : TxPool σ) : Option ℕ × TxPool σ :=
  match p.txHeadPtr with
  | none => (none, p)
  | some i =>
      let p' := p.setInfo i { p.info i with next := none }
      if p.txHeadPtr = p.txTailPtr then
        (some i, { p' with txHeadPtr := none, txTailPtr := none })
      else (some i, { p' with txHeadPtr := p.next i })

/-- `free_skb(diPtr->skb)`. -/
def freeSkb (i : ℕ) (p : TxPool σ) : TxPool σ :=
  { p with freed := p.freed ++ (p.info i).skb.toList.map fun x => (i, x) }

/-- The nodes as `qdma_bm_dscp_init` finds them. -/
def zeroed : TxPool σ where
  info _ := ⟨⟨false, 0, 0, 0, 0, 0⟩, 0, none, none⟩
  txHeadPtr := none
  txTailPtr := none
  txUsingPtr := 0
  hooked := []
  freed := []

/-- The loop of `qdma_bm_dscp_init` over the transmit ring. -/
def initNode (p : TxPool σ) (i : ℕ) : TxPool σ :=
  (p.setInfo i { p.info i with dscpIdx := i, next := none }).pushTxDscp i

/-- What `qdma_bm_dscp_init` does for a transmit ring of `n` descriptors. -/
def dscpInit (n : ℕ) : Option (TxPool σ) :=
  match ((List.range n).foldl initNode zeroed).popTxDscp with
  | (none, _) => none
  | (some i, p) => some { p with txUsingPtr := i }

/-- The end of `qdma_bm_transmit_packet`: the packet goes into the descriptor that was held
back, and the node `i` is held back in its place. -/
def hook (pkt : MacPacket σ) (msg0 msg1 : BitVec 32) (i : ℕ) (p : TxPool σ) : TxPool σ :=
  let d := p.info p.txUsingPtr
  { p.setInfo p.txUsingPtr { d with
      dscp := {
        done := false
        pktLen := pkt.len.setWidth 16
        pktAddr := k1ToPhy pkt.data
        nextIdx := BitVec.ofNat 12 (p.info i).dscpIdx
        msg0 := msg0
        msg1 := msg1 }
      skb := some pkt.skb } with
    txUsingPtr := i
    hooked := p.hooked ++ [(p.txUsingPtr, pkt.skb)] }

end TxPool

namespace QdmaTx

/-- `CONFIG_IRQ_DEF_VALUE`. -/
def irqDefValue : BitVec 32 := 0xffffffff#32

/-- The tries to read one entry of the IRQ queue, of which there are `RETRY` left. -/
def readIrq (dma : ℕ → (ℕ → BitVec 32) → ℕ → BitVec 32) (irqPtr : ℕ) :
    ℕ → QdmaTx σ → Option (BitVec 32) × QdmaTx σ
  | 0, s => (none, s)
  | retry + 1, s =>
      let s := { s with irqQueue := dma retry s.irqQueue }
      let irqValue := s.irqQueue irqPtr
      if irqValue = irqDefValue then readIrq dma irqPtr retry s
      else
        (some irqValue, { s with
          irqQueue := Function.update s.irqQueue irqPtr irqDefValue
          irqTaken := s.irqTaken ++ [irqValue] })

/-- What `qdma_bm_transmit_done` does with an entry: an error, or the packet is freed and the
node goes back. -/
def reclaim (n : ℕ) (irqValue : BitVec 32) (s : QdmaTx σ) : Option (QdmaTx σ) :=
  let idx := irqIdx irqValue
  if n ≤ idx then none
  else if (s.pool.info idx).dscpIdx ≠ idx ∨ s.pool.next idx ≠ none then none
  else some { s with pool := (s.pool.freeSkb idx).pushTxDscp idx }

/-- The loop of `qdma_bm_transmit_done`, with `left` rounds to go: the variables `i` and
`ret`. -/
def transmitDoneLoop (n headIdx : ℕ) (dma : ℕ → ℕ → (ℕ → BitVec 32) → ℕ → BitVec 32) :
    ℕ → ℕ → ℤ → QdmaTx σ → ℕ × ℤ × QdmaTx σ
  | 0, i, ret, s => (i, ret, s)
  | left + 1, i, ret, s =>
      match s.readIrq (dma i) ((headIdx + i) % irqDepth) 3 with
      | (none, s) => (i, -1, s)
      | (some irqValue, s) =>
          match s.reclaim n irqValue with
          | none => transmitDoneLoop n headIdx dma left (i + 1) (-1) s
          | some s => transmitDoneLoop n headIdx dma left (i + 1) ret s

/-- At `out1` in `qdma_bm_transmit_done`. -/
def clearIrq (i : ℕ) (s : QdmaTx σ) : QdmaTx σ :=
  { s with irqCleared := s.irqCleared ++ List.replicate (i >>> 7) 0x80 ++ [i &&& 0x7f] }

/-- `qdma_bm_transmit_done`, for a ring of `n` descriptors. -/
def transmitDone (n : ℕ) (amount : BitVec 32) (irq : IrqInput) (s : QdmaTx σ) : ℤ × QdmaTx σ :=
  let entryLen := irqEntryLen irq.status
  if entryLen = 0 then (0, s)
  else
    let entryLen := if amount.toNat ≠ 0 ∧ amount.toNat < entryLen then amount.toNat else entryLen
    match s.transmitDoneLoop n (irqHeadIdx irq.status) irq.dma entryLen 0 0 with
    | (i, ret, s) => (ret, s.clearIrq i)

/-- The recycling in `qdma_bm_transmit_packet`, which reads `status` first. -/
def recycle (n : ℕ) (status : BitVec 32) (irq : IrqInput) (s : QdmaTx σ) : QdmaTx σ :=
  if irqEntryLen status ≥ 4 then (s.transmitDone n 0#32 irq).2 else s

/-- The packet is one that `qdma_bm_transmit_packet` does not take. -/
def Invalid (pkt : Option (MacPacket σ)) : Prop :=
  ∀ p, pkt = some p → p.len = 0#32 ∨ p.len.toNat > 2048

/-- `qdma_bm_transmit_packet`, for a ring of `n` descriptors. Without a buffer (`none`) it
returns -1 after a message that reads `skb->len`; its only caller, `tc3162_eth_send`, has read
that field before and so never calls it like that. -/
def transmitPacket (n : ℕ) (pkt : Option (MacPacket σ)) (msg0 msg1 status : BitVec 32)
    (irq : IrqInput) (s : QdmaTx σ) : ℤ × QdmaTx σ :=
  match pkt with
  | none => (-1, s)
  | some pkt =>
      if pkt.len = 0#32 ∨ pkt.len.toNat > 2048 then (-1, s)
      else
        let s := s.recycle n status irq
        match s.pool.popTxDscp with
        | (none, pool) => (-1, { s with pool := pool })
        | (some i, pool) => (0, { s with pool := pool.hook pkt msg0 msg1 i })

end QdmaTx

/-! ## The pool of descriptors -/

namespace TxPool

/-- The entries of a log that are about one descriptor. -/
def about (i : ℕ) (log : List (ℕ × σ)) : List (ℕ × σ) := log.filter fun e => e.1 = i

/-- The nodes in `free` are linked into the queue, and the rest of the `n` nodes, apart from
the one held back, have a packet that has been given to the engine and not been freed. -/
structure Pool (n : ℕ) (free : List ℕ) (p : TxPool σ) : Prop where
  queue : LinkedQueue p.next p.txHeadPtr p.txTailPtr free
  inside : ∀ i ∈ free, i < n
  using_lt : p.txUsingPtr < n
  using_not_mem : p.txUsingPtr ∉ free
  unlinked : ∀ i ∉ free, p.next i = none
  dscpIdx : ∀ i < n, (p.info i).dscpIdx = i
  back : ∀ i, i ∈ free ∨ i = p.txUsingPtr ∨ n ≤ i → about i p.hooked = about i p.freed
  out : ∀ i < n, i ∉ free → i ≠ p.txUsingPtr →
    ∃ x, (p.info i).skb = some x ∧ about i p.hooked = about i p.freed ++ [(i, x)]

section Pool

variable {n i j : ℕ} {free : List ℕ} {p : TxPool σ} {d : DscpInfo σ}

theorem next_setInfo : (p.setInfo i d).next = Function.update p.next i d.next := by
  funext j
  show (Function.update p.info i d j).next = _
  by_cases here : j = i
  · rw [here, Function.update_self, Function.update_self]
  · rw [Function.update_of_ne here, Function.update_of_ne here]
    rfl

theorem info_setInfo_of_ne (h : j ≠ i) : (p.setInfo i d).info j = p.info j :=
  Function.update_of_ne h ..

theorem info_setInfo_self : (p.setInfo i d).info i = d := Function.update_self ..

/-- A node comes into the empty queue. -/
theorem pushTxDscp_of_none (unlinked : p.next i = none) (empty : p.txHeadPtr = none) :
    p.pushTxDscp i =
      { p.setInfo i { p.info i with skb := none } with
        txHeadPtr := some i, txTailPtr := some i } := by
  rw [pushTxDscp, if_neg (not_not.mpr unlinked)]
  simp only [setInfo, empty]

/-- A node comes in behind the last one. -/
theorem pushTxDscp_of_some {first last : ℕ} (unlinked : p.next i = none)
    (head : p.txHeadPtr = some first) (tail : p.txTailPtr = some last) (other : last ≠ i) :
    p.pushTxDscp i =
      { (p.setInfo i { p.info i with skb := none }).setInfo last
          { p.info last with next := some i } with txTailPtr := some i } := by
  rw [pushTxDscp, if_neg (not_not.mpr unlinked)]
  simp only [setInfo, head, tail, Function.update_of_ne other]

/-- What `qdma_bm_push_tx_dscp` does with a node that is not in the queue. -/
theorem pushTxDscp_spec (queue : LinkedQueue p.next p.txHeadPtr p.txTailPtr free) (new : i ∉ free)
    (unlinked : p.next i = none) :
    LinkedQueue (p.pushTxDscp i).next (p.pushTxDscp i).txHeadPtr (p.pushTxDscp i).txTailPtr
        (free ++ [i]) ∧
      (∀ j ∉ free, (p.pushTxDscp i).next j = p.next j) ∧
      (∀ j, ((p.pushTxDscp i).info j).dscpIdx = (p.info j).dscpIdx) ∧
      (∀ j ≠ i, ((p.pushTxDscp i).info j).skb = (p.info j).skb) ∧
      (p.pushTxDscp i).txUsingPtr = p.txUsingPtr ∧ (p.pushTxDscp i).hooked = p.hooked ∧
      (p.pushTxDscp i).freed = p.freed := by
  have same : (p.setInfo i { p.info i with skb := none }).next = p.next := by
    rw [next_setInfo]
    exact Function.update_eq_self i p.next
  obtain rfl | ⟨before, last, rfl⟩ := List.eq_nil_or_concat' free
  · rw [pushTxDscp_of_none unlinked queue.head]
    refine ⟨?_, fun j _ => congrFun same j, fun j => ?_, fun j hj => ?_, rfl, rfl, rfl⟩
    · show LinkedQueue (p.setInfo i _).next (some i) (some i) [i]
      rw [same]
      exact .singleton unlinked
    · show ((p.setInfo i _).info j).dscpIdx = _
      by_cases here : j = i
      · rw [here, info_setInfo_self]
      · rw [info_setInfo_of_ne here]
    · show ((p.setInfo i _).info j).skb = _
      rw [info_setInfo_of_ne hj]
  · obtain ⟨first, head⟩ : ∃ first, p.txHeadPtr = some first := by
      apply Option.ne_none_iff_exists'.mp
      rw [Ne, queue.head_eq_none_iff]
      exact List.append_ne_nil_of_right_ne_nil _ nofun
    have tail : p.txTailPtr = some last := queue.tail.trans List.getLast?_concat
    have other : last ≠ i := by
      rintro rfl
      exact new (List.mem_append_right _ (List.mem_singleton_self _))
    rw [pushTxDscp_of_some unlinked head tail other]
    rw [tail] at queue
    have linked : ((p.setInfo i { p.info i with skb := none }).setInfo last
        { p.info last with next := some i }).next = Function.update p.next last (some i) := by
      rw [next_setInfo, same]
    refine ⟨?_, fun j hj => ?_, fun j => ?_, fun j hj => ?_, rfl, rfl, rfl⟩
    · show LinkedQueue (TxPool.next (setInfo last _ _)) _ (some i) _
      rw [linked]
      exact queue.enqueue new unlinked
    · show TxPool.next (setInfo last _ _) j = _
      rw [linked, Function.update_of_ne]
      rintro rfl
      exact hj (List.mem_append_right _ (List.mem_singleton_self _))
    · show ((setInfo last _ (p.setInfo i _)).info j).dscpIdx = _
      by_cases atLast : j = last
      · rw [atLast, info_setInfo_self]
      · rw [info_setInfo_of_ne atLast]
        by_cases here : j = i
        · rw [here, info_setInfo_self]
        · rw [info_setInfo_of_ne here]
    · show ((setInfo last _ (p.setInfo i _)).info j).skb = _
      by_cases atLast : j = last
      · rw [atLast, info_setInfo_self]
      · rw [info_setInfo_of_ne atLast, info_setInfo_of_ne hj]

/-- The only node leaves the queue. -/
theorem popTxDscp_of_eq (head : p.txHeadPtr = some i) (only : some i = p.txTailPtr) :
    p.popTxDscp = (some i, { p.setInfo i { p.info i with next := none } with
      txHeadPtr := none, txTailPtr := none }) := by
  simp only [popTxDscp, head, if_pos only]

/-- The first of several nodes leaves the queue. -/
theorem popTxDscp_of_ne (head : p.txHeadPtr = some i) (more : some i ≠ p.txTailPtr) :
    p.popTxDscp = (some i, { p.setInfo i { p.info i with next := none } with
      txHeadPtr := p.next i }) := by
  simp only [popTxDscp, head, if_neg more]

/-- What `qdma_bm_pop_tx_dscp` does when there is an unused descriptor. -/
theorem popTxDscp_cons (queue : LinkedQueue p.next p.txHeadPtr p.txTailPtr (i :: free)) :
    ∃ p', p.popTxDscp = (some i, p') ∧ LinkedQueue p'.next p'.txHeadPtr p'.txTailPtr free ∧
      p'.next = Function.update p.next i none ∧
      (∀ j, (p'.info j).dscpIdx = (p.info j).dscpIdx) ∧
      (∀ j, (p'.info j).skb = (p.info j).skb) ∧
      p'.txUsingPtr = p.txUsingPtr ∧ p'.hooked = p.hooked ∧ p'.freed = p.freed := by
  have head : p.txHeadPtr = some i := queue.head
  have linked : (p.setInfo i { p.info i with next := none }).next =
      Function.update p.next i none := next_setInfo
  have fields : ∀ j, ((p.setInfo i { p.info i with next := none }).info j).dscpIdx =
      (p.info j).dscpIdx ∧
      ((p.setInfo i { p.info i with next := none }).info j).skb = (p.info j).skb := fun j => by
    by_cases here : j = i
    · rw [here, info_setInfo_self]
      exact ⟨rfl, rfl⟩
    · rw [info_setInfo_of_ne here]
      exact ⟨rfl, rfl⟩
  rw [head] at queue
  cases free with
  | nil =>
      refine ⟨_, popTxDscp_of_eq head (queue.head_eq_tail_iff.mpr rfl), ?_, linked,
        fun j => (fields j).1, fun j => (fields j).2, rfl, rfl, rfl⟩
      exact .nil _
  | cons j rest =>
      have more : some i ≠ p.txTailPtr := fun same =>
        List.cons_ne_nil _ _ (queue.head_eq_tail_iff.mp same)
      refine ⟨_, popTxDscp_of_ne head more, ?_, linked, fun j => (fields j).1,
        fun j => (fields j).2, rfl, rfl, rfl⟩
      show LinkedQueue (TxPool.next (p.setInfo i _)) _ p.txTailPtr _
      rw [linked]
      exact queue.dequeue

/-- And when there is none. -/
theorem popTxDscp_nil (queue : LinkedQueue p.next p.txHeadPtr p.txTailPtr []) :
    p.popTxDscp = (none, p) := by
  have head : p.txHeadPtr = none := queue.head
  rw [popTxDscp, head]

theorem about_append_self (i : ℕ) (log : List (ℕ × σ)) (x : σ) :
    about i (log ++ [(i, x)]) = about i log ++ [(i, x)] := by
  simp [about]

theorem about_append_of_ne (h : j ≠ i) (log : List (ℕ × σ)) (x : σ) :
    about j (log ++ [(i, x)]) = about j log := by
  simp [about, h.symm]

/-- A packet is freed, and its node goes back. -/
theorem Pool.push (h : Pool n free p) (lt : i < n) (new : i ∉ free) (other : i ≠ p.txUsingPtr) :
    Pool n (free ++ [i]) ((p.freeSkb i).pushTxDscp i) ∧
      ((p.freeSkb i).pushTxDscp i).freed.map Prod.fst = p.freed.map Prod.fst ++ [i] ∧
      ((p.freeSkb i).pushTxDscp i).hooked = p.hooked := by
  obtain ⟨x, skb, sent⟩ := h.out i lt new other
  obtain ⟨queue, next, dscpIdx, skbs, using', hooked, freed⟩ :=
    pushTxDscp_spec (p := p.freeSkb i) h.queue new (h.unlinked i new)
  have freed : ((p.freeSkb i).pushTxDscp i).freed = p.freed ++ [(i, x)] := by
    rw [freed, freeSkb, skb]
    rfl
  refine ⟨⟨queue, ?_, ?_, ?_, ?_, ?_, ?_, ?_⟩, ?_, hooked⟩
  · intro j hj
    obtain old | rfl := List.mem_append.mp hj |>.imp_right List.mem_singleton.mp
    · exact h.inside j old
    · exact lt
  · rw [using']
    exact h.using_lt
  · rw [using']
    intro mem
    obtain old | same := List.mem_append.mp mem |>.imp_right List.mem_singleton.mp
    · exact h.using_not_mem old
    · exact other same.symm
  · intro j hj
    have old : j ∉ free := fun mem => hj (List.mem_append_left _ mem)
    rw [next j old]
    exact h.unlinked j old
  · intro j hj
    rw [dscpIdx]
    exact h.dscpIdx j hj
  · intro j hj
    rw [hooked, freed]
    by_cases here : j = i
    · rw [here, about_append_self]
      exact sent
    · rw [about_append_of_ne here]
      apply h.back j
      rw [using'] at hj
      obtain mem | rest := hj
      · left
        exact (List.mem_append.mp mem).resolve_right fun same => here (List.mem_singleton.mp same)
      · exact .inr rest
  · intro j hj mem notUsing
    have old : j ∉ free := fun mem' => mem (List.mem_append_left _ mem')
    have here : j ≠ i := fun same => mem (List.mem_append_right _ (List.mem_singleton.mpr same))
    rw [using'] at notUsing
    obtain ⟨y, there, sent'⟩ := h.out j hj old notUsing
    use y
    rw [hooked, freed, about_append_of_ne here, skbs j here]
    exact ⟨there, sent'⟩
  · rw [freed, List.map_append]
    rfl

/-- A packet goes into the descriptor held back, and the first unused one takes its place. -/
theorem Pool.hook (h : Pool n (i :: free) p) (pkt : MacPacket σ) (msg0 msg1 : BitVec 32) :
    ∃ p', p.popTxDscp = (some i, p') ∧ Pool n free (p'.hook pkt msg0 msg1 i) ∧
      (p'.hook pkt msg0 msg1 i).hooked = p.hooked ++ [(p.txUsingPtr, pkt.skb)] ∧
      (p'.hook pkt msg0 msg1 i).freed = p.freed := by
  obtain ⟨p', pop, queue, next, dscpIdx, skbs, using', hooked, freed⟩ := popTxDscp_cons h.queue
  have first : i ∉ free := (List.nodup_cons.mp h.queue.nodup).1
  have linked : (p'.hook pkt msg0 msg1 i).next = Function.update p.next i none := by
    rw [← next]
    show TxPool.next (p'.setInfo p'.txUsingPtr _) = _
    rw [next_setInfo]
    exact Function.update_eq_self _ p'.next
  have hooked : (p'.hook pkt msg0 msg1 i).hooked = p.hooked ++ [(p.txUsingPtr, pkt.skb)] := by
    rw [← hooked, ← using']
    rfl
  have freed : (p'.hook pkt msg0 msg1 i).freed = p.freed := freed
  have others : ∀ j ≠ p.txUsingPtr, (p'.hook pkt msg0 msg1 i).info j = p'.info j := fun j hj => by
    rw [← using'] at hj
    exact info_setInfo_of_ne hj
  have here : ((p'.hook pkt msg0 msg1 i).info p.txUsingPtr).dscpIdx =
      (p'.info p.txUsingPtr).dscpIdx ∧
      ((p'.hook pkt msg0 msg1 i).info p.txUsingPtr).skb = some pkt.skb := by
    rw [← using', TxPool.hook, info_setInfo_self]
    exact ⟨rfl, rfl⟩
  have held : p.txUsingPtr ≠ i := fun same => h.using_not_mem (same ▸ List.mem_cons_self)
  refine ⟨p', pop, ⟨?_, ?_, ?_, ?_, ?_, ?_, ?_, ?_⟩, hooked, freed⟩
  · rw [linked, ← next]
    exact queue
  · exact fun j hj => h.inside j (List.mem_cons_of_mem _ hj)
  · exact h.inside i List.mem_cons_self
  · exact first
  · intro j hj
    rw [linked]
    by_cases same : j = i
    · rw [same, Function.update_self]
    · rw [Function.update_of_ne same]
      exact h.unlinked j (List.not_mem_cons_of_ne_of_not_mem same hj)
  · intro j hj
    by_cases atUsing : j = p.txUsingPtr
    · rw [atUsing, here.1, dscpIdx]
      exact h.dscpIdx _ h.using_lt
    · rw [others j atUsing, dscpIdx]
      exact h.dscpIdx j hj
  · intro j hj
    have old : j ∈ i :: free ∨ n ≤ j := by
      obtain mem | rfl | le := hj
      · exact .inl (List.mem_cons_of_mem _ mem)
      · exact .inl List.mem_cons_self
      · exact .inr le
    have atUsing : j ≠ p.txUsingPtr := by
      rintro rfl
      exact old.elim h.using_not_mem fun le => absurd h.using_lt (Nat.not_lt.mpr le)
    rw [hooked, freed, about_append_of_ne atUsing]
    exact h.back j (old.imp_right .inr)
  · intro j hj mem notUsing
    by_cases atUsing : j = p.txUsingPtr
    · use pkt.skb
      rw [atUsing, hooked, freed, about_append_self, h.back _ (.inr (.inl rfl))]
      exact ⟨here.2, rfl⟩
    · rw [hooked, freed, others j atUsing, skbs, about_append_of_ne atUsing]
      exact h.out j hj (List.not_mem_cons_of_ne_of_not_mem notUsing mem) atUsing

/-- The loop of `qdma_bm_dscp_init` links the nodes in their order. -/
theorem foldl_initNode (k : ℕ) :
    LinkedQueue ((List.range k).foldl initNode (zeroed : TxPool σ)).next
        ((List.range k).foldl initNode (zeroed : TxPool σ)).txHeadPtr
        ((List.range k).foldl initNode (zeroed : TxPool σ)).txTailPtr (List.range k) ∧
      (∀ i ∉ List.range k, ((List.range k).foldl initNode (zeroed : TxPool σ)).next i = none) ∧
      (∀ i < k, (((List.range k).foldl initNode (zeroed : TxPool σ)).info i).dscpIdx = i) ∧
      ((List.range k).foldl initNode (zeroed : TxPool σ)).hooked = [] ∧
      ((List.range k).foldl initNode (zeroed : TxPool σ)).freed = [] := by
  induction k with
  | zero => exact ⟨.nil _, fun _ _ => rfl, fun i hi => absurd hi (Nat.not_lt_zero i), rfl, rfl⟩
  | succ k ih =>
      rw [List.range_succ, List.foldl_append]
      generalize (List.range k).foldl initNode (zeroed : TxPool σ) = p at ih
      obtain ⟨queue, unlinked, dscpIdx, hooked, freed⟩ := ih
      have new : k ∉ List.range k := List.not_mem_range_self
      have same : (p.setInfo k { p.info k with dscpIdx := k, next := none }).next = p.next := by
        rw [next_setInfo]
        exact (congrArg _ (unlinked k new).symm).trans (Function.update_eq_self k p.next)
      obtain ⟨queue', next', dscpIdx', -, -, hooked', freed'⟩ :=
        pushTxDscp_spec (p := p.setInfo k { p.info k with dscpIdx := k, next := none })
          (same ▸ queue) new (same ▸ unlinked k new)
      refine ⟨queue', fun i hi => ?_, fun i hi => ?_, hooked'.trans hooked, freed'.trans freed⟩
      · have old : i ∉ List.range k := fun mem => hi (List.mem_append_left _ mem)
        exact (next' i old).trans (same ▸ unlinked i old)
      · apply (dscpIdx' i).trans
        by_cases here : i = k
        · rw [here, info_setInfo_self]
        · rw [info_setInfo_of_ne here]
          exact dscpIdx i (by omega)

/-- The nodes after `qdma_bm_dscp_init`. -/
theorem Pool.dscpInit (pos : 0 < n) :
    ∃ p free, TxPool.dscpInit n = some (p : TxPool σ) ∧ Pool n free p ∧ p.hooked = [] ∧
      p.freed = [] := by
  obtain ⟨m, rfl⟩ : ∃ m, n = m + 1 := ⟨n - 1, by omega⟩
  obtain ⟨queue, unlinked, dscpIdx, hooked, freed⟩ := foldl_initNode (σ := σ) (m + 1)
  rw [TxPool.dscpInit]
  generalize (List.range (m + 1)).foldl initNode (zeroed : TxPool σ) = p at *
  rw [List.range_succ_eq_map] at queue unlinked
  obtain ⟨p', pop, queue', next', dscpIdx', -, -, hooked', freed'⟩ := popTxDscp_cons queue
  rw [pop]
  refine ⟨_, _, rfl, ⟨queue', ?_, ?_, ?_, ?_, ?_, ?_, ?_⟩, hooked'.trans hooked,
    freed'.trans freed⟩
  · intro i hi
    obtain ⟨j, hj, rfl⟩ := List.mem_map.mp hi
    exact Nat.succ_lt_succ (List.mem_range.mp hj)
  · exact Nat.succ_pos m
  · exact (List.nodup_cons.mp queue.nodup).1
  · intro i hi
    show p'.next i = none
    rw [next']
    by_cases same : i = 0
    · rw [same, Function.update_self]
    · rw [Function.update_of_ne same]
      exact unlinked i (List.not_mem_cons_of_ne_of_not_mem same hi)
  · exact fun i hi => (dscpIdx' i).trans (dscpIdx i hi)
  · intro i _
    show about i p'.hooked = about i p'.freed
    rw [hooked', freed', hooked, freed]
  · intro i lt hi notUsing
    apply absurd _ hi
    obtain ⟨j, rfl⟩ : ∃ j, i = j + 1 := Nat.exists_eq_succ_of_ne_zero notUsing
    exact List.mem_map.mpr ⟨j, List.mem_range.mpr (Nat.lt_of_succ_lt_succ lt), rfl⟩

end Pool

end TxPool

/-! ## The queue of reports -/

namespace QdmaTx

/-- The descriptor has been given to the engine more often than it has been reported. -/
def InFlight (s : QdmaTx σ) (i : ℕ) : Prop :=
  (s.irqTaken.map irqIdx).count i < (s.pool.hooked.map Prod.fst).count i

instance (s : QdmaTx σ) (i : ℕ) : Decidable (s.InFlight i) := inferInstanceAs (Decidable (_ < _))

/-- The entries taken from the IRQ queue on the way to `s'` name descriptors in flight, each
once. -/
def TakesInFlight (s s' : QdmaTx σ) : Prop :=
  ((s'.irqTaken.drop s.irqTaken.length).map irqIdx).Nodup ∧
    ∀ i ∈ (s'.irqTaken.drop s.irqTaken.length).map irqIdx, s.InFlight i

instance (s s' : QdmaTx σ) : Decidable (s.TakesInFlight s') := inferInstanceAs (Decidable (_ ∧ _))

/-- The pool, with a packet freed for every report. -/
structure Conserved (n : ℕ) (free : List ℕ) (s : QdmaTx σ) : Prop where
  pool : s.pool.Pool n free
  reported : s.irqTaken.map irqIdx = s.pool.freed.map Prod.fst

section Conserved

variable {n i : ℕ} {free : List ℕ} {s s' : QdmaTx σ} {irqValue : BitVec 32}

theorem count_map_fst (i : ℕ) (log : List (ℕ × σ)) :
    (log.map Prod.fst).count i = (TxPool.about i log).length := by
  rw [List.count, List.countP_map, List.countP_eq_length_filter]
  rfl

/-- The descriptors in flight are the ones that are neither unused nor held back. -/
theorem Conserved.inFlight_iff (h : s.Conserved n free) :
    s.InFlight i ↔ i < n ∧ i ∉ free ∧ i ≠ s.pool.txUsingPtr := by
  rw [InFlight, h.reported, count_map_fst, count_map_fst]
  by_cases here : i < n ∧ i ∉ free ∧ i ≠ s.pool.txUsingPtr
  · obtain ⟨x, -, sent⟩ := h.pool.out i here.1 here.2.1 here.2.2
    rw [sent, List.length_append]
    exact iff_of_true (Nat.lt_succ_self _) here
  · apply iff_of_false _ here
    rw [h.pool.back i]
    · exact Nat.lt_irrefl _
    · by_contra none
      obtain ⟨queued, rest⟩ := not_or.mp none
      obtain ⟨held, inside⟩ := not_or.mp rest
      exact here ⟨not_le.mp inside, queued, held⟩

/-- What a read of the queue does. -/
theorem readIrq_spec (dma : ℕ → (ℕ → BitVec 32) → ℕ → BitVec 32) (irqPtr retry : ℕ)
    (s : QdmaTx σ) :
    (∃ q, s.readIrq dma irqPtr retry = (none, { s with irqQueue := q })) ∨
      ∃ irqValue q, s.readIrq dma irqPtr retry =
        (some irqValue, { s with irqQueue := q, irqTaken := s.irqTaken ++ [irqValue] }) := by
  induction retry generalizing s with
  | zero => exact .inl ⟨s.irqQueue, rfl⟩
  | succ retry ih =>
      rw [readIrq]
      by_cases empty : dma retry s.irqQueue irqPtr = irqDefValue
      · simp only [if_pos empty]
        exact ih { s with irqQueue := dma retry s.irqQueue }
      · simp only [if_neg empty]
        exact .inr ⟨_, _, rfl⟩

/-- The packet of a descriptor in flight is freed when the descriptor is reported. -/
theorem Conserved.reclaim (h : s.Conserved n free) (inFlight : s.InFlight (irqIdx irqValue))
    (q : ℕ → BitVec 32) :
    ∃ s', QdmaTx.reclaim n irqValue
        { s with irqQueue := q, irqTaken := s.irqTaken ++ [irqValue] } = some s' ∧
      s'.Conserved n (free ++ [irqIdx irqValue]) ∧ s'.pool.hooked = s.pool.hooked ∧
      s'.irqTaken = s.irqTaken ++ [irqValue] ∧ s'.irqCleared = s.irqCleared := by
  obtain ⟨lt, new, held⟩ := h.inFlight_iff.mp inFlight
  obtain ⟨pool, freed, hooked⟩ := h.pool.push lt new held
  have right : ¬ ((s.pool.info (irqIdx irqValue)).dscpIdx ≠ irqIdx irqValue ∨
      s.pool.next (irqIdx irqValue) ≠ none) := by
    rw [h.pool.dscpIdx _ lt, h.pool.unlinked _ new]
    exact not_or.mpr ⟨not_not.mpr rfl, not_not.mpr rfl⟩
  refine ⟨{ s with
    pool := (s.pool.freeSkb (irqIdx irqValue)).pushTxDscp (irqIdx irqValue)
    irqQueue := q
    irqTaken := s.irqTaken ++ [irqValue] }, ?_, ⟨pool, ?_⟩, hooked, rfl, rfl⟩
  · simp only [QdmaTx.reclaim, if_neg (Nat.not_le.mpr lt), if_neg right]
  · show (s.irqTaken ++ [irqValue]).map irqIdx = _
    rw [freed, List.map_append, h.reported]
    rfl

/-- The packet and its node, and nothing else. -/
theorem reclaim_some (h : s.reclaim n irqValue = some s') :
    s'.irqTaken = s.irqTaken ∧ s'.irqCleared = s.irqCleared := by
  rw [QdmaTx.reclaim] at h
  by_cases outside : n ≤ irqIdx irqValue
  · rw [if_pos outside] at h
    cases h
  · rw [if_neg outside] at h
    split at h
    · cases h
    · cases h
      exact ⟨rfl, rfl⟩

/-- A round of the loop ends it, or takes an entry. -/
theorem transmitDoneLoop_succ (n headIdx : ℕ) (dma : ℕ → ℕ → (ℕ → BitVec 32) → ℕ → BitVec 32)
    (left i : ℕ) (ret : ℤ) (s : QdmaTx σ) :
    (∃ q, s.transmitDoneLoop n headIdx dma (left + 1) i ret =
        (i, -1, { s with irqQueue := q })) ∨
      ∃ irqValue q ret' s', s.transmitDoneLoop n headIdx dma (left + 1) i ret =
          s'.transmitDoneLoop n headIdx dma left (i + 1) ret' ∧
        s'.irqTaken = s.irqTaken ++ [irqValue] ∧ s'.irqCleared = s.irqCleared ∧
        ∀ t, QdmaTx.reclaim n irqValue
          { s with irqQueue := q, irqTaken := s.irqTaken ++ [irqValue] } = some t → s' = t := by
  rw [transmitDoneLoop]
  obtain ⟨q, read⟩ | ⟨irqValue, q, read⟩ :=
    readIrq_spec (dma i) ((headIdx + i) % irqDepth) 3 s
  · left
    use q
    rw [read]
  · right
    use irqValue, q
    rw [read]
    cases entry : QdmaTx.reclaim n irqValue
        { s with irqQueue := q, irqTaken := s.irqTaken ++ [irqValue] } with
    | none =>
        simp only [entry]
        exact ⟨_, _, rfl, rfl, rfl, nofun⟩
    | some s' =>
        obtain ⟨taken, cleared⟩ := reclaim_some entry
        simp only [entry]
        exact ⟨_, s', rfl, taken, cleared, fun _ same => Option.some.inj same⟩

/-- The loop counts the entries it takes. -/
theorem transmitDoneLoop_taken (n headIdx : ℕ) (dma : ℕ → ℕ → (ℕ → BitVec 32) → ℕ → BitVec 32)
    (left i : ℕ) (ret : ℤ) (s : QdmaTx σ) :
    ∃ new, (s.transmitDoneLoop n headIdx dma left i ret).2.2.irqTaken = s.irqTaken ++ new ∧
      (s.transmitDoneLoop n headIdx dma left i ret).1 = i + new.length ∧
      (s.transmitDoneLoop n headIdx dma left i ret).2.2.irqCleared = s.irqCleared := by
  induction left generalizing i ret s with
  | zero => exact ⟨[], (List.append_nil _).symm, rfl, rfl⟩
  | succ left ih =>
      obtain ⟨q, stopped⟩ | ⟨irqValue, q, ret', s', round, taken', cleared', -⟩ :=
        transmitDoneLoop_succ n headIdx dma left i ret s
      · rw [stopped]
        exact ⟨[], (List.append_nil _).symm, rfl, rfl⟩
      · obtain ⟨new, taken, count, cleared⟩ := ih (i + 1) ret' s'
        rw [round, taken, taken', count, cleared, cleared']
        refine ⟨irqValue :: new, List.append_assoc .., ?_, rfl⟩
        rw [List.length_cons]
        omega

/-- The loop, when the entries name descriptors in flight, each once. -/
theorem Conserved.transmitDoneLoop (h : s.Conserved n free) {headIdx : ℕ}
    {dma : ℕ → ℕ → (ℕ → BitVec 32) → ℕ → BitVec 32} {left i : ℕ} {ret : ℤ}
    {new : List (BitVec 32)}
    (taken : (s.transmitDoneLoop n headIdx dma left i ret).2.2.irqTaken = s.irqTaken ++ new)
    (once : (new.map irqIdx).Nodup) (inFlight : ∀ irqValue ∈ new, s.InFlight (irqIdx irqValue)) :
    ∃ free', (s.transmitDoneLoop n headIdx dma left i ret).2.2.Conserved n free' ∧
      (s.transmitDoneLoop n headIdx dma left i ret).2.2.pool.hooked = s.pool.hooked := by
  induction left generalizing i ret s free new with
  | zero => exact ⟨free, h, rfl⟩
  | succ left ih =>
      obtain ⟨q, stopped⟩ | ⟨irqValue, q, ret', s', round, first, -, entry⟩ :=
        transmitDoneLoop_succ n headIdx dma left i ret s
      · rw [stopped]
        exact ⟨free, ⟨h.pool, h.reported⟩, rfl⟩
      · obtain ⟨rest, later, -, -⟩ := transmitDoneLoop_taken n headIdx dma left (i + 1) ret' s'
        rw [round] at taken ⊢
        obtain rfl : new = irqValue :: rest := by
          have same : s.irqTaken ++ new = s.irqTaken ++ irqValue :: rest := by
            rw [← taken, later, first, List.append_assoc]
            rfl
          exact List.append_cancel_left same
        obtain ⟨t, reclaimed, conserved, hooked, -, -⟩ :=
          h.reclaim (inFlight irqValue List.mem_cons_self) q
        obtain rfl := entry t reclaimed
        obtain ⟨alone, once⟩ := List.nodup_cons.mp once
        rw [← hooked]
        apply ih conserved later once
        intro other mem
        have different : irqIdx other ≠ irqIdx irqValue := fun same =>
          alone (same ▸ List.mem_map_of_mem mem)
        have notHere : ([irqValue].map irqIdx).count (irqIdx other) = 0 :=
          List.count_eq_zero_of_not_mem fun mem => different (List.mem_singleton.mp mem)
        rw [InFlight, first, hooked, List.map_append, List.count_append, notHere, Nat.add_zero]
        exact inFlight other (List.mem_cons_of_mem _ mem)

/-- What is written to the register is the number of entries. -/
theorem sum_clearIrq (i : ℕ) (s : QdmaTx σ) :
    (s.clearIrq i).irqCleared.sum = s.irqCleared.sum + i := by
  have low : i &&& 0x7f = i % 2 ^ 7 := Nat.and_two_pow_sub_one_eq_mod i 7
  show (s.irqCleared ++ List.replicate (i >>> 7) 0x80 ++ [i &&& 0x7f]).sum = _
  rw [List.sum_append, List.sum_append, List.sum_replicate_nat, List.sum_singleton,
    Nat.shiftRight_eq_div_pow, low]
  omega

/-- `qdma_bm_transmit_done`. -/
theorem transmitDone_spec (n : ℕ) (amount : BitVec 32) (irq : IrqInput) (s : QdmaTx σ) :
    (∃ new, (s.transmitDone n amount irq).2.irqTaken = s.irqTaken ++ new ∧
      (s.transmitDone n amount irq).2.irqCleared.sum = s.irqCleared.sum + new.length) ∧
    ∀ free, s.Conserved n free → s.TakesInFlight (s.transmitDone n amount irq).2 →
      ∃ free', (s.transmitDone n amount irq).2.Conserved n free' ∧
        (s.transmitDone n amount irq).2.pool.hooked = s.pool.hooked := by
  rw [transmitDone]
  by_cases empty : irqEntryLen irq.status = 0
  · simp only [if_pos empty]
    exact ⟨⟨[], (List.append_nil _).symm, rfl⟩, fun free h _ => ⟨free, h, trivial⟩⟩
  · simp only [if_neg empty]
    generalize (if amount.toNat ≠ 0 ∧ amount.toNat < irqEntryLen irq.status then amount.toNat
      else irqEntryLen irq.status) = entryLen
    obtain ⟨new, taken, count, cleared⟩ :=
      transmitDoneLoop_taken n (irqHeadIdx irq.status) irq.dma entryLen 0 0 s
    constructor
    · refine ⟨new, taken, ?_⟩
      rw [sum_clearIrq, cleared, count, Nat.zero_add]
    · intro free h ⟨once, inFlight⟩
      have new_eq : (s.transmitDoneLoop n (irqHeadIdx irq.status) irq.dma entryLen
          0 0).2.2.irqTaken.drop
          s.irqTaken.length = new := by
        rw [taken, List.drop_left]
      obtain ⟨free', conserved, hooked⟩ :=
        h.transmitDoneLoop taken (new_eq ▸ once) fun irqValue mem =>
          inFlight _ (List.mem_map_of_mem (new_eq ▸ mem))
      exact ⟨free', ⟨conserved.pool, conserved.reported⟩, hooked⟩

/-- The recycling in `qdma_bm_transmit_packet`. -/
theorem recycle_spec (n : ℕ) (status : BitVec 32) (irq : IrqInput) (s : QdmaTx σ) :
    (∃ new, (s.recycle n status irq).irqTaken = s.irqTaken ++ new ∧
      (s.recycle n status irq).irqCleared.sum = s.irqCleared.sum + new.length) ∧
    ∀ free, s.Conserved n free → s.TakesInFlight (s.recycle n status irq) →
      ∃ free', (s.recycle n status irq).Conserved n free' ∧
        (s.recycle n status irq).pool.hooked = s.pool.hooked := by
  rw [recycle]
  split
  · exact transmitDone_spec n 0#32 irq s
  · exact ⟨⟨[], (List.append_nil _).symm, rfl⟩, fun free h _ => ⟨free, h, rfl⟩⟩

/-- A packet that is missing or has a wrong length is not taken. -/
theorem transmitPacket_of_invalid {pkt : Option (MacPacket σ)} (h : Invalid pkt)
    (msg0 msg1 status : BitVec 32) (irq : IrqInput) :
    s.transmitPacket n pkt msg0 msg1 status irq = (-1, s) := by
  cases pkt with
  | none => rfl
  | some p => exact if_pos (h p rfl)

/-- Otherwise the pool changes after the recycling, and nothing else. -/
theorem transmitPacket_pool {p : MacPacket σ} (valid : ¬ Invalid (some p))
    (msg0 msg1 status : BitVec 32) (irq : IrqInput) :
    ∃ ret pool, s.transmitPacket n (some p) msg0 msg1 status irq =
      (ret, { s.recycle n status irq with pool := pool }) := by
  have good : ¬ (p.len = 0#32 ∨ p.len.toNat > 2048) := fun bad =>
    valid fun _ same => Option.some.inj same ▸ bad
  rw [transmitPacket]
  simp only [if_neg good]
  split
  · exact ⟨_, _, rfl⟩
  · exact ⟨_, _, rfl⟩

/-- That depends on what the recycling leaves. -/
theorem Conserved.transmitPacket_of_valid {p : MacPacket σ} (valid : ¬ Invalid (some p))
    (msg0 msg1 status : BitVec 32) (irq : IrqInput)
    (h : (s.recycle n status irq).Conserved n free) :
    free = [] ∧ s.transmitPacket n (some p) msg0 msg1 status irq = (-1, s.recycle n status irq) ∨
      ∃ i rest pool, free = i :: rest ∧
        s.transmitPacket n (some p) msg0 msg1 status irq =
          (0, { s.recycle n status irq with pool := pool }) ∧
        Conserved n rest { s.recycle n status irq with pool := pool } ∧
        pool.hooked = (s.recycle n status irq).pool.hooked ++
          [((s.recycle n status irq).pool.txUsingPtr, p.skb)] := by
  have good : ¬ (p.len = 0#32 ∨ p.len.toNat > 2048) := fun bad =>
    valid fun _ same => Option.some.inj same ▸ bad
  rw [transmitPacket]
  simp only [if_neg good]
  cases free with
  | nil =>
      left
      rw [TxPool.popTxDscp_nil h.pool.queue]
      exact ⟨rfl, rfl⟩
  | cons i rest =>
      right
      obtain ⟨pool, pop, kept, hooked, freed⟩ := h.pool.hook p msg0 msg1
      rw [pop]
      exact ⟨i, rest, _, rfl, rfl, ⟨kept, h.reported.trans (congrArg _ freed.symm)⟩, hooked⟩

end Conserved

/-! ## Runs -/

/-- A call of the driver. -/
inductive TxCall (σ : Type)
  | transmitPacket (pkt : Option (MacPacket σ)) (msg0 msg1 status : BitVec 32) (irq : IrqInput)
  | transmitDone (amount : BitVec 32) (irq : IrqInput)

/-- The state after the call. -/
def step (n : ℕ) : TxCall σ → QdmaTx σ → QdmaTx σ
  | .transmitPacket pkt msg0 msg1 status irq, s =>
      (s.transmitPacket n pkt msg0 msg1 status irq).2
  | .transmitDone amount irq, s => (s.transmitDone n amount irq).2

/-- The state after `qdma_bm_dscp_init`. -/
def dscpInit (n : ℕ) : Option (QdmaTx σ) :=
  (TxPool.dscpInit n).map fun pool => ⟨pool, fun _ => irqDefValue, [], []⟩

/-- The pool is conserved, and every entry taken has been cleared. -/
def Accounted (n : ℕ) (s : QdmaTx σ) : Prop :=
  (∃ free, s.Conserved n free) ∧ s.irqCleared.sum = s.irqTaken.length

section Runs

variable {n : ℕ} {s : QdmaTx σ}

theorem cleared_of_new {t : QdmaTx σ} {new : List (BitVec 32)}
    (cleared : s.irqCleared.sum = s.irqTaken.length) (taken : t.irqTaken = s.irqTaken ++ new)
    (sum : t.irqCleared.sum = s.irqCleared.sum + new.length) :
    t.irqCleared.sum = t.irqTaken.length := by
  rw [sum, taken, cleared, List.length_append]

/-- One call. -/
theorem Accounted.step (a : TxCall σ) (h : s.Accounted n) (takes : s.TakesInFlight (s.step n a)) :
    (s.step n a).Accounted n := by
  obtain ⟨⟨free, h⟩, cleared⟩ := h
  cases a with
  | transmitPacket pkt msg0 msg1 status irq =>
      show (s.transmitPacket n pkt msg0 msg1 status irq).2.Accounted n
      by_cases bad : Invalid pkt
      · rw [transmitPacket_of_invalid bad]
        exact ⟨⟨free, h⟩, cleared⟩
      · obtain ⟨p, rfl⟩ : ∃ p, pkt = some p :=
          Option.ne_none_iff_exists'.mp fun none => bad (none ▸ fun _ same => by cases same)
        obtain ⟨⟨new, taken, sum⟩, conserved⟩ := recycle_spec n status irq s
        have takes : s.TakesInFlight (s.recycle n status irq) := by
          obtain ⟨ret, pool, out⟩ := transmitPacket_pool (n := n) (s := s) bad msg0 msg1 status irq
          rw [QdmaTx.step, out] at takes
          exact takes
        obtain ⟨free', h', -⟩ := conserved free h takes
        obtain ⟨-, stuck⟩ | ⟨i, rest, pool, -, sent, kept, -⟩ :=
          h'.transmitPacket_of_valid bad msg0 msg1 status irq
        · rw [stuck]
          exact ⟨⟨free', h'⟩, cleared_of_new cleared taken sum⟩
        · rw [sent]
          exact ⟨⟨rest, kept⟩, cleared_of_new cleared taken sum⟩
  | transmitDone amount irq =>
      obtain ⟨⟨new, taken, sum⟩, conserved⟩ := transmitDone_spec n amount irq s
      obtain ⟨free', h', -⟩ := conserved free h takes
      exact ⟨⟨free', h'⟩, cleared_of_new cleared taken sum⟩

/-- Every run. -/
theorem Accounted.run (h : s.Accounted n) (inputs : List (TxCall σ))
    (takes : EveryStep (QdmaTx.step n) (fun a s => s.TakesInFlight (s.step n a)) s inputs) :
    (runInputs (QdmaTx.step n) s inputs).Accounted n := by
  induction inputs generalizing s with
  | nil => exact h
  | cons a inputs ih => exact ih (h.step a takes.1) takes.2

/-- Every one of the `n` descriptors is unused, held back or in flight. -/
theorem Conserved.perm {free : List ℕ} (h : s.Conserved n free) :
    (free ++ s.pool.txUsingPtr :: (List.range n).filter fun i => s.InFlight i).Perm
      (List.range n) := by
  have inFlight : ∀ i, i ∈ (List.range n).filter (fun i => s.InFlight i) ↔ s.InFlight i := by
    intro i
    rw [List.mem_filter, List.mem_range, decide_eq_true_iff]
    exact and_iff_right_of_imp fun flying => (h.inFlight_iff.mp flying).1
  apply (List.perm_ext_iff_of_nodup _ List.nodup_range).mpr
  · intro i
    rw [List.mem_append, List.mem_cons, inFlight, h.inFlight_iff, List.mem_range]
    constructor
    · rintro (queued | rfl | flying)
      · exact h.pool.inside i queued
      · exact h.pool.using_lt
      · exact flying.1
    · intro inside
      by_cases queued : i ∈ free
      · exact .inl queued
      · by_cases held : i = s.pool.txUsingPtr
        · exact .inr (.inl held)
        · exact .inr (.inr ⟨inside, queued, held⟩)
  · apply List.nodup_append.mpr
    refine ⟨h.pool.queue.nodup, List.nodup_cons.mpr ⟨?_, List.nodup_range.filter _⟩, ?_⟩
    · rw [inFlight, h.inFlight_iff]
      exact fun flying => flying.2.2 rfl
    · rintro i queued j mem rfl
      obtain rfl | flying := List.mem_cons.mp mem
      · exact h.pool.using_not_mem queued
      · rw [inFlight, h.inFlight_iff] at flying
        exact flying.2.1 queued

end Runs

/-- For every size of the ring and every run in which the IRQ queue names descriptors in
flight, each once: the queue of unused descriptors is a linked list without repetitions, its
descriptors, the one held back and those in flight are all there are; a packet is freed when
its descriptor is reported, and only then; a packet is refused if it is missing or has a wrong
length, or if no descriptor is unused after the recycling; and what has been written to clear
the IRQ queue is what has been taken from it. -/
theorem transmit_conserved {n : ℕ} (pos : 0 < n) :
    ∃ start : QdmaTx σ, dscpInit n = some start ∧ ∀ inputs,
      EveryStep (step n) (fun a s => s.TakesInFlight (s.step n a)) start inputs →
      let s := runInputs (step n) start inputs
      ∃ free, LinkedQueue s.pool.next s.pool.txHeadPtr s.pool.txTailPtr free ∧
        (s.pool.txHeadPtr = none ↔ free = []) ∧
        (free ++ s.pool.txUsingPtr :: (List.range n).filter fun i => s.InFlight i).Perm
          (List.range n) ∧
        s.irqTaken.map irqIdx = s.pool.freed.map Prod.fst ∧
        (∀ i, ¬ s.InFlight i → TxPool.about i s.pool.hooked = TxPool.about i s.pool.freed) ∧
        (∀ i, s.InFlight i → ∃ x, (s.pool.info i).skb = some x ∧
          TxPool.about i s.pool.hooked = TxPool.about i s.pool.freed ++ [(i, x)]) ∧
        (∀ pkt msg0 msg1 status irq, Invalid pkt →
          s.transmitPacket n pkt msg0 msg1 status irq = (-1, s)) ∧
        (∀ p msg0 msg1 status irq, ¬ Invalid (some p) →
          s.TakesInFlight (s.recycle n status irq) →
          let r := s.recycle n status irq
          let out := s.transmitPacket n (some p) msg0 msg1 status irq
          ∃ left, LinkedQueue r.pool.next r.pool.txHeadPtr r.pool.txTailPtr left ∧
            (out.1 = -1 ↔ left = []) ∧ (out.1 = -1 → out.2 = r) ∧
            (out.1 ≠ -1 → out.1 = 0 ∧
              out.2.pool.hooked = s.pool.hooked ++ [(r.pool.txUsingPtr, p.skb)])) ∧
        s.irqCleared.sum = s.irqTaken.length := by
  obtain ⟨pool, free, init, conserved, -, freed⟩ := TxPool.Pool.dscpInit (σ := σ) pos
  refine ⟨⟨pool, fun _ => irqDefValue, [], []⟩, congrArg _ init, ?_⟩
  intro inputs takes s
  have start : Accounted n ⟨pool, fun _ => irqDefValue, [], []⟩ :=
    ⟨⟨free, conserved, (congrArg (List.map Prod.fst) freed).symm⟩, rfl⟩
  obtain ⟨⟨free, h⟩, cleared⟩ := start.run inputs takes
  refine ⟨free, h.pool.queue, h.pool.queue.head_eq_none_iff, h.perm, h.reported, fun i still => ?_,
    fun i flying => ?_, fun pkt msg0 msg1 status irq bad => transmitPacket_of_invalid bad ..,
    fun p msg0 msg1 status irq good takes => ?_, cleared⟩
  · apply h.pool.back
    by_contra none
    obtain ⟨queued, rest⟩ := not_or.mp none
    obtain ⟨held, inside⟩ := not_or.mp rest
    exact still (h.inFlight_iff.mpr ⟨not_le.mp inside, queued, held⟩)
  · obtain ⟨lt, queued, held⟩ := h.inFlight_iff.mp flying
    exact h.pool.out i lt queued held
  · intro r out
    obtain ⟨left, h', hooked⟩ := (recycle_spec n status irq s).2 free h takes
    refine ⟨left, h'.pool.queue, ?_⟩
    obtain ⟨rfl, stuck⟩ | ⟨i, rest, pool', rfl, sent, -, hooked'⟩ :=
      h'.transmitPacket_of_valid good msg0 msg1 status irq
    · have out_eq : out = (-1, r) := stuck
      rw [out_eq]
      exact ⟨iff_of_true rfl rfl, fun _ => rfl, fun other => absurd rfl other⟩
    · have out_eq : out = (0, { r with pool := pool' }) := sent
      rw [out_eq]
      have accepted : ¬ (0 : ℤ) = -1 := by decide
      refine ⟨iff_of_false accepted nofun, fun other => absurd other accepted, fun _ => ?_⟩
      exact ⟨rfl, hooked'.trans (congrArg (· ++ _) hooked)⟩

/-- An engine that reports descriptor 0. -/
def firstDone : IrqInput := ⟨1#32 <<< 16, fun _ _ queue => Function.update queue 0 0#32⟩

/-- A ring of two descriptors. -/
def twoDescriptors : QdmaTx ℕ := (dscpInit 2).get (by decide)

/-- A packet of 60 bytes is sent. -/
def send (skb : ℕ) : TxCall ℕ :=
  .transmitPacket (some ⟨skb, 0xa2000000#32, 60#32⟩) 0#32 0#32 0#32 firstDone

/-- A packet goes into one of the two descriptors, is reported and freed, and the next packet
goes into the other one. -/
theorem transmit_conserved_two :
    ∃ s : QdmaTx ℕ, s.pool.freed = [(0, 7)] ∧ s.pool.hooked = [(0, 7), (1, 8)] ∧
      ∃ free, (free ++ s.pool.txUsingPtr :: (List.range 2).filter fun i => s.InFlight i).Perm
        (List.range 2) ∧ s.irqCleared.sum = s.irqTaken.length := by
  obtain ⟨start, init, run⟩ := transmit_conserved (σ := ℕ) (show 0 < 2 by decide)
  have same : start = twoDescriptors := (Option.get_of_eq_some _ init).symm
  rw [same] at run
  obtain ⟨free, -, -, perm, -, -, -, -, -, cleared⟩ :=
    run [send 7, .transmitDone 0#32 firstDone, send 8] (by decide +kernel)
  refine ⟨_, ?_, ?_, free, perm, cleared⟩
  · decide +kernel
  · decide +kernel

end QdmaTx

end En7512.Net
