/-
# The buffers of the QDMA receive ring

The nodes of the receive ring point to each other in a circle. From `rxStartPtr` on come the
descriptors that hold a buffer for the engine, and the node at `rxEndPtr`, which is also
`rxUsingPtr`, holds none: a buffer goes into its descriptor, and the next node takes its
place. `qdma_bm_receive_packets` takes a completed descriptor at the start, hands its buffer
over and posts a new one at the end.

A descriptor without an address or a length makes it stop instead, after it has been taken
and before a buffer has been posted for it. The ring is one buffer shorter from then on, and
the buffer that was in the descriptor is lost.
-/

import En7512.Net.GmacRx

namespace En7512.Net

open En7512.Logic En7512.Nand

/-! ## The driver -/

/-- A `QDMA_DMA_DSCP_T` of the receive ring. The address zero is `none`. -/
structure RxDscp where
  done : Bool
  pktLen : BitVec 16
  pktAddr : Option BufAddr
  nextIdx : BitVec 12

/-- The descriptor has an address and a length. -/
def RxDscp.WellFormed (d : RxDscp) : Prop := d.pktAddr ≠ none ∧ d.pktLen ≠ 0#16

instance (d : RxDscp) : Decidable d.WellFormed := inferInstanceAs (Decidable (_ ∧ _))

/-- A `QDMA_DscpInfo_S` of the receive ring, with its descriptor. Pointers to such nodes are
indexes in the array of the nodes. -/
structure RxInfo where
  dscp : RxDscp
  dscpIdx : ℕ
  skb : Option Skb
  next : Option ℕ

/-- A descriptor that the driver has taken: its index, what the engine has left in it, and
its buffer. -/
structure Taken where
  idx : ℕ
  dscp : RxDscp
  skb : Skb

/-- The receive half of `QDMA_Private_T`, the packet buffers, and what has been done with them
so far. -/
structure QdmaRx where
  info : ℕ → RxInfo
  rxStartPtr : Option ℕ
  rxEndPtr : Option ℕ
  rxUsingPtr : ℕ
  pool : SkbPool
  /-- The buffers posted, with their descriptors, in order. -/
  hooked : List (ℕ × Skb)
  /-- The descriptors taken, in order. -/
  taken : List Taken
  /-- The calls of `eth_rcv`, in order. -/
  received : List Received
  /-- The buffers the driver has given to `free_skb` itself. -/
  freed : List Skb
  /-- The buffers posted again because there was no new one. -/
  reposted : List Skb

namespace QdmaRx

/-- The pointer `next` of a node. -/
def next (s : QdmaRx) (i : ℕ) : Option ℕ := (s.info i).next

/-- The state with one node changed. -/
def setInfo (i : ℕ) (d : RxInfo) (s : QdmaRx) : QdmaRx :=
  { s with info := Function.update s.info i d }

/-- `qdma_bm_add_rx_dscp`. -/
def addRxDscp (i : ℕ) (s : QdmaRx) : QdmaRx :=
  match s.rxStartPtr with
  | none => { s.setInfo i { s.info i with next := some i } with rxStartPtr := some i }
  | some start =>
      let s := s.setInfo i { s.info i with next := s.next start }
      { s.setInfo start { s.info start with next := some i } with rxStartPtr := some i }

/-- `qdma_bm_get_unused_rx_dscp`. -/
def getUnusedRxDscp (s : QdmaRx) : Option ℕ × QdmaRx :=
  match s.rxStartPtr, s.rxEndPtr with
  | none, _ => (none, s)
  | some start, none => (some start, { s with rxEndPtr := some start })
  | some start, some last =>
      if s.next last ≠ some start then (s.next last, { s with rxEndPtr := s.next last })
      else (none, s)

/-- `qdma_bm_hook_receive_buffer`, and whether it returns zero. -/
def hookReceiveBuffer (skb : Skb) (s : QdmaRx) : Bool × QdmaRx :=
  match s.getUnusedRxDscp with
  | (none, s) => (false, s)
  | (some i, s) =>
      let pool := s.pool.skbReserve skb 2
      (true, { s.setInfo s.rxUsingPtr { s.info s.rxUsingPtr with
          dscp := {
            done := false
            pktLen := 1518#16
            pktAddr := some ⟨skb, (pool.skbuff skb).data - 2⟩
            nextIdx := BitVec.ofNat 12 (s.info i).dscpIdx }
          skb := some skb } with
        pool := pool
        rxUsingPtr := i
        hooked := s.hooked ++ [(s.rxUsingPtr, skb)] })

/-- The driver calls `free_skb`. -/
def free (skb : Skb) (s : QdmaRx) : QdmaRx :=
  { s with pool := s.pool.freeSkb skb, freed := s.freed ++ [skb] }

/-- `qdma_prepare_rx_buffer`, and whether it returns zero, if `alloc_skb` returns. -/
def prepareRxBuffer (s : QdmaRx) : Option (Bool × QdmaRx) :=
  match s.pool.allocSkb skbuffSize with
  | none => none
  | some (none, pool) => some (false, { s with pool := pool })
  | some (some skb, pool) =>
      match hookReceiveBuffer skb { s with pool := pool } with
      | (true, s) => some (true, s)
      | (false, s) => some (false, s.free skb)

/-- `qdma_has_free_rxdscp`. -/
def HasFree (s : QdmaRx) : Prop := s.rxEndPtr.bind s.next ≠ s.rxStartPtr

instance (s : QdmaRx) : Decidable s.HasFree := inferInstanceAs (Decidable (_ ≠ _))

/-- The test at the beginning of a round of `qdma_bm_receive_packets`: there is a completed
descriptor at the start. -/
def Ready (s : QdmaRx) : Prop :=
  ∃ i, s.rxStartPtr = some i ∧ s.rxStartPtr ≠ s.rxEndPtr ∧ (s.info i).dscp.done = true

/-- `eth_rcv`. What the protocol layers do with the buffers is `handler`. -/
def ethRcv (handler : SkbPool → SkbPool) (skb : Skb) (s : QdmaRx) : QdmaRx :=
  let b := s.pool.skbuff skb
  { s with
    received := s.received ++ [⟨skb, b.len, fun i => b.buf (b.data + i)⟩]
    pool := (handler s.pool).freeSkb skb }

/-- From the label `next` in `qdma_bm_receive_packets`. -/
def post (newSkb : Skb) (s : QdmaRx) : QdmaRx :=
  if s.HasFree then (s.hookReceiveBuffer newSkb).2 else s.free newSkb

/-- A descriptor is taken at the start of the ring. -/
def take (i : ℕ) (skb : Skb) (s : QdmaRx) : QdmaRx :=
  { s with
    rxStartPtr := s.next i
    taken := s.taken ++ [⟨i, (s.info i).dscp, skb⟩] }

/-- The packet in the buffer is handed over, and a new buffer is posted, if `alloc_skb`
returns. -/
def handOver (handler : SkbPool → SkbPool) (pktLen : ℕ) (skb : Skb) (s : QdmaRx) :
    Option QdmaRx :=
  match s.pool.allocSkb skbuffSize with
  | none => none
  | some (none, pool) =>
      some (post skb { s with pool := pool, reposted := s.reposted ++ [skb] })
  | some (some newSkb, pool) =>
      let s : QdmaRx := { s with pool := pool.setLen skb pktLen }
      some ((s.ethRcv handler skb).post newSkb)

/-- A round of `qdma_bm_receive_packets`, when the descriptor at the start is completed. The
loop goes on unless the result is `false`. -/
def receiveNext (handler : SkbPool → SkbPool) (s : QdmaRx) : Option (Bool × QdmaRx) :=
  match s.rxStartPtr with
  | none => none
  | some i =>
      match (s.info i).skb with
      | none => none
      | some skb =>
          let rxDscp := (s.info i).dscp
          if rxDscp.WellFormed then
            ((s.take i skb).handOver handler rxDscp.pktLen.toNat skb).map fun s => (true, s)
          else some (false, s.take i skb)

/-- The nodes as `qdma_bm_dscp_init` finds them. -/
def zeroed (pool : SkbPool) : QdmaRx where
  info _ := ⟨⟨false, 0, none, 0⟩, 0, none, none⟩
  rxStartPtr := none
  rxEndPtr := none
  rxUsingPtr := 0
  pool := pool
  hooked := []
  taken := []
  received := []
  freed := []
  reposted := []

/-- The loop of `qdma_bm_dscp_init` over the receive ring. -/
def initNode (s : QdmaRx) (i : ℕ) : QdmaRx :=
  (s.setInfo i { s.info i with dscpIdx := i, next := none }).addRxDscp i

/-- The loop of `qdma_bm_dscp_init` that posts buffers, if it is over after `fuel` rounds. -/
def postBuffers : ℕ → QdmaRx → Option QdmaRx
  | 0, _ => none
  | fuel + 1, s =>
      match s.prepareRxBuffer with
      | none => none
      | some (false, s) => some s
      | some (true, s) => if s.HasFree then postBuffers fuel s else some s

/-- What `qdma_bm_dscp_init` does for a receive ring of `n` descriptors. -/
def dscpInit (n fuel : ℕ) (pool : SkbPool) : Option QdmaRx :=
  match ((List.range n).foldl initNode (zeroed pool)).getUnusedRxDscp with
  | (none, _) => none
  | (some i, s) => postBuffers fuel { s with rxUsingPtr := i }

/-! ## Runs -/

/-- The descriptor has been given to the engine more often than it has been taken. -/
def Posted (s : QdmaRx) (i : ℕ) : Prop :=
  (s.taken.map Taken.idx).count i < (s.hooked.map Prod.fst).count i

instance (s : QdmaRx) (i : ℕ) : Decidable (s.Posted i) := inferInstanceAs (Decidable (_ < _))

/-- The buffer is in a descriptor that is posted. -/
def InRing (s : QdmaRx) (skb : Skb) : Prop := ∃ i, s.Posted i ∧ (s.info i).skb = some skb

/-- What happens besides the driver. -/
inductive Outside (s : QdmaRx) : QdmaRx → Prop
  /-- The engine writes descriptors. -/
  | engine (dscp : ℕ → RxDscp) :
      Outside s { s with info := fun i => { s.info i with dscp := dscp i } }
  /-- The engine writes packets, and other code uses the buffers that are not in the ring. -/
  | buffers (pool : SkbPool) (keeps : ∀ skb, s.InRing skb → ¬ pool.Unused skb) :
      Outside s { s with pool := pool }

/-- The protocol layers do not free the buffers of the ring and the one that has been taken
for it. -/
def KeepsReserved (s : QdmaRx) (handler : SkbPool → SkbPool) : Prop :=
  ∀ p skb, ¬ p.Unused skb → (∃ i, some i ≠ s.rxStartPtr ∧ s.Posted i ∧ (s.info i).skb = some skb) ∨
    s.pool.Unused skb → ¬ (handler p).Unused skb

/-- A run of `qdma_bm_receive_packets` from the values `cnt` and `pktCount` on, with what it
returns. The engine goes on in between. -/
inductive ReceivePackets (maxPkts : ℕ) : ℕ → ℕ → QdmaRx → ℕ → QdmaRx → Prop
  | ret {cnt pktCount : ℕ} {s : QdmaRx} (nothing : ¬ s.Ready) :
      ReceivePackets maxPkts cnt pktCount s pktCount s
  | incorrect {cnt pktCount : ℕ} {s t : QdmaRx} (handler : SkbPool → SkbPool) (ready : s.Ready)
      (round : s.receiveNext handler = some (false, t)) :
      ReceivePackets maxPkts cnt pktCount s (pktCount + 1) t
  | last {cnt pktCount : ℕ} {s t : QdmaRx} (handler : SkbPool → SkbPool) (ready : s.Ready)
      (keeps : s.KeepsReserved handler) (round : s.receiveNext handler = some (true, t))
      (limit : maxPkts ≠ 0 ∧ cnt - 1 = 0) :
      ReceivePackets maxPkts cnt pktCount s (pktCount + 1) t
  | more {cnt pktCount count : ℕ} {s t u : QdmaRx} (handler : SkbPool → SkbPool) (ready : s.Ready)
      (keeps : s.KeepsReserved handler) (round : s.receiveNext handler = some (true, t))
      (limit : maxPkts = 0 ∨ cnt - 1 ≠ 0)
      (rest : ReceivePackets maxPkts (cnt - 1) (pktCount + 1) t count u) :
      ReceivePackets maxPkts cnt pktCount s count u
  | meanwhile {cnt pktCount count : ℕ} {s t u : QdmaRx} (outside : Outside s t)
      (rest : ReceivePackets maxPkts cnt pktCount t count u) :
      ReceivePackets maxPkts cnt pktCount s count u

/-- A call of `qdma_bm_receive_packets`, or something else. -/
inductive Step (s : QdmaRx) : QdmaRx → Prop
  | receivePackets {t : QdmaRx} (maxPkts count : ℕ)
      (call : ReceivePackets maxPkts maxPkts 0 s count t) : Step s t
  | outside {t : QdmaRx} (outside : Outside s t) : Step s t

/-- The states that are reached from the initialised ring. -/
abbrev Reaches : QdmaRx → QdmaRx → Prop := Relation.ReflTransGen Step

/-- All descriptors but the one at `rxUsingPtr` and `rxEndPtr`, which is the one before
`rxStartPtr`, are posted with buffers of their own that are in use; and each buffer taken
out of the ring has been passed to `eth_rcv`, freed or posted again once. -/
structure Full (n : ℕ) (s : QdmaRx) : Prop where
  count : ((List.range n).filter fun i => s.Posted i).length = n - 1
  last : s.rxEndPtr = some s.rxUsingPtr ∧ ¬ s.Posted s.rxUsingPtr ∧
    s.next s.rxUsingPtr = s.rxStartPtr
  buffers : ∀ i, s.Posted i → ∃ skb, (s.info i).skb = some skb ∧ ¬ s.pool.Unused skb
  distinct : ∀ i j, s.Posted i → s.Posted j → (s.info i).skb = (s.info j).skb → i = j
  settled : (s.taken.map Taken.skb).Perm (s.received.map Received.skb ++ s.freed ++ s.reposted)

/-! ## The ring -/

/-- The descriptor that is posted or taken after `k` others. -/
def slotIdx (n k : ℕ) : ℕ := (n - 1 + k) % n

/-- Counting from the beginning of the run, the descriptors from the first that has not been
taken to the last that was posted have buffers of their own, in the order of the circle, and
`gap` descriptors besides the one at the end have none. -/
structure RxRing (n gap : ℕ) (s : QdmaRx) : Prop where
  circle : ∀ i < n, s.next i = some (nextIdx n i)
  order : s.taken.length ≤ s.hooked.length
  fits : s.hooked.length + gap = s.taken.length + (n - 1)
  start : s.rxStartPtr = some (slotIdx n s.taken.length)
  last : s.rxEndPtr = some (slotIdx n s.hooked.length)
  held : s.rxUsingPtr = slotIdx n s.hooked.length
  hooked : s.hooked.map Prod.fst = (List.range s.hooked.length).map (slotIdx n)
  taken : s.taken.map Taken.idx = (List.range s.taken.length).map (slotIdx n)
  slot : ∀ k, s.taken.length ≤ k → k < s.hooked.length →
    ∃ skb, (s.info (slotIdx n k)).skb = some skb ∧ ¬ s.pool.Unused skb
  distinct : ∀ k l, s.taken.length ≤ k → k < s.hooked.length → s.taken.length ≤ l →
    l < s.hooked.length → (s.info (slotIdx n k)).skb = (s.info (slotIdx n l)).skb → k = l

section Ring

variable {n gap i j k l : ℕ} {s t : QdmaRx} {skb : Skb} {d : RxInfo}

theorem slotIdx_lt (pos : 0 < n) (k : ℕ) : slotIdx n k < n := Nat.mod_lt _ pos

theorem nextIdx_slotIdx (pos : 0 < n) (k : ℕ) : nextIdx n (slotIdx n k) = slotIdx n (k + 1) :=
  nextIdx_mod pos _

theorem slotIdx_add (n k : ℕ) : slotIdx n (k + n) = slotIdx n k := by
  rw [slotIdx, ← Nat.add_assoc, Nat.add_mod_right]
  rfl

theorem eq_of_slotIdx_eq (same : slotIdx n k = slotIdx n l) (le : k ≤ l) (lt : l < k + n) :
    k = l := by
  have equal := eq_of_mod_eq same (by omega) (by omega)
  omega

theorem next_setInfo : (s.setInfo i d).next = Function.update s.next i d.next := by
  funext j
  show (Function.update s.info i d j).next = _
  by_cases here : j = i
  · rw [here, Function.update_self, Function.update_self]
  · rw [Function.update_of_ne here, Function.update_of_ne here]
    rfl

/-- A descriptor is posted exactly if it is in the part of the circle between the two ends. -/
theorem RxRing.posted_iff (h : RxRing n gap s) :
    s.Posted i ↔ ∃ k, s.taken.length ≤ k ∧ k < s.hooked.length ∧ slotIdx n k = i := by
  have split : List.range s.hooked.length = List.range s.taken.length ++
      List.range' s.taken.length (s.hooked.length - s.taken.length) := by
    rw [List.range_eq_range', List.range_eq_range']
    have whole := List.range'_append_1 (s := 0) (m := s.taken.length)
      (n := s.hooked.length - s.taken.length)
    rw [Nat.zero_add, Nat.add_sub_cancel' h.order] at whole
    exact whole.symm
  rw [Posted, h.taken, h.hooked, split, List.map_append, List.count_append,
    Nat.lt_add_right_iff_pos, List.count_pos_iff, List.mem_map]
  constructor
  · rintro ⟨k, mem, same⟩
    rw [List.mem_range'_1] at mem
    exact ⟨k, mem.1, by omega, same⟩
  · rintro ⟨k, low, high, same⟩
    exact ⟨k, List.mem_range'_1.mpr ⟨low, by omega⟩, same⟩

/-- The buffers in the ring are in use. -/
theorem RxRing.inUse (h : RxRing n gap s) (mem : s.InRing skb) : ¬ s.pool.Unused skb := by
  obtain ⟨i, posted, there⟩ := mem
  obtain ⟨k, low, high, rfl⟩ := h.posted_iff.mp posted
  obtain ⟨other, same, used⟩ := h.slot k low high
  rw [there] at same
  cases same
  exact used

/-- The number of descriptors posted. -/
theorem RxRing.count_posted (h : RxRing n gap s) (pos : 0 < n) :
    ((List.range n).filter fun i => s.Posted i).length = s.hooked.length - s.taken.length := by
  have fits := h.fits
  have same : ((List.range n).filter fun i => s.Posted i).Perm
      ((List.range' s.taken.length (s.hooked.length - s.taken.length)).map (slotIdx n)) := by
    apply (List.perm_ext_iff_of_nodup (List.nodup_range.filter _) _).mpr
    · intro i
      rw [List.mem_filter, List.mem_range, decide_eq_true_iff, h.posted_iff, List.mem_map]
      constructor
      · rintro ⟨-, k, low, high, same⟩
        exact ⟨k, List.mem_range'_1.mpr ⟨low, by omega⟩, same⟩
      · rintro ⟨k, mem, rfl⟩
        rw [List.mem_range'_1] at mem
        exact ⟨slotIdx_lt pos k, k, mem.1, by omega, rfl⟩
    · apply List.Nodup.map_on _ List.nodup_range'
      intro k hk l hl equal
      rw [List.mem_range'_1] at hk hl
      obtain le | le := Nat.le_total k l
      · exact eq_of_slotIdx_eq equal le (by omega)
      · exact (eq_of_slotIdx_eq equal.symm le (by omega)).symm
  rw [same.length_eq, List.length_map, List.length_range']

/-- The ring is missing no buffer exactly if there is no descriptor for one. -/
theorem RxRing.hasFree_iff (h : RxRing n gap s) (pos : 0 < n) : s.HasFree ↔ gap ≠ 0 := by
  have fits := h.fits
  have order := h.order
  rw [HasFree, h.last, h.start, Option.bind_some, h.circle _ (slotIdx_lt pos _),
    nextIdx_slotIdx pos]
  constructor
  · rintro free rfl
    apply free
    have whole : s.hooked.length + 1 = s.taken.length + n := by omega
    rw [whole, slotIdx_add]
  · intro missing same
    have equal := eq_of_slotIdx_eq (Option.some.inj same).symm (by omega) (by omega)
    omega

/-- The ring does not depend on anything else in the pool, and not on what has been handed
over. -/
theorem RxRing.pool (h : RxRing n gap s) {pool : SkbPool} {received : List Received}
    (keeps : ∀ skb, s.InRing skb → ¬ pool.Unused skb) :
    RxRing n gap { s with pool := pool, received := received } where
  circle := h.circle
  order := h.order
  fits := h.fits
  start := h.start
  last := h.last
  held := h.held
  hooked := h.hooked
  taken := h.taken
  slot k low high := by
    obtain ⟨skb, there, -⟩ := h.slot k low high
    exact ⟨skb, there, keeps skb ⟨_, h.posted_iff.mpr ⟨k, low, high, rfl⟩, there⟩⟩
  distinct := h.distinct

/-- A descriptor is taken. -/
theorem RxRing.take (h : RxRing n gap s) (pos : 0 < n) (more : s.taken.length < s.hooked.length)
    (skb : Skb) : RxRing n (gap + 1) (s.take (slotIdx n s.taken.length) skb) := by
  have fits := h.fits
  have length : (s.take (slotIdx n s.taken.length) skb).taken.length = s.taken.length + 1 :=
    List.length_append
  constructor
  · exact h.circle
  · rw [length]
    exact more
  · rw [length]
    show s.hooked.length + (gap + 1) = _
    omega
  · rw [length]
    show s.next (slotIdx n s.taken.length) = _
    rw [h.circle _ (slotIdx_lt pos _), nextIdx_slotIdx pos]
  · exact h.last
  · exact h.held
  · exact h.hooked
  · rw [length, List.range_succ, List.map_append, ← h.taken]
    exact List.map_append
  · intro k low high
    rw [length] at low
    exact h.slot k (Nat.le_of_succ_le low) high
  · intro k l lowk highk lowl highl
    rw [length] at lowk lowl
    exact h.distinct k l (Nat.le_of_succ_le lowk) highk (Nat.le_of_succ_le lowl) highl

/-- There is a next descriptor for a buffer. -/
theorem getUnusedRxDscp_of_ne (start : s.rxStartPtr = some i) (last : s.rxEndPtr = some j)
    (free : s.next j ≠ some i) :
    s.getUnusedRxDscp = (s.next j, { s with rxEndPtr := s.next j }) := by
  simp only [getUnusedRxDscp, start, last, if_pos free]

/-- A buffer is posted. -/
theorem RxRing.hook (h : RxRing n (gap + 1) s) (pos : 0 < n) (inUse : ¬ s.pool.Unused skb)
    (new : ¬ s.InRing skb) :
    ∃ t, s.hookReceiveBuffer skb = (true, t) ∧ RxRing n gap t ∧ t.taken = s.taken ∧
      t.received = s.received ∧ t.freed = s.freed ∧ t.reposted = s.reposted := by
  have fits := h.fits
  have order := h.order
  have next : s.next (slotIdx n s.hooked.length) = some (slotIdx n (s.hooked.length + 1)) := by
    rw [h.circle _ (slotIdx_lt pos _), nextIdx_slotIdx pos]
  have free : s.next (slotIdx n s.hooked.length) ≠ some (slotIdx n s.taken.length) := by
    have free := (h.hasFree_iff pos).mpr (Nat.succ_ne_zero gap)
    rw [HasFree, h.last, h.start] at free
    exact free
  have unused := getUnusedRxDscp_of_ne h.start h.last free
  rw [next] at unused
  obtain ⟨t, post, taken, hooked, info, start, last, held, pool, logs⟩ : ∃ t : QdmaRx,
      s.hookReceiveBuffer skb = (true, t) ∧ t.taken = s.taken ∧
      t.hooked = s.hooked ++ [(s.rxUsingPtr, skb)] ∧
      (∃ d : RxInfo, t.info = Function.update s.info s.rxUsingPtr d ∧ d.skb = some skb ∧
        d.next = s.next s.rxUsingPtr) ∧ t.rxStartPtr = s.rxStartPtr ∧
      t.rxEndPtr = some (slotIdx n (s.hooked.length + 1)) ∧
      t.rxUsingPtr = slotIdx n (s.hooked.length + 1) ∧ t.pool = s.pool.skbReserve skb 2 ∧
      t.received = s.received ∧ t.freed = s.freed ∧ t.reposted = s.reposted := by
    rw [hookReceiveBuffer, unused]
    exact ⟨_, rfl, rfl, rfl, ⟨_, rfl, rfl, rfl⟩, rfl, rfl, rfl, rfl, rfl, rfl, rfl⟩
  obtain ⟨d, info, skb_eq, next_eq⟩ := info
  have length : t.hooked.length = s.hooked.length + 1 := by
    rw [hooked, List.length_append]
    rfl
  have inUse' : ∀ x, ¬ s.pool.Unused x → ¬ t.pool.Unused x := fun x hx => by
    rw [pool]
    by_cases same : x = skb
    · rw [same, SkbPool.Unused, SkbPool.skbReserve, SkbPool.skbuff_modify_self]
      exact inUse
    · rw [SkbPool.Unused, SkbPool.skbReserve, SkbPool.skbuff_modify_of_ne same]
      exact hx
  have here : (t.info (slotIdx n s.hooked.length)).skb = some skb := by
    rw [info, ← h.held, Function.update_self, skb_eq]
  have before : ∀ k, s.taken.length ≤ k → k < s.hooked.length →
      t.info (slotIdx n k) = s.info (slotIdx n k) := fun k low high => by
    rw [info, Function.update_of_ne]
    rw [h.held]
    intro same
    have equal := eq_of_slotIdx_eq same high.le (by omega)
    omega
  have notHere : ∀ k, s.taken.length ≤ k → k < s.hooked.length →
      (t.info (slotIdx n k)).skb ≠ (t.info (slotIdx n s.hooked.length)).skb := by
    intro k low high same
    rw [here, before k low high] at same
    exact new ⟨_, h.posted_iff.mpr ⟨k, low, high, rfl⟩, same⟩
  refine ⟨t, post, ⟨?_, ?_, ?_, ?_, ?_, ?_, ?_, ?_, ?_, ?_⟩, taken, logs⟩
  · intro i hi
    rw [← h.circle i hi]
    show (t.info i).next = (s.info i).next
    rw [info]
    by_cases at' : i = s.rxUsingPtr
    · rw [at', Function.update_self, next_eq]
      rfl
    · rw [Function.update_of_ne at']
  · rw [taken, length]
    omega
  · rw [taken, length]
    omega
  · rw [start, taken, h.start]
  · rw [last, length]
  · rw [held, length]
  · rw [length, List.range_succ, List.map_append, ← h.hooked, hooked, List.map_append, h.held]
    rfl
  · rw [taken]
    exact h.taken
  · intro k low high
    rw [taken] at low
    rw [length] at high
    obtain old | rfl := Nat.lt_succ_iff_lt_or_eq.mp high
    · rw [before k low old]
      obtain ⟨x, there, used⟩ := h.slot k low old
      exact ⟨x, there, inUse' x used⟩
    · exact ⟨skb, here, inUse' skb inUse⟩
  · intro k l lowk highk lowl highl same
    rw [taken] at lowk lowl
    rw [length] at highk highl
    obtain oldk | rfl := Nat.lt_succ_iff_lt_or_eq.mp highk
    · obtain oldl | rfl := Nat.lt_succ_iff_lt_or_eq.mp highl
      · rw [before k lowk oldk, before l lowl oldl] at same
        exact h.distinct k l lowk oldk lowl oldl same
      · exact absurd same (notHere k lowk oldk)
    · obtain oldl | rfl := Nat.lt_succ_iff_lt_or_eq.mp highl
      · exact absurd same.symm (notHere l lowl oldl)
      · rfl

/-- A packet is handed over, and a new buffer is posted. -/
theorem RxRing.handOver (h : RxRing n (gap + 1) s) (pos : 0 < n) {handler : SkbPool → SkbPool}
    {pktLen : ℕ} (inUse : ¬ s.pool.Unused skb) (old : ¬ s.InRing skb)
    (keeps : ∀ p x, ¬ p.Unused x → s.InRing x ∨ s.pool.Unused x → ¬ (handler p).Unused x)
    (returns : s.handOver handler pktLen skb = some t) :
    RxRing n gap t ∧ t.taken = s.taken ∧
      t.received.map Received.skb = s.received.map Received.skb ++ [skb] ∧ t.freed = s.freed ∧
      t.reposted = s.reposted := by
  rw [QdmaRx.handOver] at returns
  cases alloc : s.pool.allocSkb skbuffSize with
  | none =>
      rw [alloc] at returns
      cases returns
  | some out =>
      obtain ⟨x, pool⟩ := out
      obtain ⟨new, rfl, -, -⟩ := SkbPool.allocSkb_some alloc
      obtain ⟨unused, used, others⟩ := SkbPool.allocSkb_spec alloc
      rw [alloc] at returns
      obtain rfl := Option.some.inj returns
      have different : new ≠ skb := fun same => inUse (same ▸ unused)
      have inRing_ne : ∀ y, s.InRing y → y ≠ skb := fun y hy same => old (same ▸ hy)
      -- Neither the protocol layers nor `free_skb` change these buffers.
      have still : ∀ y ≠ skb, ¬ pool.Unused y → s.InRing y ∨ s.pool.Unused y →
          ¬ ((handler (pool.setLen skb pktLen)).freeSkb skb).Unused y := by
        intro y hy busy reserved
        rw [SkbPool.Unused, SkbPool.freeSkb, SkbPool.skbuff_headerinit_of_ne hy]
        apply keeps _ y _ reserved
        rw [SkbPool.Unused, SkbPool.setLen, SkbPool.skbuff_modify_of_ne hy]
        exact busy
      have newUsed : ¬ pool.Unused new := not_not.mpr used
      have kept : ∀ y, s.InRing y → ¬ pool.Unused y := fun y hy => by
        have other : y ≠ new := fun same => h.inUse hy (same ▸ unused)
        rw [SkbPool.Unused, others y other]
        exact h.inUse hy
      have ring : RxRing n (gap + 1)
          (ethRcv handler skb { s with pool := pool.setLen skb pktLen }) :=
        h.pool fun y hy => still y (inRing_ne y hy) (kept y hy) (.inl hy)
      have fresh : ¬ (ethRcv handler skb { s with pool := pool.setLen skb pktLen }).InRing new :=
        fun mem => h.inUse mem unused
      obtain ⟨t, hooked, ring', taken, received, freed, reposted⟩ :=
        ring.hook pos (still new different newUsed (.inr unused)) fresh
      rw [post, if_pos ((ring.hasFree_iff pos).mpr (Nat.succ_ne_zero gap)), hooked]
      refine ⟨ring', taken, ?_, freed, reposted⟩
      rw [received]
      exact List.map_append

/-- A completed descriptor at the start is one that is posted. -/
theorem RxRing.ready (h : RxRing n gap s) (ready : s.Ready) :
    s.taken.length < s.hooked.length := by
  obtain ⟨i, -, different, -⟩ := ready
  apply Nat.lt_of_le_of_ne h.order
  intro same
  rw [h.start, h.last, same] at different
  exact different rfl

/-- A round takes the descriptor at the start. If it has an address and a length, its buffer
is handed over and a new one posted; otherwise there is one buffer less in the ring. -/
theorem RxRing.receiveNext (h : RxRing n gap s) (pos : 0 < n) {handler : SkbPool → SkbPool}
    {goOn : Bool} (ready : s.Ready) (keeps : goOn = true → s.KeepsReserved handler)
    (round : s.receiveNext handler = some (goOn, t)) :
    ∃ d : Taken, t.taken = s.taken ++ [d] ∧ t.freed = s.freed ∧ t.reposted = s.reposted ∧
      if d.dscp.WellFormed then
        RxRing n gap t ∧ t.received.map Received.skb = s.received.map Received.skb ++ [d.skb]
      else RxRing n (gap + 1) t ∧ t.received = s.received := by
  have more := h.ready ready
  have fits := h.fits
  obtain ⟨skb, there, inUse⟩ := h.slot _ le_rfl more
  have ring := h.take pos more skb
  use ⟨slotIdx n s.taken.length, (s.info (slotIdx n s.taken.length)).dscp, skb⟩
  simp only [QdmaRx.receiveNext, h.start, there] at round
  by_cases good : (s.info (slotIdx n s.taken.length)).dscp.WellFormed
  · rw [if_pos good] at round ⊢
    obtain ⟨u, returns, same⟩ := Option.map_eq_some_iff.mp round
    cases same
    -- The descriptors posted in the state after the take.
    have posted : ∀ i, (s.take (slotIdx n s.taken.length) skb).Posted i →
        s.Posted i ∧ i ≠ slotIdx n s.taken.length := by
      intro i flying
      obtain ⟨k, low, high, rfl⟩ := ring.posted_iff.mp flying
      have length : (s.take (slotIdx n s.taken.length) skb).taken.length = s.taken.length + 1 :=
        List.length_append
      rw [length] at low
      have high : k < s.hooked.length := high
      refine ⟨h.posted_iff.mpr ⟨k, Nat.le_of_succ_le low, high, rfl⟩, fun same => ?_⟩
      have equal := eq_of_slotIdx_eq same.symm (Nat.le_of_succ_le low) (by omega)
      omega
    have old : ¬ (s.take (slotIdx n s.taken.length) skb).InRing skb := by
      rintro ⟨i, flying, same⟩
      obtain ⟨before, other⟩ := posted i flying
      obtain ⟨k, low, high, rfl⟩ := h.posted_iff.mp before
      have equal := h.distinct k _ low high le_rfl more (same.trans there.symm)
      exact other (equal ▸ rfl)
    obtain ⟨ring', taken, received, freed, reposted⟩ := ring.handOver pos inUse old
      (fun p x busy reserved => keeps rfl p x busy (reserved.imp_left fun ⟨i, flying, slot⟩ =>
        ⟨i, h.start ▸ fun same => (posted i flying).2 (Option.some.inj same),
          (posted i flying).1, slot⟩)) returns
    exact ⟨taken, freed, reposted, ring', received⟩
  · rw [if_neg good] at round ⊢
    cases round
    exact ⟨rfl, rfl, rfl, ring, rfl⟩

/-- The descriptors taken that had no address or no length. -/
def lost (s : QdmaRx) : List Taken := s.taken.filter fun d => ¬ d.dscp.WellFormed

/-- The ring has lost a buffer for each of them, and the other buffers have been handed
over. -/
structure Balanced (n : ℕ) (s : QdmaRx) : Prop where
  ring : RxRing n s.lost.length s
  received : s.received.map Received.skb =
    (s.taken.filter fun d => d.dscp.WellFormed).map Taken.skb
  freed : s.freed = []
  reposted : s.reposted = []

/-- A round of `qdma_bm_receive_packets`. -/
theorem Balanced.receiveNext (h : s.Balanced n) (pos : 0 < n) {handler : SkbPool → SkbPool}
    {goOn : Bool} (ready : s.Ready) (keeps : goOn = true → s.KeepsReserved handler)
    (round : s.receiveNext handler = some (goOn, t)) : t.Balanced n := by
  obtain ⟨d, taken, freed, reposted, rest⟩ := h.ring.receiveNext pos ready keeps round
  by_cases good : d.dscp.WellFormed
  · rw [if_pos good] at rest
    have lost : t.lost = s.lost := by
      rw [QdmaRx.lost, taken, List.filter_append, List.filter_singleton]
      simp [good, QdmaRx.lost]
    refine ⟨lost ▸ rest.1, ?_, freed.trans h.freed, reposted.trans h.reposted⟩
    rw [rest.2, h.received, taken, List.filter_append, List.filter_singleton, List.map_append]
    simp [good]
  · rw [if_neg good] at rest
    have lost : t.lost = s.lost ++ [d] := by
      rw [QdmaRx.lost, taken, List.filter_append, List.filter_singleton]
      simp [good, QdmaRx.lost]
    refine ⟨?_, ?_, freed.trans h.freed, reposted.trans h.reposted⟩
    · rw [lost, List.length_append]
      exact rest.1
    · rw [rest.2, h.received, taken, List.filter_append, List.filter_singleton]
      simp [good]

/-- What happens besides the driver. -/
theorem Balanced.outside (h : s.Balanced n) (out : Outside s t) : t.Balanced n := by
  obtain ⟨dscp⟩ | ⟨pool, keeps⟩ := out
  · exact {
      ring := ⟨h.ring.circle, h.ring.order, h.ring.fits, h.ring.start, h.ring.last, h.ring.held,
        h.ring.hooked, h.ring.taken, h.ring.slot, h.ring.distinct⟩
      received := h.received
      freed := h.freed
      reposted := h.reposted }
  · exact ⟨h.ring.pool keeps, h.received, h.freed, h.reposted⟩

/-- A call of `qdma_bm_receive_packets`. -/
theorem Balanced.receivePackets {maxPkts cnt pktCount count : ℕ} (h : s.Balanced n) (pos : 0 < n)
    (call : ReceivePackets maxPkts cnt pktCount s count t) : t.Balanced n := by
  induction call with
  | ret => exact h
  | incorrect handler ready round =>
      exact h.receiveNext pos ready (fun never => absurd never Bool.false_ne_true) round
  | last handler ready keeps round => exact h.receiveNext pos ready (fun _ => keeps) round
  | more handler ready keeps round _ _ ih =>
      exact ih (h.receiveNext pos ready (fun _ => keeps) round)
  | meanwhile outside _ ih => exact ih (h.outside outside)

/-- The states that are reached. -/
theorem Balanced.reaches (h : s.Balanced n) (pos : 0 < n) (run : Reaches s t) : t.Balanced n := by
  induction run with
  | refl => exact h
  | tail _ step ih =>
      cases step with
      | receivePackets maxPkts count call => exact ih.receivePackets pos call
      | outside outside => exact ih.outside outside

/-- The ring is full exactly if nothing has been lost. -/
theorem Balanced.full_iff (h : s.Balanced n) (two : 2 ≤ n) :
    s.Full n ↔ ∀ d ∈ s.taken, d.dscp.WellFormed := by
  have pos : 0 < n := Nat.zero_lt_of_lt two
  have fits := h.ring.fits
  have order := h.ring.order
  have count := h.ring.count_posted pos
  constructor
  · intro full d mem
    have whole := full.count
    have none : s.lost = [] := List.eq_nil_of_length_eq_zero (by omega)
    have good := List.filter_eq_nil_iff.mp none d mem
    simpa using good
  · intro good
    have none : s.lost = [] := List.filter_eq_nil_iff.mpr fun d mem => by simpa using good d mem
    rw [none] at fits
    have whole : s.hooked.length = s.taken.length + (n - 1) := fits
    constructor
    · omega
    · refine ⟨h.ring.last.trans (congrArg some h.ring.held.symm), ?_, ?_⟩
      · rw [h.ring.posted_iff, h.ring.held]
        rintro ⟨k, low, high, same⟩
        have equal := eq_of_slotIdx_eq same high.le (by omega)
        omega
      · have around : s.hooked.length + 1 = s.taken.length + n := by omega
        rw [h.ring.held, h.ring.circle _ (slotIdx_lt pos _), nextIdx_slotIdx pos, around,
          slotIdx_add, h.ring.start]
    · intro i posted
      obtain ⟨k, low, high, rfl⟩ := h.ring.posted_iff.mp posted
      exact h.ring.slot k low high
    · intro i j posted posted' same
      obtain ⟨k, low, high, rfl⟩ := h.ring.posted_iff.mp posted
      obtain ⟨l, low', high', rfl⟩ := h.ring.posted_iff.mp posted'
      rw [h.ring.distinct k l low high low' high' same]
    · have all : (s.taken.filter fun d => d.dscp.WellFormed) = s.taken :=
        List.filter_eq_self.mpr fun d mem => decide_eq_true (good d mem)
      rw [h.received, all, h.freed, h.reposted, List.append_nil, List.append_nil]

/-! ## The ring after `qdma_bm_dscp_init` -/

/-- A node comes into the circle behind the start, and becomes the start. -/
theorem addRxDscp_of_some (start : s.rxStartPtr = some j) :
    s.addRxDscp i = { (s.setInfo i { s.info i with next := s.next j }).setInfo j
      { (s.setInfo i { s.info i with next := s.next j }).info j with next := some i } with
      rxStartPtr := some i } := by
  simp only [addRxDscp, start]

/-- The nodes are linked into a circle. -/
theorem foldl_initNode (pool : SkbPool) (k : ℕ) :
    let s := (List.range (k + 1)).foldl initNode (zeroed pool)
    (∀ i < k + 1, s.next i = some (nextIdx (k + 1) i)) ∧ s.rxStartPtr = some k ∧
      s.rxEndPtr = none ∧ s.hooked = [] ∧ s.taken = [] ∧ s.received = [] ∧ s.freed = [] ∧
      s.reposted = [] := by
  induction k with
  | zero =>
      refine ⟨fun i hi => ?_, rfl, rfl, rfl, rfl, rfl, rfl, rfl⟩
      obtain rfl : i = 0 := by omega
      rfl
  | succ k ih =>
      rw [List.range_succ, List.foldl_append]
      generalize (List.range (k + 1)).foldl initNode (zeroed pool) = p at ih
      obtain ⟨circle, start, last, logs⟩ := ih
      have added : [k + 1].foldl initNode p = _ := addRxDscp_of_some (i := k + 1)
        (s := p.setInfo (k + 1) { p.info (k + 1) with dscpIdx := k + 1, next := none }) start
      rw [added]
      intro s
      refine ⟨fun i hi => ?_, rfl, last, logs⟩
      show QdmaRx.next (setInfo k _ _) i = _
      rw [next_setInfo, next_setInfo, next_setInfo]
      by_cases atStart : i = k
      · rw [atStart, Function.update_self, nextIdx, if_neg (by omega)]
      · rw [Function.update_of_ne atStart]
        by_cases new : i = k + 1
        · have other : k ≠ k + 1 := by omega
          rw [new, Function.update_self]
          show Function.update p.next (k + 1) none k = _
          rw [Function.update_of_ne other, circle k (by omega), nextIdx_last, nextIdx_last]
        · rw [Function.update_of_ne new, Function.update_of_ne new, circle i (by omega), nextIdx,
            nextIdx, if_neg (by omega), if_neg (by omega)]

/-- Buffers are posted until there is no descriptor for another one. -/
theorem RxRing.postBuffers (pos : 0 < n) (h : RxRing n (gap + 1) s) (first : s.taken = [])
    (received : s.received = []) (freed : s.freed = []) (reposted : s.reposted = []) {fuel : ℕ}
    (returns : s.postBuffers fuel = some t) : t.Balanced n ∧ t.taken = [] := by
  induction fuel generalizing s gap with
  | zero => cases returns
  | succ fuel ih =>
      rw [QdmaRx.postBuffers, prepareRxBuffer] at returns
      cases alloc : s.pool.allocSkb skbuffSize with
      | none =>
          simp only [alloc] at returns
          cases returns
      | some out =>
          obtain ⟨x, pool⟩ := out
          obtain ⟨new, rfl, -, -⟩ := SkbPool.allocSkb_some alloc
          obtain ⟨unused, used, others⟩ := SkbPool.allocSkb_spec alloc
          have ring : RxRing n (gap + 1) { s with pool := pool } := h.pool fun y hy => by
            have other : y ≠ new := fun same => h.inUse hy (same ▸ unused)
            rw [SkbPool.Unused, others y other]
            exact h.inUse hy
          have busy : ¬ pool.Unused new := not_not.mpr used
          obtain ⟨u, hooked, ring', logs⟩ := ring.hook pos busy fun mem => h.inUse mem unused
          obtain ⟨taken', received', freed', reposted'⟩ := logs
          simp only [alloc, hooked] at returns
          rw [first] at taken'
          by_cases more : u.HasFree
          · rw [if_pos more] at returns
            obtain ⟨gap, rfl⟩ := Nat.exists_eq_succ_of_ne_zero ((ring'.hasFree_iff pos).mp more)
            exact ih ring' taken' (received'.trans received) (freed'.trans freed)
              (reposted'.trans reposted) returns
          · rw [if_neg more] at returns
            cases returns
            obtain rfl : gap = 0 := not_not.mp fun missing =>
              more ((ring'.hasFree_iff pos).mpr missing)
            refine ⟨⟨?_, ?_, freed'.trans freed, reposted'.trans reposted⟩, taken'⟩
            · rw [lost, taken']
              exact ring'
            · rw [received', received, taken']
              rfl

/-- The ring after `qdma_bm_dscp_init`. -/
theorem Balanced.dscpInit {fuel : ℕ} {pool : SkbPool} (two : 2 ≤ n)
    (init : QdmaRx.dscpInit n fuel pool = some s) : s.Balanced n ∧ s.taken = [] := by
  obtain ⟨m, rfl⟩ : ∃ m, n = m + 2 := ⟨n - 2, by omega⟩
  have linked := foldl_initNode pool (m + 1)
  rw [QdmaRx.dscpInit] at init
  generalize (List.range (m + 2)).foldl initNode (zeroed pool) = p at init linked
  obtain ⟨circle, start, last, hooked, taken, received, freed, reposted⟩ := linked
  have first : p.getUnusedRxDscp = (some (m + 1), { p with rxEndPtr := some (m + 1) }) := by
    simp only [getUnusedRxDscp, start, last]
  have place : slotIdx (m + 2) 0 = m + 1 := Nat.mod_eq_of_lt (Nat.lt_succ_self _)
  rw [first] at init
  have ring : RxRing (m + 2) (m + 1) { p with rxEndPtr := some (m + 1), rxUsingPtr := m + 1 } := by
    constructor
    · exact circle
    · exact taken ▸ Nat.zero_le _
    · show p.hooked.length + (m + 1) = p.taken.length + (m + 1)
      rw [hooked, taken]
      rfl
    · show p.rxStartPtr = some (slotIdx _ p.taken.length)
      rw [start, taken, List.length_nil, place]
    · show some (m + 1) = some (slotIdx _ p.hooked.length)
      rw [hooked, List.length_nil, place]
    · show m + 1 = slotIdx _ p.hooked.length
      rw [hooked, List.length_nil, place]
    · show p.hooked.map _ = (List.range p.hooked.length).map _
      rw [hooked]
      rfl
    · show p.taken.map _ = (List.range p.taken.length).map _
      rw [taken]
      rfl
    · intro k _ high
      have high : k < p.hooked.length := high
      rw [hooked] at high
      exact absurd high (Nat.not_lt_zero k)
    · intro k l _ high
      have high : k < p.hooked.length := high
      rw [hooked] at high
      exact absurd high (Nat.not_lt_zero k)
  exact ring.postBuffers (Nat.succ_pos _) taken received freed reposted init

end Ring

/-- In every state that is reached from the initialised ring, the ring is full if and only if
every descriptor taken so far had an address and a length. -/
theorem receivePackets_full_iff {n fuel : ℕ} {pool : SkbPool} {start s : QdmaRx} (two : 2 ≤ n)
    (init : dscpInit n fuel pool = some start) (run : Reaches start s) :
    s.Full n ↔ ∀ d ∈ s.taken, d.dscp.WellFormed :=
  ((Balanced.dscpInit two init).1.reaches (Nat.zero_lt_of_lt two) run).full_iff two

/-- A ring of two descriptors, initialised with no buffer in use. -/
def twoNodes : QdmaRx := (dscpInit 2 2 ⟨fun _ => skbHeaderinit 0, 0⟩).get (by decide +kernel)

/-- The engine has completed the descriptor at the start of that ring, with this length. -/
def completed (pktLen : BitVec 16) : QdmaRx :=
  { twoNodes with info := fun i => { twoNodes.info i with dscp := ⟨true, pktLen, some ⟨0, 0⟩, 0⟩ } }

/-- The next call takes it. -/
theorem completed_ready (pktLen : BitVec 16) : (completed pktLen).Ready :=
  ⟨1, show twoNodes.rxStartPtr = some 1 by decide +kernel,
    show twoNodes.rxStartPtr ≠ twoNodes.rxEndPtr by decide +kernel, rfl⟩

/-- A packet of 60 bytes is handed over, and the ring stays full. -/
theorem receivePackets_full_iff_two :
    ∃ s, Reaches twoNodes s ∧ s.received.length = 1 ∧ s.Full 2 := by
  let out := ((completed 60#16).receiveNext id).get (by decide +kernel)
  have round : (completed 60#16).receiveNext id = some (true, out.2) := by
    rw [show (true, out.2) = out from Prod.ext (by decide +kernel) rfl]
    exact (Option.some_get _).symm
  have run : Reaches twoNodes out.2 :=
    .tail (.single (.outside (.engine _))) (.receivePackets 1 1
      (.last id (completed_ready _) (fun _ _ busy _ => busy) round ⟨by decide, rfl⟩))
  use out.2, run
  constructor
  · decide +kernel
  · apply (receivePackets_full_iff (by decide) (Option.some_get _).symm run).mpr
    decide +kernel

/-- A descriptor without a length is taken, and the ring has lost its buffer. -/
theorem zeroLength_not_full :
    ∃ s, Reaches twoNodes s ∧ ¬ s.Full 2 := by
  let out := ((completed 0#16).receiveNext id).get (by decide +kernel)
  have round : (completed 0#16).receiveNext id = some (false, out.2) := by
    rw [show (false, out.2) = out from Prod.ext (by decide +kernel) rfl]
    exact (Option.some_get _).symm
  use out.2
  constructor
  · exact .tail (.single (.outside (.engine _))) (.receivePackets 16 1
      (.incorrect id (completed_ready _) round))
  · intro full
    have none : ((List.range 2).filter fun i => out.2.Posted i).length = 0 := by decide +kernel
    exact absurd (none.symm.trans full.count) (by decide)

end QdmaRx

end En7512.Net
