/-
# Receiving frames from the GMAC ring

`macRxRingProc` takes the descriptors that the engine has given back, in order. A frame
without errors and of a sensible length goes to `eth_rcv` in the buffer it was received in,
and the slot gets a new buffer; any other frame leaves its buffer in the slot. Either way
the descriptor goes back to the engine.

While a frame is handed over the protocol layers run. They may take and free buffers, but
they have no pointer to a buffer in the ring.
-/

import En7512.Net.GmacTx
import En7512.Net.SkBuff
import Mathlib.Data.List.Forall2
import Mathlib.Logic.Relation

namespace En7512.Net

open En7512.Logic En7512.Nand

/-! ## The driver -/

/-- The part of a `macRxDescr_t` that the driver uses. -/
structure MacRxDescr where
  rdes0 : BitVec 32
  rdes1 : BitVec 32
  /-- `rdes2`. -/
  rxbufAddr : Option BufAddr

/-- The descriptor belongs to the engine. -/
def MacRxDescr.owner (d : MacRxDescr) : Bool := d.rdes0.getLsbD 31

/-- A call of `eth_rcv`: the buffer, its `len`, and its bytes from `data` on. -/
structure Received where
  skb : Skb
  len : ℕ
  data : Bytes

/-- The receive half of `macAdapter_t`, the register, the packet buffers, and what has been
done with them so far. -/
structure MacRx where
  descr : ℕ → MacRxDescr
  rxskbs : ℕ → Option Skb
  rxCurrentDescp : ℕ
  /-- `CR_GMAC_GRTPR`. -/
  grtpr : BitVec 32
  pool : SkbPool
  received : List Received
  /-- The buffers taken from `alloc_skb`, and those freed by `eth_rcv`. -/
  log : List SkbPool.Event

/-- `rdes0.bits.rx_length`. -/
def rxLength (rdes0 : BitVec 32) : ℕ := (rdes0 &&& 0x7ff#32).toNat

/-- `rdes0_error_check`. -/
def rdes0ErrorCheck : BitVec 32 :=
  1#32 <<< 22 ||| 1#32 <<< 21 ||| 1#32 <<< 20 ||| 1#32 <<< 19 ||| 1#32 <<< 18

/-- `rdes1_error_check`. -/
def rdes1ErrorCheck : BitVec 32 := 1#32 <<< 28 ||| 1#32 <<< 27

/-- `frameSize`: when a VLAN tag has been taken out, at least 60. -/
def frameSize (rdes0 : BitVec 32) : ℕ :=
  if rdes0 &&& 1#32 <<< 30 ≠ 0#32 then if rxLength rdes0 > 60 then rxLength rdes0 else 60
  else rxLength rdes0

/-- The descriptor has no error bit. -/
def ErrorFree (rdes0 rdes1 : BitVec 32) : Prop :=
  rdes0 &&& rdes0ErrorCheck = 0#32 ∧ rdes1 &&& rdes1ErrorCheck = 0#32

instance (rdes0 rdes1 : BitVec 32) : Decidable (ErrorFree rdes0 rdes1) :=
  inferInstanceAs (Decidable (_ ∧ _))

/-- The frame is to be handed over. -/
def GoodFrame (rdes0 rdes1 : BitVec 32) : Prop :=
  ErrorFree rdes0 rdes1 ∧ 60 ≤ frameSize rdes0 ∧ frameSize rdes0 ≤ 1518

instance (rdes0 rdes1 : BitVec 32) : Decidable (GoodFrame rdes0 rdes1) :=
  inferInstanceAs (Decidable (_ ∧ _))

namespace MacRx

/-- `macDrvDescripInit` for one receive descriptor, if it gets a buffer. -/
def initSlot (s : MacRx) (i : ℕ) : Option MacRx := do
  let (skb, pool) ← s.pool.allocSkb skbuffSize
  let skb ← skb
  let pool := pool.skbReserve skb 2
  return { s with
    descr := Function.update s.descr i ⟨ownerBit, 1776#32, some (pool.dataAddr skb)⟩
    rxskbs := Function.update s.rxskbs i (some skb)
    pool := pool
    log := s.log ++ [.handedOut skb] }

/-- `macDrvDescripInit` for a ring of `n` receive descriptors, with the register as
`macSetDMADescrCtrlReg` leaves it. -/
def macDrvDescripInit (n : ℕ) (pool : SkbPool) : Option MacRx :=
  (List.range n).foldlM initSlot
    ⟨fun _ => ⟨0, 0, none⟩, fun _ => none, 0, 0x8000#32, pool, [], []⟩

/-- `eth_rcv`. What the protocol layers do with the buffers is `handler`. -/
def ethRcv (handler : SkbPool → SkbPool) (skb : Skb) (s : MacRx) : MacRx :=
  let b := s.pool.skbuff skb
  { s with
    received := s.received ++ [⟨skb, b.len, fun i => b.buf (b.data + i)⟩]
    pool := (handler s.pool).freeSkb skb
    log := s.log ++ [.freed skb] }

/-- The label `RECVOK` of `macRxRingProc`. -/
def recvOk (i : ℕ) (newMbp : Skb) (s : MacRx) : MacRx :=
  { s with
    descr := Function.update s.descr i
      { s.descr i with rxbufAddr := some (s.pool.dataAddr newMbp) }
    rxskbs := Function.update s.rxskbs i (some newMbp) }

/-- A frame of the right length is handed over, if `alloc_skb` returns. -/
def deliver (handler : SkbPool → SkbPool) (i : ℕ) (oldMbp : Skb) (size : ℕ) (s : MacRx) :
    Option MacRx :=
  match (s.pool.setLen oldMbp size).allocSkb skbuffSize with
  | none => none
  | some (none, pool) => some ({ s with pool := pool }.recvOk i oldMbp)
  | some (some newMbp, pool) =>
      let s : MacRx :=
        { s with pool := pool.skbReserve newMbp 2, log := s.log ++ [.handedOut newMbp] }
      some ((s.ethRcv handler oldMbp).recvOk i newMbp)

/-- What `macRxRingProc` does with the frame of the current descriptor. -/
def rxFrame (handler : SkbPool → SkbPool) (s : MacRx) : Option MacRx :=
  let i := s.rxCurrentDescp
  let d := s.descr i
  if ErrorFree d.rdes0 d.rdes1 then
    match s.rxskbs i with
    | none => none
    | some oldMbp =>
        let size := frameSize d.rdes0
        if size < 60 ∨ size > 1518 then some (s.recvOk i oldMbp)
        else s.deliver handler i oldMbp size
  else some s

/-- The descriptor goes back to the engine, and the next one becomes the current one. -/
def handBack (n : ℕ) (s : MacRx) : MacRx :=
  let i := s.rxCurrentDescp
  { s with
    descr := Function.update s.descr i
      { s.descr i with rdes0 := (s.descr i).rdes0 ||| ownerBit }
    grtpr := MacTx.nextReg n i s.grtpr
    rxCurrentDescp := nextIdx n i }

/-- A round of the loop of `macRxRingProc`. -/
def rxRound (n : ℕ) (handler : SkbPool → SkbPool) (s : MacRx) : Option MacRx :=
  (s.rxFrame handler).map (handBack n)

/-- The buffer is in use, and in a slot of the ring other than the current one or taken for
that one since. -/
def Reserved (n : ℕ) (s : MacRx) (p : SkbPool) (skb : Skb) : Prop :=
  ¬ p.Unused skb ∧
    ((∃ i < n, i ≠ s.rxCurrentDescp ∧ s.rxskbs i = some skb) ∨ s.pool.Unused skb)

/-- The protocol layers leave the buffers of the ring alone. -/
def KeepsReserved (n : ℕ) (s : MacRx) (handler : SkbPool → SkbPool) : Prop :=
  ∀ p skb, s.Reserved n p skb → (handler p).skbuff skb = p.skbuff skb

/-! ## The slots -/

/-- Each of these slots has its own buffer, in use, at the address in the descriptor, and it
has not been freed since it was taken from `alloc_skb`. -/
structure Slots (I : Set ℕ) (s : MacRx) : Prop where
  posted : ∀ i ∈ I, ∃ skb, s.rxskbs i = some skb ∧ (s.pool.skbuff skb).used = 1 ∧
    (s.descr i).rxbufAddr = some (s.pool.dataAddr skb) ∧ SkbPool.Out s.log skb
  distinct : ∀ i ∈ I, ∀ j ∈ I, s.rxskbs i = s.rxskbs j → i = j

/-- A buffer has been put into a slot, and those in the slots `I` are as before. -/
structure Put (I : Set ℕ) (i : ℕ) (skb : Skb) (s s' : MacRx) : Prop where
  rxskbs : s'.rxskbs = Function.update s.rxskbs i (some skb)
  rxbufAddr : (s'.descr i).rxbufAddr = some (s'.pool.dataAddr skb)
  descr : ∀ j ≠ i, s'.descr j = s.descr j
  used : (s'.pool.skbuff skb).used = 1
  out : SkbPool.Out s'.log skb
  fresh : ∀ j ∈ I, s.rxskbs j ≠ some skb
  kept : ∀ j ∈ I, ∀ other, s.rxskbs j = some other →
    s'.pool.skbuff other = s.pool.skbuff other ∧
      (SkbPool.Out s.log other → SkbPool.Out s'.log other)

section Slots

variable {I : Set ℕ} {i n : ℕ} {skb : Skb} {s s' : MacRx}

theorem Slots.put (h : s.Slots I) (put : Put I i skb s s') (new : i ∉ I) :
    s'.Slots (insert i I) := by
  have others : ∀ j ∈ I, j ≠ i := fun j hj same => new (same ▸ hj)
  have slot : s'.rxskbs i = some skb := by rw [put.rxskbs, Function.update_self]
  have slots : ∀ j ∈ I, s'.rxskbs j = s.rxskbs j := fun j hj => by
    rw [put.rxskbs, Function.update_of_ne (others j hj)]
  constructor
  · rintro j (rfl | hj)
    · exact ⟨skb, slot, put.used, put.rxbufAddr, put.out⟩
    · obtain ⟨other, there, used, addr, out⟩ := h.posted j hj
      obtain ⟨same, still⟩ := put.kept j hj other there
      use other
      rw [slots j hj, put.descr j (others j hj), SkbPool.dataAddr, same]
      exact ⟨there, used, addr, still out⟩
  · rintro j (rfl | hj) k (rfl | hk) same
    · rfl
    · rw [slot, slots k hk] at same
      exact absurd same.symm (put.fresh k hk)
    · rw [slot, slots j hj] at same
      exact absurd same (put.fresh j hj)
    · rw [slots j hj, slots k hk] at same
      exact h.distinct j hj k hk same

/-- The slots depend on nothing else. -/
theorem Slots.congr {t : MacRx} (h : s.Slots I) (slots : t.rxskbs = s.rxskbs) (log : t.log = s.log)
    (addr : ∀ i ∈ I, (t.descr i).rxbufAddr = (s.descr i).rxbufAddr)
    (pool : ∀ i ∈ I, ∀ skb, s.rxskbs i = some skb →
      (t.pool.skbuff skb).used = (s.pool.skbuff skb).used ∧
        (t.pool.skbuff skb).data = (s.pool.skbuff skb).data) : t.Slots I := by
  constructor
  · intro i hi
    obtain ⟨skb, there, used, at', out⟩ := h.posted i hi
    obtain ⟨sameUsed, sameData⟩ := pool i hi skb there
    use skb
    rw [slots, log, addr i hi, SkbPool.dataAddr, sameUsed, sameData]
    exact ⟨there, used, at', out⟩
  · rw [slots]
    exact h.distinct

theorem Slots.mono {J : Set ℕ} (sub : J ⊆ I) (h : s.Slots I) : s.Slots J where
  posted i hi := h.posted i (sub hi)
  distinct i hi j hj := h.distinct i (sub hi) j (sub hj)

/-- `alloc_skb` returns a buffer that is in none of the slots. -/
theorem Slots.unused_fresh (h : s.Slots I) (unused : s.pool.Unused skb) :
    ∀ j ∈ I, s.rxskbs j ≠ some skb := by
  intro j hj there
  obtain ⟨other, same, used, -⟩ := h.posted j hj
  rw [there] at same
  cases same
  exact unused used

/-- A slot gets its first buffer. -/
theorem Slots.initSlot (h : s.Slots I) (new : i ∉ I) (returns : s.initSlot i = some s') :
    s'.Slots (insert i I) ∧ (s'.descr i).rdes0 = ownerBit ∧ (∀ j ≠ i, s'.descr j = s.descr j) ∧
      s'.rxCurrentDescp = s.rxCurrentDescp ∧ s'.received = s.received := by
  obtain ⟨⟨out, pool⟩, alloc, rest⟩ := Option.bind_eq_some_iff.mp returns
  obtain ⟨skb, rfl, -, -⟩ := SkbPool.allocSkb_some alloc
  obtain ⟨unused, used, kept⟩ := SkbPool.allocSkb_skbReserve alloc 2
  cases rest
  have fresh := h.unused_fresh unused
  refine ⟨h.put (show Put I i skb s _ from ?_) new, ?_, ?_, rfl, rfl⟩
  · exact {
      rxskbs := rfl
      rxbufAddr := by
        show (Function.update s.descr i _ i).rxbufAddr = _
        rw [Function.update_self]
      descr := fun j hj => Function.update_of_ne hj ..
      used := used
      out := SkbPool.out_append_handedOut
      fresh := fresh
      kept := fun j hj other there =>
        ⟨kept other fun same => fresh j hj (same ▸ there), fun out => out.append nofun⟩ }
  · show (Function.update s.descr i _ i).rdes0 = _
    rw [Function.update_self]
  · exact fun j hj => Function.update_of_ne hj ..

/-- The whole ring gets its buffers. -/
theorem Slots.foldlM_initSlot {t : MacRx} (empty : t.received = []) (first : t.rxCurrentDescp = 0)
    (n : ℕ) (returns : (List.range n).foldlM MacRx.initSlot t = some s) :
    s.Slots (Set.Iio n) ∧ (∀ i < n, (s.descr i).owner) ∧ s.rxCurrentDescp = 0 ∧
      s.received = [] := by
  induction n generalizing s with
  | zero =>
      cases returns
      refine ⟨⟨fun i hi => absurd hi (Nat.not_lt_zero i),
        fun i hi => absurd hi (Nat.not_lt_zero i)⟩,
        fun i hi => absurd hi (Nat.not_lt_zero i), first, empty⟩
  | succ n ih =>
      rw [List.range_succ, List.foldlM_append] at returns
      obtain ⟨m, before, last⟩ := Option.bind_eq_some_iff.mp returns
      obtain ⟨slots, owner, cur, rec⟩ := ih before
      have last : m.initSlot n = some s := by simpa using last
      obtain ⟨slots, rdes0, others, cur', rec'⟩ :=
        slots.initSlot (show n ∉ Set.Iio n from lt_irrefl n) last
      have bigger : Set.Iio (n + 1) = insert n (Set.Iio n) := by
        ext i
        exact Nat.lt_succ_iff_lt_or_eq.trans or_comm
      refine ⟨bigger ▸ slots, fun i hi => ?_, cur'.trans cur, rec'.trans rec⟩
      obtain before | rfl := Nat.lt_succ_iff_lt_or_eq.mp hi
      · rw [others i before.ne]
        exact owner i before
      · rw [MacRxDescr.owner, rdes0]
        decide

/-- At `RECVOK`, when the ring has not been touched before. -/
theorem put_recvOk {t : MacRx} (slots : t.rxskbs = s.rxskbs) (descr : t.descr = s.descr)
    (used : (t.pool.skbuff skb).used = 1) (out : SkbPool.Out t.log skb)
    (fresh : ∀ j ∈ I, s.rxskbs j ≠ some skb)
    (kept : ∀ j ∈ I, ∀ other, s.rxskbs j = some other →
      t.pool.skbuff other = s.pool.skbuff other ∧
        (SkbPool.Out s.log other → SkbPool.Out t.log other)) :
    Put I i skb s (t.recvOk i skb) where
  rxskbs := by rw [← slots]; rfl
  rxbufAddr := by
    show (Function.update t.descr i _ i).rxbufAddr = _
    rw [Function.update_self]
    rfl
  descr j hj := by
    show Function.update t.descr i _ j = _
    rw [Function.update_of_ne hj, descr]
  used := used
  out := out
  fresh := fresh
  kept := kept

/-- The buffers of the other slots. -/
theorem Slots.others_ne (h : s.Slots (Set.Iio n)) (inRing : i < n) (there : s.rxskbs i = some skb) :
    ∀ j ∈ Set.Iio n \ {i}, s.rxskbs j ≠ some skb :=
  fun j hj same => hj.2 (h.distinct j hj.1 i inRing (same.trans there.symm))

/-- The current slot keeps its buffer. -/
theorem Slots.put_same (h : s.Slots (Set.Iio n)) (inRing : i < n) (there : s.rxskbs i = some skb) :
    Put (Set.Iio n \ {i}) i skb s s := by
  obtain ⟨x, same, used, addr, out⟩ := h.posted i inRing
  rw [there] at same
  cases same
  exact {
    rxskbs := (Function.update_eq_self_iff.mpr there.symm).symm
    rxbufAddr := addr
    descr := fun _ _ => rfl
    used := used
    out := out
    fresh := h.others_ne inRing there
    kept := fun _ _ _ _ => ⟨rfl, id⟩ }

/-- A frame is handed over, and the slot gets a new buffer. -/
theorem Slots.deliver {handler : SkbPool → SkbPool} {size : ℕ} (h : s.Slots (Set.Iio n))
    (inRing : s.rxCurrentDescp < n) (there : s.rxskbs s.rxCurrentDescp = some skb)
    (keeps : s.KeepsReserved n handler)
    (returns : s.deliver handler s.rxCurrentDescp skb size = some s') :
    (∃ new, Put (Set.Iio n \ {s.rxCurrentDescp}) s.rxCurrentDescp new s s') ∧
      s'.rxCurrentDescp = s.rxCurrentDescp ∧ s'.received = s.received ++
        [⟨skb, size, fun b => (s.pool.skbuff skb).buf ((s.pool.skbuff skb).data + b)⟩] := by
  obtain ⟨x, same, inUse, -, -⟩ := h.posted _ inRing
  rw [there] at same
  cases same
  rw [MacRx.deliver] at returns
  cases alloc : (s.pool.setLen skb size).allocSkb skbuffSize with
  | none =>
      rw [alloc] at returns
      cases returns
  | some out =>
      obtain ⟨x, pool⟩ := out
      obtain ⟨new, rfl, -, -⟩ := SkbPool.allocSkb_some alloc
      obtain ⟨unused, used, kept⟩ := SkbPool.allocSkb_skbReserve alloc 2
      rw [alloc] at returns
      obtain rfl := Option.some.inj returns
      have other : new ≠ skb := by
        rintro rfl
        rw [SkbPool.Unused, SkbPool.setLen, SkbPool.skbuff_modify_self] at unused
        exact unused inUse
      have unused : s.pool.Unused new := by
        rw [SkbPool.Unused, SkbPool.setLen, SkbPool.skbuff_modify_of_ne other] at unused
        exact unused
      -- Neither the protocol layers nor `free_skb` change these buffers.
      have still : ∀ y ≠ skb, s.Reserved n (pool.skbReserve new 2) y →
          ((handler (pool.skbReserve new 2)).freeSkb skb).skbuff y =
            (pool.skbReserve new 2).skbuff y := fun y hy reserved => by
        rw [SkbPool.freeSkb, SkbPool.skbuff_headerinit_of_ne hy, keeps _ y reserved]
      have fresh : ∀ j ∈ Set.Iio n \ {s.rxCurrentDescp}, s.rxskbs j ≠ some new :=
        fun j hj => h.unused_fresh unused j hj.1
      refine ⟨⟨new, put_recvOk rfl rfl ?_ ?_ fresh ?_⟩, rfl, ?_⟩
      · show (((handler (pool.skbReserve new 2)).freeSkb skb).skbuff new).used = 1
        rw [still new other ⟨not_not.mpr used, .inr unused⟩]
        exact used
      · show SkbPool.Out (s.log ++ [.handedOut new] ++ [.freed skb]) new
        apply SkbPool.out_append_handedOut.append
        rintro ⟨⟩
        exact other rfl
      · intro j hj y slot
        have old : y ≠ skb := fun same => h.others_ne inRing there j hj (same ▸ slot)
        have before : y ≠ new := fun same => fresh j hj (same ▸ slot)
        have value : (pool.skbReserve new 2).skbuff y = s.pool.skbuff y := by
          rw [kept y before, SkbPool.setLen, SkbPool.skbuff_modify_of_ne old]
        obtain ⟨z, same, inUse, -, -⟩ := h.posted j hj.1
        rw [slot] at same
        cases same
        have reserved : s.Reserved n (pool.skbReserve new 2) y := by
          refine ⟨fun unused => unused ?_, .inl ⟨j, hj.1, hj.2, slot⟩⟩
          rw [value]
          exact inUse
        constructor
        · exact (still y old reserved).trans value
        · intro out
          show SkbPool.Out (s.log ++ [.handedOut new] ++ [.freed skb]) y
          apply (out.append (e := .handedOut new) fun same => SkbPool.Event.noConfusion same).append
          rintro ⟨⟩
          exact old rfl
      · show s.received ++ [_] = _
        rw [kept skb other.symm, SkbPool.setLen, SkbPool.skbuff_modify_self]

/-- The frame of the current descriptor: a good one is handed over, and any other leaves its
buffer in the slot. -/
theorem Slots.rxFrame {handler : SkbPool → SkbPool} (h : s.Slots (Set.Iio n))
    (inRing : s.rxCurrentDescp < n) (there : s.rxskbs s.rxCurrentDescp = some skb)
    (keeps : s.KeepsReserved n handler) (returns : s.rxFrame handler = some s') :
    (∃ new, Put (Set.Iio n \ {s.rxCurrentDescp}) s.rxCurrentDescp new s s') ∧
      s'.rxCurrentDescp = s.rxCurrentDescp ∧ s'.received = s.received ++
        if GoodFrame (s.descr s.rxCurrentDescp).rdes0 (s.descr s.rxCurrentDescp).rdes1 then
          [⟨skb, frameSize (s.descr s.rxCurrentDescp).rdes0,
            fun b => (s.pool.skbuff skb).buf ((s.pool.skbuff skb).data + b)⟩]
        else [] := by
  have same := h.put_same inRing there
  rw [MacRx.rxFrame] at returns
  simp only [there] at returns
  by_cases free : ErrorFree (s.descr s.rxCurrentDescp).rdes0 (s.descr s.rxCurrentDescp).rdes1
  · rw [if_pos free] at returns
    split at returns
    · have bad : ¬ GoodFrame (s.descr s.rxCurrentDescp).rdes0 (s.descr s.rxCurrentDescp).rdes1 :=
        fun good => by have := good.2; omega
      obtain rfl := Option.some.inj returns
      refine ⟨⟨skb, put_recvOk rfl rfl same.used same.out same.fresh same.kept⟩, rfl, ?_⟩
      rw [if_neg bad]
      exact (List.append_nil _).symm
    · have good : GoodFrame (s.descr s.rxCurrentDescp).rdes0 (s.descr s.rxCurrentDescp).rdes1 :=
        ⟨free, by omega⟩
      rw [if_pos good]
      exact h.deliver inRing there keeps returns
  · rw [if_neg free] at returns
    obtain rfl := Option.some.inj returns
    refine ⟨⟨skb, same⟩, rfl, ?_⟩
    rw [if_neg fun good => free good.1]
    exact (List.append_nil _).symm

/-- The slots are not concerned when the descriptor goes back to the engine. -/
theorem Slots.handBack (h : s.Slots I) : (s.handBack n).Slots I := by
  refine h.congr (t := s.handBack n) rfl rfl ?_ fun _ _ _ _ => ⟨rfl, rfl⟩
  intro i _
  show (Function.update s.descr s.rxCurrentDescp _ i).rxbufAddr = _
  by_cases here : i = s.rxCurrentDescp
  · rw [here, Function.update_self]
  · rw [Function.update_of_ne here]

theorem owner_handBack : ((s.handBack n).descr s.rxCurrentDescp).owner := by
  show (Function.update s.descr s.rxCurrentDescp _ s.rxCurrentDescp).rdes0.getLsbD 31
  rw [Function.update_self]
  show ((s.descr s.rxCurrentDescp).rdes0 ||| ownerBit).getLsbD 31
  rw [BitVec.getLsbD_or, show ownerBit.getLsbD 31 = true by decide, Bool.or_true]

theorem descr_handBack_of_ne (h : i ≠ s.rxCurrentDescp) : (s.handBack n).descr i = s.descr i :=
  Function.update_of_ne h ..

end Slots

end MacRx

/-! ## The engine -/

/-- A frame that the engine has received: what it writes into the descriptor and, as many
bytes as it says there, into the buffer. -/
structure Completion where
  rdes0 : BitVec 32
  rdes1 : BitVec 32
  frame : Bytes

/-- The frame is to be handed over. -/
abbrev Completion.Good (c : Completion) : Prop := GoodFrame c.rdes0 c.rdes1

/-- The frame is what `eth_rcv` was given. -/
def Delivers (c : Completion) (x : Received) : Prop :=
  x.len = frameSize c.rdes0 ∧ ∀ b < rxLength c.rdes0, x.data b = c.frame b

/-- The driver and the engine, with the frames received so far and the number of them that
the driver has come to. -/
structure MacRxRun where
  rx : MacRx
  completed : List Completion
  processed : ℕ

namespace MacRxRun

/-- The engine receives a frame. -/
def complete (n : ℕ) (c : Completion) (r : MacRxRun) : MacRxRun :=
  let i := r.completed.length % n
  let d := r.rx.descr i
  let pool := match d.rxbufAddr with
    | none => r.rx.pool
    | some addr => r.rx.pool.modify addr.skb fun b =>
        { b with buf := overlay b.buf addr.offset c.frame (rxLength c.rdes0) }
  { r with
    rx := { r.rx with
      descr := Function.update r.rx.descr i { d with rdes0 := c.rdes0, rdes1 := c.rdes1 }
      pool := pool }
    completed := r.completed ++ [c] }

/-- The buffer is in a slot of the ring. -/
def InRing (n : ℕ) (r : MacRxRun) (skb : Skb) : Prop := ∃ i < n, r.rx.rxskbs i = some skb

/-- What happens outside `macRxRingProc`. -/
inductive Outside (n : ℕ) (r : MacRxRun) : MacRxRun → Prop
  /-- The engine receives a frame into the next descriptor in the order of the ring. -/
  | complete (c : Completion) (owns : (r.rx.descr (r.completed.length % n)).owner)
      (given : c.rdes0.getLsbD 31 = false) : Outside n r (r.complete n c)
  /-- Other code uses the buffers that are not in the ring. -/
  | other (pool : SkbPool)
      (keeps : ∀ skb, r.InRing n skb → pool.skbuff skb = r.rx.pool.skbuff skb) :
      Outside n r { r with rx := { r.rx with pool := pool } }

/-- A round of `macRxRingProc`, in which `alloc_skb` returns and the protocol layers leave
the buffers of the ring alone. -/
inductive Round (n : ℕ) (r : MacRxRun) : MacRxRun → Prop
  | round {rx : MacRx} (handler : SkbPool → SkbPool)
      (keeps : r.rx.KeepsReserved n handler)
      (given : ¬ (r.rx.descr r.rx.rxCurrentDescp).owner)
      (returns : r.rx.rxRound n handler = some rx) :
      Round n r { r with rx := rx, processed := r.processed + 1 }

/-- A run of `macRxRingProc`: rounds until the descriptor is the engine's, which goes on
receiving frames in between. -/
inductive MacRxRingProc (n : ℕ) : MacRxRun → MacRxRun → Prop
  | stop {r : MacRxRun} (owned : (r.rx.descr r.rx.rxCurrentDescp).owner) : MacRxRingProc n r r
  | more {r r' r'' : MacRxRun} (round : Round n r r') (rest : MacRxRingProc n r' r'') :
      MacRxRingProc n r r''
  | meanwhile {r r' r'' : MacRxRun} (outside : Outside n r r') (rest : MacRxRingProc n r' r'') :
      MacRxRingProc n r r''

/-- The states that are reached from the initialised ring. -/
abbrev Reaches (n : ℕ) (rx : MacRx) : MacRxRun → Prop :=
  Relation.ReflTransGen (fun r r' => Outside n r r' ∨ Round n r r') ⟨rx, [], 0⟩

/-- Every slot has its own buffer; the descriptors that are not the engine's are the ones
completed and not processed, with what was received there; and the good frames among those
processed have been handed over, in order. -/
structure Armed (n : ℕ) (r : MacRxRun) : Prop where
  slots : r.rx.Slots (Set.Iio n)
  processed : r.processed ≤ r.completed.length
  fits : r.completed.length ≤ r.processed + n
  current : r.rx.rxCurrentDescp = r.processed % n
  given : ∀ i < n, ¬ (r.rx.descr i).owner ↔
    ∃ k, r.processed ≤ k ∧ k < r.completed.length ∧ k % n = i
  descr : ∀ k c, r.processed ≤ k → r.completed[k]? = some c →
    (r.rx.descr (k % n)).rdes0 = c.rdes0 ∧ (r.rx.descr (k % n)).rdes1 = c.rdes1
  frame : ∀ k c skb, r.processed ≤ k → r.completed[k]? = some c →
    r.rx.rxskbs (k % n) = some skb → ∀ b < rxLength c.rdes0,
      (r.rx.pool.skbuff skb).buf ((r.rx.pool.skbuff skb).data + b) = c.frame b
  received : List.Forall₂ Delivers ((r.completed.take r.processed).filter fun c => c.Good)
    r.rx.received

section Armed

variable {n : ℕ} {r r' : MacRxRun}

theorem Armed.initial {pool : SkbPool} {rx : MacRx}
    (init : MacRx.macDrvDescripInit n pool = some rx) :
    Armed n ⟨rx, [], 0⟩ := by
  obtain ⟨slots, owner, current, received⟩ := MacRx.Slots.foldlM_initSlot rfl rfl n init
  constructor
  · exact slots
  · exact le_rfl
  · exact Nat.zero_le _
  · rw [current, Nat.zero_mod]
  · intro i hi
    apply iff_of_false
    · exact not_not.mpr (owner i hi)
    · rintro ⟨k, -, high, -⟩
      exact Nat.not_lt_zero k high
  · intro k c _ there
    cases there
  · intro k c skb _ there
    cases there
  · show List.Forall₂ Delivers [] rx.received
    rw [received]
    exact .nil

/-- While the next descriptor is the engine's, there is room in the ring. -/
theorem Armed.room (h : r.Armed n) (pos : 0 < n)
    (owns : (r.rx.descr (r.completed.length % n)).owner) :
    r.completed.length < r.processed + n := by
  by_contra full
  have fits := h.fits
  have whole : r.completed.length = r.processed + n := by omega
  apply (h.given _ (Nat.mod_lt _ pos)).mpr _ owns
  use r.processed
  rw [whole, Nat.add_mod_right]
  exact ⟨le_rfl, by omega, rfl⟩

/-- A frame goes into the buffer of the slot, and changes nothing else of it. -/
theorem skbuff_complete {c : Completion} {posted : Skb}
    (addr : (r.rx.descr (r.completed.length % n)).rxbufAddr =
      some (r.rx.pool.dataAddr posted)) (skb : Skb) :
    ((r.complete n c).rx.pool.skbuff skb).used = (r.rx.pool.skbuff skb).used ∧
      ((r.complete n c).rx.pool.skbuff skb).data = (r.rx.pool.skbuff skb).data ∧
      ((r.complete n c).rx.pool.skbuff skb).buf =
        if skb = posted then
          overlay (r.rx.pool.skbuff skb).buf (r.rx.pool.skbuff skb).data c.frame
            (rxLength c.rdes0)
        else (r.rx.pool.skbuff skb).buf := by
  have pool : (r.complete n c).rx.pool = r.rx.pool.modify posted fun b =>
      { b with
        buf := overlay b.buf (r.rx.pool.skbuff posted).data c.frame (rxLength c.rdes0) } := by
    rw [MacRxRun.complete, addr]
    rfl
  rw [pool]
  by_cases same : skb = posted
  · rw [same, SkbPool.skbuff_modify_self, if_pos rfl]
    exact ⟨rfl, rfl, rfl⟩
  · rw [SkbPool.skbuff_modify_of_ne same, if_neg same]
    exact ⟨rfl, rfl, rfl⟩

/-- A frame that has been received and not processed is the last one, or in another slot. -/
theorem last_or_before (room : r.completed.length < r.processed + n) {c x : Completion} {k : ℕ}
    (low : r.processed ≤ k)
    (there : (r.completed ++ [c])[k]? = some x) :
    k = r.completed.length ∧ x = c ∨
      k % n ≠ r.completed.length % n ∧ r.completed[k]? = some x := by
  obtain before | after := Nat.lt_or_ge k r.completed.length
  · right
    rw [List.getElem?_append_left before] at there
    refine ⟨fun same => ?_, there⟩
    have equal := eq_of_mod_eq same before.le (by omega)
    omega
  · left
    obtain ⟨high, -⟩ := List.getElem?_eq_some_iff.mp there
    rw [List.length_append, List.length_singleton] at high
    obtain rfl : k = r.completed.length := by omega
    rw [List.getElem?_concat_length] at there
    exact ⟨rfl, (Option.some.inj there).symm⟩

/-- The engine receives a frame. -/
theorem Armed.complete (h : r.Armed n) (pos : 0 < n) {c : Completion}
    (owns : (r.rx.descr (r.completed.length % n)).owner)
    (given : c.rdes0.getLsbD 31 = false) : (r.complete n c).Armed n := by
  have room := h.room pos owns
  have processed := h.processed
  have inRing := Nat.mod_lt r.completed.length pos
  have length : (r.complete n c).completed.length = r.completed.length + 1 := List.length_append
  obtain ⟨skb, there, used, addr, out⟩ := h.slots.posted _ inRing
  have buffer := skbuff_complete (c := c) addr
  have descr : ∀ j ≠ r.completed.length % n,
      (r.complete n c).rx.descr j = r.rx.descr j := fun j hj => Function.update_of_ne hj ..
  have last : (r.complete n c).rx.descr (r.completed.length % n) =
      { r.rx.descr (r.completed.length % n) with rdes0 := c.rdes0, rdes1 := c.rdes1 } :=
    Function.update_self ..
  constructor
  · refine h.slots.congr (t := (r.complete n c).rx) rfl rfl ?_ fun i _ x _ =>
      ⟨(buffer x).1, (buffer x).2.1⟩
    intro i _
    by_cases here : i = r.completed.length % n
    · rw [here, last]
    · rw [descr i here]
  · show r.processed ≤ (r.complete n c).completed.length
    omega
  · show (r.complete n c).completed.length ≤ r.processed + n
    omega
  · exact h.current
  · intro i hi
    rw [length]
    by_cases here : i = r.completed.length % n
    · rw [here, last]
      apply iff_of_true
      · show ¬ c.rdes0.getLsbD 31
        rw [given]
        exact Bool.false_ne_true
      · exact ⟨_, processed, Nat.lt_succ_self _, rfl⟩
    · rw [descr i here, h.given i hi]
      constructor
      · rintro ⟨k, low, high, same⟩
        exact ⟨k, low, Nat.lt_succ_of_lt high, same⟩
      · rintro ⟨k, low, high, same⟩
        obtain before | rfl := Nat.lt_succ_iff_lt_or_eq.mp high
        · exact ⟨k, low, before, same⟩
        · exact absurd same.symm here
  · intro k x low at'
    obtain ⟨rfl, rfl⟩ | ⟨other, before⟩ := last_or_before room low at'
    · rw [last]
      exact ⟨rfl, rfl⟩
    · rw [descr _ other]
      exact h.descr k x low before
  · intro k x y low at' held b hb
    have slot : r.rx.rxskbs (k % n) = some y := held
    rw [(buffer y).2.1, (buffer y).2.2]
    obtain ⟨rfl, rfl⟩ | ⟨other, before⟩ := last_or_before room low at'
    · rw [there] at slot
      cases slot
      rw [if_pos rfl, overlay_of_mem ⟨Nat.le_add_right _ _, Nat.add_lt_add_left hb _⟩,
        Nat.add_sub_cancel_left]
    · have different : y ≠ skb := by
        rintro rfl
        exact other (h.slots.distinct _ (Nat.mod_lt k pos) _ inRing (slot.trans there.symm))
      rw [if_neg different]
      exact h.frame k x y low before slot b hb
  · show List.Forall₂ Delivers (((r.completed ++ [c]).take r.processed).filter _) r.rx.received
    rw [List.take_append_of_le_length processed]
    exact h.received

/-- Other code uses the other buffers. -/
theorem Armed.other (h : r.Armed n) (pos : 0 < n) {pool : SkbPool}
    (keeps : ∀ skb, r.InRing n skb → pool.skbuff skb = r.rx.pool.skbuff skb) :
    Armed n { r with rx := { r.rx with pool := pool } } := by
  constructor
  · refine h.slots.congr (t := { r.rx with pool := pool }) rfl rfl (fun _ _ => rfl) ?_
    intro i hi skb there
    show (pool.skbuff skb).used = _ ∧ (pool.skbuff skb).data = _
    rw [keeps skb ⟨i, hi, there⟩]
    exact ⟨rfl, rfl⟩
  · exact h.processed
  · exact h.fits
  · exact h.current
  · exact h.given
  · exact h.descr
  · intro k c skb low there slot
    show ∀ b < rxLength c.rdes0, (pool.skbuff skb).buf ((pool.skbuff skb).data + b) = c.frame b
    rw [keeps skb ⟨k % n, Nat.mod_lt k pos, slot⟩]
    exact h.frame k c skb low there slot
  · exact h.received

/-- What happens outside `macRxRingProc`. -/
theorem Armed.outside (h : r.Armed n) (pos : 0 < n) (out : Outside n r r') : r'.Armed n := by
  cases out with
  | complete c owns given => exact h.complete pos owns given
  | other pool keeps => exact h.other pos keeps

/-- The current descriptor, when it is not the engine's, is the first one completed and not
processed. -/
theorem Armed.next (h : r.Armed n) (pos : 0 < n)
    (given : ¬ (r.rx.descr r.rx.rxCurrentDescp).owner) :
    ∃ c, r.completed[r.processed]? = some c := by
  rw [h.current] at given
  obtain ⟨k, low, high, same⟩ := (h.given _ (Nat.mod_lt _ pos)).mp given
  have fits := h.fits
  have equal := eq_of_mod_eq same.symm low (by omega)
  exact ⟨_, List.getElem?_eq_getElem (by omega)⟩

/-- A round of `macRxRingProc`. -/
theorem Armed.round (h : r.Armed n) (pos : 0 < n) (round : Round n r r') : r'.Armed n := by
  obtain ⟨handler, keeps, given, returns⟩ := round
  obtain ⟨s, frame, rfl⟩ := Option.map_eq_some_iff.mp returns
  obtain ⟨c, completed⟩ := h.next pos given
  have inRing : r.rx.rxCurrentDescp < n := by
    rw [h.current]
    exact Nat.mod_lt _ pos
  obtain ⟨skb, there, used, addr, out⟩ := h.slots.posted _ inRing
  obtain ⟨⟨new, put⟩, current, received⟩ := h.slots.rxFrame inRing there keeps frame
  have fits := h.fits
  have inside : r.processed < r.completed.length := (List.getElem?_eq_some_iff.mp completed).1
  have whole : insert r.rx.rxCurrentDescp (Set.Iio n \ {r.rx.rxCurrentDescp}) = Set.Iio n :=
    Set.insert_sdiff_self_of_mem inRing
  have later : ∀ k, r.processed + 1 ≤ k → k < r.completed.length → k % n ≠ r.rx.rxCurrentDescp := by
    intro k low high same
    rw [h.current] at same
    have equal := eq_of_mod_eq same.symm (by omega) (by omega)
    omega
  have others : ∀ i ≠ r.rx.rxCurrentDescp, (s.handBack n).descr i = r.rx.descr i := fun i hi => by
    rw [MacRx.descr_handBack_of_ne (current ▸ hi), put.descr i hi]
  constructor
  · show (s.handBack n).Slots (Set.Iio n)
    rw [← whole]
    exact ((MacRx.Slots.mono Set.sdiff_subset h.slots).put put fun mem => mem.2 rfl).handBack
  · exact inside
  · show r.completed.length ≤ r.processed + 1 + n
    omega
  · show nextIdx n s.rxCurrentDescp = (r.processed + 1) % n
    rw [current, h.current, nextIdx_mod pos]
  · intro i hi
    by_cases here : i = r.rx.rxCurrentDescp
    · apply iff_of_false
      · rw [here, ← current]
        exact not_not.mpr MacRx.owner_handBack
      · rintro ⟨k, low, high, same⟩
        exact later k low high (same.trans here)
    · show ¬ ((s.handBack n).descr i).owner ↔ _
      rw [others i here, h.given i hi]
      constructor
      · rintro ⟨k, low, high, same⟩
        have different : k ≠ r.processed := by
          rintro rfl
          exact here (same.symm.trans h.current.symm)
        exact ⟨k, show r.processed + 1 ≤ k by omega, high, same⟩
      · rintro ⟨k, low, high, same⟩
        exact ⟨k, Nat.le_of_succ_le low, high, same⟩
  · intro k x low at'
    show ((s.handBack n).descr (k % n)).rdes0 = _ ∧ ((s.handBack n).descr (k % n)).rdes1 = _
    rw [others _ (later k low (List.getElem?_eq_some_iff.mp at').1)]
    exact h.descr k x (Nat.le_of_succ_le low) at'
  · intro k x y low at' held
    have other := later k low (List.getElem?_eq_some_iff.mp at').1
    have slot : r.rx.rxskbs (k % n) = some y := by
      rw [← held]
      show _ = s.rxskbs (k % n)
      rw [put.rxskbs, Function.update_of_ne other]
    have same := (put.kept (k % n) ⟨Nat.mod_lt k pos, other⟩ y slot).1
    show ∀ b < rxLength x.rdes0, (s.pool.skbuff y).buf ((s.pool.skbuff y).data + b) = x.frame b
    rw [same]
    exact h.frame k x y (Nat.le_of_succ_le low) at' slot
  · show List.Forall₂ Delivers ((r.completed.take (r.processed + 1)).filter _) s.received
    obtain ⟨rdes0, rdes1⟩ := h.descr r.processed c le_rfl completed
    rw [List.take_add_one, completed, List.filter_append, received, h.current, rdes0, rdes1]
    apply List.rel_append h.received
    by_cases good : c.Good
    · have frame := h.frame r.processed c skb le_rfl completed (h.current ▸ there)
      simp only [if_pos good, Option.toList_some, List.filter_singleton, decide_eq_true good]
      exact .cons ⟨rfl, frame⟩ .nil
    · simp only [if_neg good, Option.toList_some, List.filter_singleton, decide_eq_false good]
      exact .nil

/-- Every state that is reached. -/
theorem Armed.reaches {rx : MacRx} (pos : 0 < n) (h : Armed n ⟨rx, [], 0⟩) (run : Reaches n rx r) :
    r.Armed n := by
  induction run with
  | refl => exact h
  | tail _ step ih =>
      obtain outside | round := step
      · exact ih.outside pos outside
      · exact ih.round pos round

/-- At the end of a run of `macRxRingProc`, all descriptors are the engine's. -/
theorem Armed.macRxRingProc (h : r.Armed n) (pos : 0 < n) (run : MacRxRingProc n r r') :
    r'.Armed n ∧ r'.processed = r'.completed.length := by
  induction run with
  | @stop r owned =>
      refine ⟨h, le_antisymm h.processed ?_⟩
      by_contra more
      apply (h.given _ (h.current ▸ Nat.mod_lt _ pos)).mpr _ owned
      exact ⟨r.processed, le_rfl, not_le.mp more, h.current.symm⟩
  | more round _ ih => exact ih (h.round pos round)
  | meanwhile outside _ ih => exact ih (h.outside pos outside)

/-- A round adds to what has been handed over. -/
theorem Armed.received_round (h : r.Armed n) (pos : 0 < n) (round : Round n r r') :
    r.rx.received <+: r'.rx.received := by
  obtain ⟨handler, keeps, given, returns⟩ := round
  obtain ⟨s, frame, rfl⟩ := Option.map_eq_some_iff.mp returns
  have inRing : r.rx.rxCurrentDescp < n := by
    rw [h.current]
    exact Nat.mod_lt _ pos
  obtain ⟨skb, there, -⟩ := h.slots.posted _ inRing
  obtain ⟨-, -, received⟩ := h.slots.rxFrame inRing there keeps frame
  exact ⟨_, received.symm⟩

/-- A run adds to the frames received and to what has been handed over. -/
theorem Armed.grows (h : r.Armed n) (pos : 0 < n) (run : MacRxRingProc n r r') :
    r.completed <+: r'.completed ∧ r.rx.received <+: r'.rx.received := by
  induction run with
  | stop => exact ⟨List.prefix_rfl, List.prefix_rfl⟩
  | more round _ ih =>
      have added := h.received_round pos round
      obtain ⟨completed, received⟩ := ih (h.round pos round)
      obtain ⟨_, _, _, _⟩ := round
      exact ⟨completed, added.trans received⟩
  | meanwhile outside _ ih =>
      obtain ⟨completed, received⟩ := ih (h.outside pos outside)
      obtain ⟨c, _, _⟩ | ⟨_, _⟩ := outside
      · exact ⟨(List.prefix_append _ [c]).trans completed, received⟩
      · exact ⟨completed, received⟩

end Armed

/-- For every size of the ring, and whatever the engine receives: after each run of
`macRxRingProc`, every slot has a buffer of its own, in use, at the address in its
descriptor, which has not been handed over since it was taken; all descriptors are the
engine's; and the good frames, and no others, have been handed over in order with their
lengths, those received since the run before by this one. -/
theorem macRxRingProc_armed {n : ℕ} (pos : 0 < n) {pool : SkbPool} {rx : MacRx}
    (init : MacRx.macDrvDescripInit n pool = some rx) {r r' : MacRxRun}
    (before : Reaches n rx r) (run : MacRxRingProc n r r') :
    r'.rx.Slots (Set.Iio n) ∧ (∀ i < n, (r'.rx.descr i).owner) ∧
      List.Forall₂ Delivers (r'.completed.filter fun c => c.Good) r'.rx.received ∧
      ∃ new, r'.rx.received = r.rx.received ++ new ∧
        List.Forall₂ Delivers ((r'.completed.drop r.processed).filter fun c => c.Good) new := by
  have armed : r.Armed n := (Armed.initial init).reaches pos before
  obtain ⟨armed', all⟩ := armed.macRxRingProc pos run
  obtain ⟨⟨later, completed⟩, ⟨new, received⟩⟩ := armed.grows pos run
  have delivered : List.Forall₂ Delivers (r'.completed.filter fun c => c.Good) r'.rx.received := by
    have := armed'.received
    rwa [all, List.take_length] at this
  refine ⟨armed'.slots, fun i hi => ?_, delivered, new, received.symm, ?_⟩
  · by_contra given
    obtain ⟨k, low, high, -⟩ := (armed'.given i hi).mp given
    omega
  · have split := delivered
    rw [← received, ← List.take_append_drop r.processed r'.completed, List.filter_append] at split
    have early : r'.completed.take r.processed = r.completed.take r.processed := by
      rw [← completed, List.take_append_of_le_length armed.processed]
    have rest := List.forall₂_drop_append _ _ _ split
    rwa [early, ← armed.received.length_eq, List.drop_left] at rest

/-- A ring of two places, initialised with no buffer in use. -/
def twoSlots : MacRx :=
  (MacRx.macDrvDescripInit 2 ⟨fun _ => skbHeaderinit 0, 0⟩).get (by decide +kernel)

/-- A frame of 60 bytes. -/
def frameOf (byte : UInt8) : Completion := ⟨60#32, 0#32, fun _ => byte⟩

/-- A frame has been received there, and one with an error after it. -/
def framesReceived : MacRxRun :=
  complete 2 ⟨60#32 ||| 1#32 <<< 18, 0#32, fun _ => 1⟩ (complete 2 (frameOf 7) ⟨twoSlots, [], 0⟩)

/-- A round in which the protocol layers do nothing. -/
def quietRound (r : MacRxRun) : Option MacRxRun :=
  (r.rx.rxRound 2 id).map fun rx => { r with rx := rx, processed := r.processed + 1 }

theorem round_of_quietRound {r r' : MacRxRun} (given : ¬ (r.rx.descr r.rx.rxCurrentDescp).owner)
    (returns : quietRound r = some r') : Round 2 r r' := by
  obtain ⟨rx, done, rfl⟩ := Option.map_eq_some_iff.mp returns
  exact .round id (fun _ _ _ => rfl) given done

theorem completed_quietRound {r : MacRxRun} (some : (quietRound r).isSome) :
    ((quietRound r).get some).completed = r.completed := by
  simp only [quietRound, Option.get_map]

/-- The first frame is handed over. Meanwhile a third one is received, into its slot; the second
one is dropped, and the third is handed over after the end of the ring. -/
theorem macRxRingProc_armed_wrap :
    ∃ r, MacRxRingProc 2 framesReceived r ∧ r.rx.Slots (Set.Iio 2) ∧
      (∀ i < 2, (r.rx.descr i).owner) ∧
      ∃ x y, r.rx.received = [x, y] ∧ x.len = 60 ∧ (∀ b < 60, x.data b = 7) ∧
        y.len = 60 ∧ ∀ b < 60, y.data b = 8 := by
  let first : MacRxRun := (quietRound framesReceived).get (by decide +kernel)
  let third : MacRxRun := complete 2 (frameOf 8) first
  let dropped : MacRxRun := (quietRound third).get (by decide +kernel)
  let wrapped : MacRxRun := (quietRound dropped).get (by decide +kernel)
  have run : MacRxRingProc 2 framesReceived wrapped :=
    .more (round_of_quietRound (by decide +kernel) (Option.some_get _).symm)
      (.meanwhile (.complete _ (by decide +kernel) (by decide))
        (.more (round_of_quietRound (by decide +kernel) (Option.some_get _).symm)
          (.more (round_of_quietRound (by decide +kernel) (Option.some_get _).symm)
            (.stop (by decide +kernel)))))
  have before : Reaches 2 twoSlots framesReceived :=
    (Relation.ReflTransGen.single (.inl (.complete _ (by decide +kernel) (by decide)))).tail
      (.inl (.complete _ (by decide +kernel) (by decide)))
  obtain ⟨slots, owner, received, -⟩ := macRxRingProc_armed (show 0 < 2 by decide)
    (Option.some_get _).symm before run
  refine ⟨_, run, slots, owner, ?_⟩
  have completed : wrapped.completed =
      [frameOf 7, ⟨60#32 ||| 1#32 <<< 18, 0#32, fun _ => 1⟩, frameOf 8] := by
    rw [completed_quietRound, completed_quietRound]
    show first.completed ++ _ = _
    rw [completed_quietRound]
    rfl
  rw [completed, List.filter_cons_of_pos (by decide), List.filter_cons_of_neg (by decide),
    List.filter_cons_of_pos (by decide)] at received
  obtain ⟨x, ys, delivers, received, hx⟩ := List.forall₂_cons_left_iff.mp received
  obtain ⟨y, rest, delivers', received, hy⟩ := List.forall₂_cons_left_iff.mp received
  rw [hy, List.forall₂_nil_left_iff.mp received] at hx
  exact ⟨x, y, hx, delivers.1.trans (by decide), delivers.2, delivers'.1.trans (by decide),
    delivers'.2⟩

end MacRxRun

end En7512.Net
