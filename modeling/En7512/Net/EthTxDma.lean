/-
# The Ethernet ring and the hardware that reads it

Here the hardware reads the descriptors while `mtk_start_xmit` runs. It reads the queued
ones in the order of the ring and sets `done` in each. The driver does not look at `done`:
it takes a clear busy bit as leave to release the two descriptors ahead of the producer.

The first of them is always empty. The second still holds a packet that the hardware has
not read if the hardware is two packets behind, and whether the driver is safe depends on
that and on nothing else.
-/

import En7512.Net.EthTx

namespace En7512.Net

open En7512.Logic

variable {σ : Type}

/-- How far a call of `mtk_start_xmit` is. -/
inductive TxPlace
  /-- No call is running. -/
  | idle
  /-- The packet is mapped into the descriptor `idx`. `tx0_free_some` has come to `place` and
  has `left` rounds to go; after them only `TX_CPU_IDX` is written. -/
  | freeing (idx place left : ℕ)

/-- The driver, and the descriptors that it has queued and the hardware has not read. -/
structure TxRun (σ : Type) where
  eth : EthTx σ
  place : TxPlace
  queue : List ℕ

/-- A step of the driver or of the hardware. -/
inductive TxInput (σ : Type)
  /-- The kernel calls `mtk_start_xmit`. -/
  | xmit (call : Xmit σ)
  /-- The call goes on. -/
  | drive
  /-- The hardware reads a packet. -/
  | read

namespace TxRun

/-- After `qdma_config`. -/
def initial : TxRun σ := ⟨EthTx.initial, .idle, []⟩

/-- `mtk_start_xmit` up to the place where the packet is mapped, or to its end. -/
def start (call : Xmit σ) (r : TxRun σ) : TxRun σ :=
  if call.resetting then { r with eth := r.eth.drop call }
  else
    match r.eth.mapSkb call with
    | (none, s) => { r with eth := s.drop call }
    | (some idx, s) => { r with eth := s, place := .freeing idx idx 2 }

/-- One step. A call waits for the lock while another is running. -/
def step : TxInput σ → TxRun σ → TxRun σ
  | .xmit call, r =>
      match r.place with
      | .idle => r.start call
      | .freeing _ _ _ => r
  | .drive, r =>
      match r.place with
      | .idle => r
      | .freeing idx place (left + 1) =>
          let (place, s) := r.eth.freeRound place
          { r with eth := s, place := .freeing idx place left }
      | .freeing idx _ 0 =>
          { eth := r.eth.kick idx, place := .idle, queue := r.queue ++ [idx] }
  | .read, r =>
      match r.queue with
      | [] => r
      | idx :: queue =>
          { r with
            eth := r.eth.setDscp idx { r.eth.dscp idx with done := true }
            queue := queue }

/-- The steps of a call by itself are the call. -/
theorem drive_start (call : Xmit σ) (r : TxRun σ) (idle : r.place = .idle) :
    ((step .drive)^[3] (step (.xmit call) r)).eth = r.eth.mtkStartXmit call := by
  obtain ⟨s, place, queue⟩ := r
  cases idle
  show ((step .drive)^[3] (start call _)).eth = _
  rw [start, EthTx.mtkStartXmit]
  by_cases resetting : call.resetting
  · rw [if_pos resetting, if_pos resetting]
    rfl
  · rw [if_neg resetting, if_neg resetting, EthTx.mtkTxMap]
    cases s.mapSkb call with
    | mk place s' =>
        cases place with
        | none => rfl
        | some idx => rfl

/-- The step leaves the packets alone that are queued and have not been read: they stay in
their slots, and their addresses in the descriptors. -/
def Untouched (r r' : TxRun σ) : Prop :=
  ∀ i ∈ r.queue, (r.eth.dscp i).done = false →
    r'.eth.skBuffP i = r.eth.skBuffP i ∧ (r'.eth.dscp i).pktAddr = (r.eth.dscp i).pktAddr

instance [DecidableEq σ] (r r' : TxRun σ) : Decidable (r.Untouched r') :=
  inferInstanceAs (Decidable (∀ i ∈ r.queue, _ → _))

/-- The step is the second round of `tx0_free_some`. -/
def SecondRound (a : TxInput σ) (r : TxRun σ) : Prop :=
  match a, r.place with
  | .drive, .freeing _ _ 1 => True
  | _, _ => False

/-! ## Runs in which the hardware keeps up -/

/-- The slot is empty and its descriptor is not marked. -/
def Blank (s : EthTx σ) (i : ℕ) : Prop := s.skBuffP i = none ∧ (s.dscp i).done = false

/-- The slot holds a packet that has not been read. -/
def Loaded (s : EthTx σ) (i : ℕ) : Prop := (s.skBuffP i).isSome ∧ (s.dscp i).done = false

/-- What holds at each place of a call, with the producer at `c`. -/
def Phase (s : EthTx σ) (queue : List ℕ) (c : ℕ) : TxPlace → Prop
  | .idle => Blank s c ∧ Blank s ((c + 1) % tx0DscpNum)
  | .freeing idx place left => idx = c ∧ Loaded s c ∧ Blank s ((c + 1) % tx0DscpNum) ∧
      (left = 2 ∧ place = c ∨ left = 1 ∧ place = (c + 1) % tx0DscpNum ∨
        left = 0 ∧ Blank s ((c + 2) % tx0DscpNum) ∧ queue <:+ [(c + 3) % tx0DscpNum])

/-- What holds while the hardware keeps up. -/
structure Orderly (r : TxRun σ) : Prop where
  linked : r.eth.Linked
  inRing : r.eth.txCpuIdx < tx0DscpNum
  queue : r.queue <:+ [(r.eth.txCpuIdx + 2) % tx0DscpNum, (r.eth.txCpuIdx + 3) % tx0DscpNum]
  loaded : ∀ i ∈ r.queue, Loaded r.eth i
  phase : Phase r.eth r.queue r.eth.txCpuIdx r.place

section Slots

variable {s : EthTx σ} {i j idx c a b : ℕ} {call : Xmit σ}

theorem Blank.not_loaded (h : Blank s i) : ¬ Loaded s i := by
  rintro ⟨holds, -⟩
  rw [h.1] at holds
  cases holds

theorem blank_release_self (s : EthTx σ) (i : ℕ) : Blank (s.release i) i := by
  simp [Blank, EthTx.release, EthTx.setDscp, EthTx.tx0FreeSkb]

theorem Blank.release (h : Blank s i) (j : ℕ) : Blank (s.release j) i := by
  by_cases here : i = j
  · rw [here]
    exact blank_release_self s j
  · simpa only [Blank, EthTx.release, EthTx.setDscp, EthTx.tx0FreeSkb,
      Function.update_of_ne here] using h

theorem Loaded.release (h : Loaded s i) (ne : i ≠ j) : Loaded (s.release j) i := by
  simpa only [Loaded, EthTx.release, EthTx.setDscp, EthTx.tx0FreeSkb,
    Function.update_of_ne ne] using h

theorem Blank.loaded_hook (h : Blank s c) : Loaded (s.hook call c) c := by
  simp [Loaded, EthTx.hook, h.2]

theorem Blank.hook (h : Blank s i) (ne : i ≠ c) : Blank (s.hook call c) i := by
  simpa only [Blank, EthTx.hook, Function.update_of_ne ne] using h

theorem Loaded.hook (h : Loaded s i) (ne : i ≠ c) : Loaded (s.hook call c) i := by
  simpa only [Loaded, EthTx.hook, Function.update_of_ne ne] using h

/-- Distances below the size of the ring lead to different places. -/
theorem places_ne (ha : a < tx0DscpNum) (hb : b < tx0DscpNum) (ne : a ≠ b) :
    (c + a) % tx0DscpNum ≠ (c + b) % tx0DscpNum := by
  simp only [tx0DscpNum] at ha hb ⊢
  omega

/-- The producer's place differs from the ones ahead. -/
theorem ahead_ne (ha : a < tx0DscpNum) (pos : 0 < a) :
    (c + a) % tx0DscpNum ≠ c := by
  simp only [tx0DscpNum] at ha ⊢
  omega

end Slots

section Steps

variable {r : TxRun σ}

/-- The places that can be queued. -/
theorem Orderly.mem_queue (h : r.Orderly) {i : ℕ} (queued : i ∈ r.queue) :
    i = (r.eth.txCpuIdx + 2) % tx0DscpNum ∨ i = (r.eth.txCpuIdx + 3) % tx0DscpNum := by
  have member := h.queue.subset queued
  simpa using member

/-- The queue has no place twice. -/
theorem Orderly.queue_nodup (h : r.Orderly) : r.queue.Nodup := by
  apply List.Nodup.sublist h.queue.sublist
  have apart : (r.eth.txCpuIdx + 2) % tx0DscpNum ≠ (r.eth.txCpuIdx + 3) % tx0DscpNum :=
    places_ne (by decide) (by decide) (by decide)
  simp [apart]

/-- A call drops its packet. -/
theorem Orderly.drop (h : r.Orderly) (call : Xmit σ) :
    ({ r with eth := r.eth.drop call } : TxRun σ).Orderly :=
  ⟨⟨h.linked.links, h.linked.addr⟩, h.inRing, h.queue, h.loaded, h.phase⟩

/-- A descriptor changes, but not its mark or its link. -/
theorem Orderly.setDscp (h : r.Orderly) {i : ℕ} {d : TxDscp}
    (link : d.nextIdx = (r.eth.dscp i).nextIdx) (done : d.done = (r.eth.dscp i).done)
    (addr : d.pktAddr ≠ 0#32 ↔ (r.eth.skBuffP i).isSome) :
    ({ r with eth := r.eth.setDscp i d } : TxRun σ).Orderly := by
  have marks (j : ℕ) : ((r.eth.setDscp i d).dscp j).done = (r.eth.dscp j).done := by
    by_cases here : j = i
    · simp [EthTx.setDscp, here, done]
    · simp [EthTx.setDscp, here]
  have blank : Blank (r.eth.setDscp i d) = Blank r.eth := by
    funext j
    rw [Blank, Blank, marks]
    rfl
  have loaded : Loaded (r.eth.setDscp i d) = Loaded r.eth := by
    funext j
    rw [Loaded, Loaded, marks]
    rfl
  refine ⟨h.linked.setDscp link addr, h.inRing, h.queue, ?_, ?_⟩
  · show ∀ j ∈ r.queue, Loaded (r.eth.setDscp i d) j
    rw [loaded]
    exact h.loaded
  · show Phase (r.eth.setDscp i d) r.queue r.eth.txCpuIdx r.place
    have phase := h.phase
    cases place : r.place with
    | idle =>
        rw [place] at phase
        rw [Phase, blank]
        exact phase
    | freeing idx place left =>
        rw [place] at phase
        rw [Phase, blank, loaded]
        exact phase

/-- A call begins. -/
theorem Orderly.start (h : r.Orderly) (idle : r.place = .idle) (call : Xmit σ) :
    (r.start call).Orderly := by
  have phase := h.phase
  rw [idle] at phase
  obtain ⟨blank, next⟩ := phase
  have here : r.eth.txCpuIdx % tx0DscpNum = r.eth.txCpuIdx := Nat.mod_eq_of_lt h.inRing
  rw [TxRun.start]
  by_cases resetting : call.resetting
  · rw [if_pos resetting]
    exact h.drop call
  · rw [if_neg resetting]
    cases maps : r.eth.mapSkb call with
    | mk place s =>
        cases place with
        | none =>
            obtain rfl | rfl := EthTx.mapSkb_none maps
            · exact h.drop call
            · rw [here]
              have noted := h.setDscp (d := { r.eth.dscp r.eth.txCpuIdx with
                pktAddr := 0#32, fport := 1 }) rfl rfl (by simp [blank.1])
              exact noted.drop call
        | some idx =>
            obtain ⟨rfl, phys, rfl⟩ := EthTx.mapSkb_some maps
            rw [here]
            have ne : (r.eth.txCpuIdx + 1) % tx0DscpNum ≠ r.eth.txCpuIdx :=
              ahead_ne (by decide) (by decide)
            refine ⟨h.linked.hook phys, h.inRing, h.queue, fun i hi => ?_,
              rfl, blank.loaded_hook, next.hook ne, .inl ⟨rfl, rfl⟩⟩
            have loaded := h.loaded i hi
            apply loaded.hook
            rintro rfl
            exact blank.not_loaded loaded

/-- The second slot ahead is not queued when at most one packet is. -/
theorem Orderly.queue_short (h : r.Orderly) (short : r.queue.length ≤ 1) :
    r.queue <:+ [(r.eth.txCpuIdx + 3) % tx0DscpNum] := by
  obtain all | less := List.suffix_cons_iff.mp h.queue
  · rw [all] at short
    cases short with
    | step none => cases none
  · exact less

/-- What the next step of a call does: the two rounds of `tx0_free_some`, and the write of
`TX_CPU_IDX`. -/
theorem Orderly.drive_cases (h : r.Orderly) :
    (r.place = .idle ∧ step .drive r = r) ∨
    (r.place = .freeing r.eth.txCpuIdx r.eth.txCpuIdx 2 ∧ step .drive r = { r with
      eth := r.eth.release ((r.eth.txCpuIdx + 1) % tx0DscpNum)
      place := .freeing r.eth.txCpuIdx ((r.eth.txCpuIdx + 1) % tx0DscpNum) 1 }) ∨
    (r.place = .freeing r.eth.txCpuIdx ((r.eth.txCpuIdx + 1) % tx0DscpNum) 1 ∧
      step .drive r = { r with
        eth := r.eth.release ((r.eth.txCpuIdx + 2) % tx0DscpNum)
        place := .freeing r.eth.txCpuIdx ((r.eth.txCpuIdx + 2) % tx0DscpNum) 0 }) ∨
    ((∃ reached, r.place = .freeing r.eth.txCpuIdx reached 0) ∧ step .drive r = {
      eth := { r.eth with txCpuIdx := (r.eth.txCpuIdx + 1) % tx0DscpNum }
      place := .idle
      queue := r.queue ++ [r.eth.txCpuIdx] }) := by
  have phase := h.phase
  cases place : r.place with
  | idle =>
      left
      simp only [step, place, and_self]
  | freeing idx reached left =>
      right
      rw [place] at phase
      obtain ⟨rfl, -, -, ⟨rfl, rfl⟩ | ⟨rfl, rfl⟩ | ⟨rfl, -, -⟩⟩ := phase
      · left
        simp only [step, place, h.linked.freeRound h.inRing, and_self]
      · right
        left
        have inRing : (r.eth.txCpuIdx + 1) % tx0DscpNum < tx0DscpNum := Nat.mod_lt _ (by decide)
        simp only [step, place, h.linked.freeRound inRing, Nat.mod_add_mod, and_self]
      · right
        right
        simp only [step, place, EthTx.kick, h.linked.links _ h.inRing, and_true]
        exact ⟨reached, rfl⟩

/-- A step of the call. If it releases the second slot, at most one packet may be queued. -/
theorem Orderly.drive (h : r.Orderly)
    (keepsUp : SecondRound (.drive : TxInput σ) r → r.queue.length ≤ 1) :
    (step .drive r).Orderly := by
  have phase := h.phase
  have own {a : ℕ} (ha : a < tx0DscpNum) (pos : 0 < a) :
      r.eth.txCpuIdx ≠ (r.eth.txCpuIdx + a) % tx0DscpNum := (ahead_ne ha pos).symm
  obtain ⟨place, next⟩ | ⟨place, next⟩ | ⟨place, next⟩ | ⟨⟨reached, place⟩, next⟩ := h.drive_cases
  · rw [next]
    exact h
  · -- the first slot ahead is empty already
    rw [place] at phase
    obtain ⟨-, loaded, first, -⟩ := phase
    rw [next]
    refine ⟨h.linked.release _, h.inRing, h.queue, fun i hi => ?_, rfl,
      loaded.release (own (by decide) (by decide)), first.release _, .inr (.inl ⟨rfl, rfl⟩)⟩
    apply (h.loaded i hi).release
    rintro rfl
    exact first.not_loaded (h.loaded _ hi)
  · have short := h.queue_short (keepsUp (by simp only [SecondRound, place]))
    rw [place] at phase
    obtain ⟨-, loaded, first, -⟩ := phase
    rw [next]
    refine ⟨h.linked.release _, h.inRing, h.queue, fun i hi => ?_, rfl,
      loaded.release (own (by decide) (by decide)), first.release _,
      .inr (.inr ⟨rfl, blank_release_self _ _, short⟩)⟩
    apply (h.loaded i hi).release
    rw [List.mem_singleton.mp (short.subset hi)]
    exact places_ne (by decide) (by decide) (by decide)
  · rw [place] at phase
    obtain ⟨-, loaded, first, ⟨two, -⟩ | ⟨one, -⟩ | ⟨-, second, last⟩⟩ := phase
    · cases two
    · cases one
    rw [next]
    refine ⟨⟨h.linked.links, h.linked.addr⟩, Nat.mod_lt _ (by decide), ?_, fun i hi => ?_,
      first, ?_⟩
    · obtain ⟨before, split⟩ := last
      use before
      have round : (r.eth.txCpuIdx + 1 + 3) % tx0DscpNum = r.eth.txCpuIdx :=
        (Nat.add_mod_right _ 4).trans (Nat.mod_eq_of_lt h.inRing)
      show before ++ (r.queue ++ [r.eth.txCpuIdx]) =
        [((r.eth.txCpuIdx + 1) % tx0DscpNum + 2) % tx0DscpNum,
          ((r.eth.txCpuIdx + 1) % tx0DscpNum + 3) % tx0DscpNum]
      rw [← List.append_assoc, split, Nat.mod_add_mod, Nat.mod_add_mod, round]
      rfl
    · obtain waiting | new := List.mem_append.mp hi
      · exact h.loaded i waiting
      · rw [List.mem_singleton.mp new]
        exact loaded
    · show Blank r.eth (((r.eth.txCpuIdx + 1) % tx0DscpNum + 1) % tx0DscpNum)
      rw [Nat.mod_add_mod]
      exact second

/-- The hardware reads a packet. -/
theorem Orderly.read (h : r.Orderly) : (step .read r).Orderly := by
  cases queue : r.queue with
  | nil =>
      have stays : step .read r = r := by simp only [step, queue]
      rw [stays]
      exact h
  | cons idx rest =>
      have taken : step .read r = { r with
          eth := r.eth.setDscp idx { r.eth.dscp idx with done := true }
          queue := rest } := by simp only [step, queue]
      have queued : idx ∈ r.queue := by
        rw [queue]
        exact List.mem_cons_self
      have marked := h.loaded idx queued
      have shorter : rest <:+ r.queue := by
        rw [queue]
        exact List.suffix_cons _ _
      have fresh : idx ∉ rest := by
        have nodup := h.queue_nodup
        rw [queue] at nodup
        exact (List.nodup_cons.mp nodup).1
      have blank {i : ℕ} (hi : Blank r.eth i) :
          Blank (r.eth.setDscp idx { r.eth.dscp idx with done := true }) i := by
        have ne : i ≠ idx := by
          rintro rfl
          exact hi.not_loaded marked
        simpa only [Blank, EthTx.setDscp, Function.update_of_ne ne] using hi
      have loaded {i : ℕ} (hi : Loaded r.eth i) (ne : i ≠ idx) :
          Loaded (r.eth.setDscp idx { r.eth.dscp idx with done := true }) i := by
        simpa only [Loaded, EthTx.setDscp, Function.update_of_ne ne] using hi
      have own : r.eth.txCpuIdx ≠ idx := by
        obtain rfl | rfl := h.mem_queue queued
        · exact (ahead_ne (by decide) (by decide)).symm
        · exact (ahead_ne (by decide) (by decide)).symm
      rw [taken]
      refine ⟨h.linked.setDscp rfl (h.linked.addr idx ?_), h.inRing, shorter.trans h.queue,
        fun i hi => loaded (h.loaded i (shorter.subset hi)) ?_, ?_⟩
      · obtain rfl | rfl := h.mem_queue queued
        · exact Nat.mod_lt _ (by decide)
        · exact Nat.mod_lt _ (by decide)
      · rintro rfl
        exact fresh hi
      · have phase := h.phase
        show Phase _ rest r.eth.txCpuIdx r.place
        cases place : r.place with
        | idle =>
            rw [place] at phase
            exact ⟨blank phase.1, blank phase.2⟩
        | freeing idx' reached left =>
            rw [place] at phase
            obtain ⟨same, holds, next, at_first | at_second | ⟨rfl, second, last⟩⟩ := phase
            · exact ⟨same, loaded holds own, blank next, .inl at_first⟩
            · exact ⟨same, loaded holds own, blank next, .inr (.inl at_second)⟩
            · exact ⟨same, loaded holds own, blank next,
                .inr (.inr ⟨rfl, blank second, shorter.trans last⟩)⟩

/-- What every step keeps while the hardware keeps up. -/
theorem Orderly.step (h : r.Orderly) (a : TxInput σ)
    (keepsUp : SecondRound a r → r.queue.length ≤ 1) : (step a r).Orderly := by
  cases a with
  | xmit call =>
      cases place : r.place with
      | idle =>
          simp only [TxRun.step, place]
          exact h.start place call
      | freeing idx reached left =>
          simp only [TxRun.step, place]
          exact h
  | drive => exact h.drive keepsUp
  | read => exact h.read

/-- Steps that change neither the slots nor the addresses touch nothing. -/
theorem untouched_of_eq {r' : TxRun σ} (slots : r'.eth.skBuffP = r.eth.skBuffP)
    (addr : ∀ i, (r'.eth.dscp i).pktAddr = (r.eth.dscp i).pktAddr) : r.Untouched r' :=
  fun i _ _ => ⟨by rw [slots], addr i⟩

/-- A call that begins touches nothing that is queued: the producer's slot is not. -/
theorem Orderly.untouched_start (h : r.Orderly) (idle : r.place = .idle) (call : Xmit σ) :
    r.Untouched (r.start call) := by
  have phase := h.phase
  rw [idle] at phase
  obtain ⟨blank, -⟩ := phase
  have here : r.eth.txCpuIdx % tx0DscpNum = r.eth.txCpuIdx := Nat.mod_eq_of_lt h.inRing
  have other {i : ℕ} (queued : i ∈ r.queue) : i ≠ r.eth.txCpuIdx := by
    rintro rfl
    exact blank.not_loaded (h.loaded _ queued)
  rw [TxRun.start]
  by_cases resetting : call.resetting
  · rw [if_pos resetting]
    exact untouched_of_eq rfl fun _ => rfl
  · rw [if_neg resetting]
    cases maps : r.eth.mapSkb call with
    | mk place s =>
        cases place with
        | none =>
            obtain rfl | rfl := EthTx.mapSkb_none maps
            · exact untouched_of_eq rfl fun _ => rfl
            · intro i queued _
              rw [here]
              simp [EthTx.setDscp, EthTx.drop, other queued]
        | some idx =>
            obtain ⟨rfl, -, rfl⟩ := EthTx.mapSkb_some maps
            intro i queued _
            rw [here]
            simp [EthTx.hook, other queued]

/-- A round of `tx0_free_some` touches what is queued exactly when the slot it empties is
queued. -/
theorem untouched_release_iff {j : ℕ} {place : TxPlace} (loaded : ∀ i ∈ r.queue, Loaded r.eth i) :
    r.Untouched { r with eth := r.eth.release j, place := place } ↔ j ∉ r.queue := by
  constructor
  · intro untouched queued
    obtain ⟨holds, unread⟩ := loaded j queued
    obtain ⟨same, -⟩ := untouched j queued unread
    have emptied : (r.eth.release j).skBuffP j = none := (blank_release_self r.eth j).1
    rw [emptied] at same
    rw [← same] at holds
    cases holds
  · intro free i queued _
    have ne : i ≠ j := by
      rintro rfl
      exact free queued
    simp [EthTx.release, EthTx.setDscp, EthTx.tx0FreeSkb, ne]

/-- The second slot ahead is queued when the hardware is two packets behind. -/
theorem Orderly.second_not_mem_iff (h : r.Orderly) :
    (r.eth.txCpuIdx + 2) % tx0DscpNum ∉ r.queue ↔ r.queue.length ≤ 1 := by
  have apart : (r.eth.txCpuIdx + 2) % tx0DscpNum ≠ (r.eth.txCpuIdx + 3) % tx0DscpNum :=
    places_ne (by decide) (by decide) (by decide)
  constructor
  · intro free
    obtain all | less := List.suffix_cons_iff.mp h.queue
    · rw [all] at free
      exact absurd List.mem_cons_self free
    · exact less.length_le
  · intro short queued
    exact apart (List.mem_singleton.mp ((h.queue_short short).subset queued))

/-- A step touches nothing that is queued unless it releases the second slot while the
hardware is two packets behind. -/
theorem Orderly.untouched_iff (h : r.Orderly) (a : TxInput σ) :
    r.Untouched (TxRun.step a r) ↔ (SecondRound a r → r.queue.length ≤ 1) := by
  have harmless (kept : r.Untouched (TxRun.step a r)) (other : ¬ SecondRound a r) :
      r.Untouched (TxRun.step a r) ↔ (SecondRound a r → r.queue.length ≤ 1) :=
    iff_of_true kept fun second => absurd second other
  cases a with
  | xmit call =>
      apply harmless _ id
      cases place : r.place with
      | idle =>
          simp only [TxRun.step, place]
          exact h.untouched_start place call
      | freeing idx reached left =>
          simp only [TxRun.step, place]
          exact untouched_of_eq rfl fun _ => rfl
  | drive =>
      have phase := h.phase
      obtain ⟨place, next⟩ | ⟨place, next⟩ | ⟨place, next⟩ | ⟨⟨reached, place⟩, next⟩ :=
        h.drive_cases
      · apply harmless
        · rw [next]
          exact untouched_of_eq rfl fun _ => rfl
        · simp only [SecondRound, place, not_false_eq_true]
      · apply harmless
        · rw [place] at phase
          obtain ⟨-, -, first, -⟩ := phase
          rw [next, untouched_release_iff h.loaded]
          exact fun queued => first.not_loaded (h.loaded _ queued)
        · simp only [SecondRound, place, not_false_eq_true]
      · have second : SecondRound (.drive : TxInput σ) r := by simp only [SecondRound, place]
        rw [next, untouched_release_iff h.loaded, h.second_not_mem_iff]
        exact ⟨fun short _ => short, fun short => short second⟩
      · apply harmless
        · rw [next]
          exact untouched_of_eq rfl fun _ => rfl
        · simp only [SecondRound, place, not_false_eq_true]
  | read =>
      apply harmless _ id
      cases queue : r.queue with
      | nil =>
          simp only [TxRun.step, queue]
          exact untouched_of_eq rfl fun _ => rfl
      | cons idx rest =>
          simp only [TxRun.step, queue]
          apply untouched_of_eq
          · rfl
          · intro i
            by_cases here : i = idx
            · simp [EthTx.setDscp, here]
            · simp [EthTx.setDscp, here]

end Steps

theorem orderly_initial : (initial : TxRun σ).Orderly where
  linked := EthTx.Owned.initial.toLinked
  inRing := EthTx.Owned.initial.inRing
  queue := List.nil_suffix
  loaded := by simp [initial]
  phase := ⟨⟨rfl, rfl⟩, ⟨rfl, rfl⟩⟩

/-- In a run of the driver and the hardware, no step touches a packet that is queued and has
not been read if and only if, whenever a call comes to the second slot ahead of the producer,
at most one packet is queued. -/
theorem tx0FreeSome_untouched_iff (inputs : List (TxInput σ)) :
    EveryStep step (fun a r => r.Untouched (step a r)) initial inputs ↔
      EveryStep step (fun a r => SecondRound a r → r.queue.length ≤ 1) initial inputs :=
  everyStep_congr_of_kept Orderly (fun a _ h keepsUp => h.step a keepsUp)
    (fun a _ h => h.untouched_iff a) orderly_initial

/-- Three calls, one after the other, with the hardware idle. -/
def threeCalls : List (TxInput ℕ) :=
  (List.range 3).flatMap fun i =>
    [.xmit ⟨i, 60, 60, false, false, 0x1000#32⟩, .drive, .drive, .drive]

/-- The third call releases the first packet, which has not been read. -/
theorem threeCalls_touched :
    ¬ EveryStep step (fun a r => r.Untouched (step a r)) initial threeCalls := by
  decide +kernel

end TxRun

end En7512.Net
