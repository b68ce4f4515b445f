/-
# The logical block table

`create_badblock_table_by_bbt` turns the list of factory-bad blocks into the
array `pBbt`, which gives each logical block number its physical block. It
starts from the identity and, for each listed block in turn, searches the block
in the array and shifts the rest of the array up by one. The two cursors of the
search and of the shift run on from one listed block to the next.

The array ends up as the enumeration of the good blocks unless the very first
search fails: then the shift starts at the beginning of the array and moves
every block. That happens exactly when the listed blocks are the last ones of
the system area.
-/

import En7512.Bmt.Table
import En7512.Logic.SkipPast

namespace En7512.Bmt

open En7512.Logic

/-- `pBbt` with the cursors `j` and `k`. -/
structure TableCursors where
  pBbt : ℕ → ℕ
  j : ℕ
  k : ℕ

/-- The loop over `j`: search `bad` in the next `steps` entries. The result is
the new cursor and whether the loop was left by its `break`. -/
def searchLoop (pBbt : ℕ → ℕ) (bad : ℕ) : ℕ → ℕ → ℕ × Bool
  | 0, j => (j, false)
  | steps + 1, j => if pBbt j = bad then (j, true) else searchLoop pBbt bad steps (j + 1)

/-- The loop over `k`: increment the next `steps` entries, each a `u16`. -/
def shiftLoop : ℕ → ℕ → (ℕ → ℕ) → (ℕ → ℕ) × ℕ
  | 0, k, pBbt => (pBbt, k)
  | steps + 1, k, pBbt =>
      shiftLoop steps (k + 1) (Function.update pBbt k ((pBbt k + 1) % 65536))

/-- The body of the outer loop, for one listed block. -/
def shiftOut (size : ℕ) (c : TableCursors) (bad : ℕ) : TableCursors :=
  let (j, found) := searchLoop c.pBbt bad (size - c.j) c.j
  let (pBbt, k) :=
    if found then shiftLoop (size - j) j c.pBbt else shiftLoop (size - c.k) c.k c.pBbt
  ⟨pBbt, j, k⟩

/-- The first loop: the identity, each entry a `u16`. Entries from `size` on are
not touched. -/
def identityTable (size : ℕ) (pBbt : ℕ → ℕ) : ℕ → ℕ := fun i =>
  if i < size then i % 65536 else pBbt i

/-- `create_badblock_table_by_bbt`, on the previous content of `pBbt`. -/
def createBadblockTableByBbt (systemBlockCount : ℕ) (initBbt : InitBbtStruct) (pBbt : ℕ → ℕ) :
    ℕ → ℕ :=
  let size := systemBlockCount - initBbt.badblockCount
  (initBbt.bad.foldl (shiftOut size) ⟨identityTable size pBbt, 0, 0⟩).pBbt

/-- `get_mapping_block_index_by_bbt`. -/
def getMappingBlockIndexByBbt (systemBlockCount : ℕ) (initBbt : InitBbtStruct) (pBbt : ℕ → ℕ)
    (index : ℕ) : ℕ :=
  if systemBlockCount - initBbt.badblockCount ≤ index then index else pBbt index

/-! ## The two inner loops -/

theorem shiftLoop_eq (steps k : ℕ) (pBbt : ℕ → ℕ) :
    shiftLoop steps k pBbt =
      (fun i => if k ≤ i ∧ i < k + steps then (pBbt i + 1) % 65536 else pBbt i, k + steps) := by
  induction steps generalizing k pBbt with
  | zero =>
      rw [shiftLoop]
      refine Prod.ext (funext fun i => ?_) (by simp)
      exact (if_neg (by omega)).symm
  | succ steps ih =>
      rw [shiftLoop, ih]
      refine Prod.ext (funext fun i => ?_) (by simp only []; omega)
      by_cases hi : i = k
      · subst hi
        simp
      · have range : k + 1 ≤ i ∧ i < k + 1 + steps ↔ k ≤ i ∧ i < k + (steps + 1) := by omega
        simp only [Function.update_of_ne hi, range]

/-- The search stops at the first entry that holds the block, or at the end. -/
theorem searchLoop_spec (pBbt : ℕ → ℕ) (bad steps j : ℕ) :
    (∀ i, j ≤ i → i < (searchLoop pBbt bad steps j).1 → pBbt i ≠ bad) ∧
      ((searchLoop pBbt bad steps j).2 = true ∧ j ≤ (searchLoop pBbt bad steps j).1 ∧
          (searchLoop pBbt bad steps j).1 < j + steps ∧
          pBbt (searchLoop pBbt bad steps j).1 = bad ∨
        (searchLoop pBbt bad steps j).2 = false ∧
          (searchLoop pBbt bad steps j).1 = j + steps) := by
  induction steps generalizing j with
  | zero => exact ⟨fun i _ h => by simp only [searchLoop] at h; omega, .inr ⟨rfl, rfl⟩⟩
  | succ steps ih =>
      rw [searchLoop]
      by_cases hit : pBbt j = bad
      · rw [if_pos hit]
        exact ⟨fun i _ h => by simp only [] at h; omega,
          .inl ⟨rfl, le_rfl, by simp only []; omega, hit⟩⟩
      · rw [if_neg hit]
        obtain ⟨earlier, later⟩ := ih (j + 1)
        refine ⟨fun i hi h => ?_, ?_⟩
        · rcases Nat.eq_or_lt_of_le hi with rfl | hlt
          · exact hit
          · exact earlier i hlt h
        · rcases later with ⟨found, low, high, eq⟩ | ⟨missed, eq⟩
          · exact .inl ⟨found, by omega, by omega, eq⟩
          · exact .inr ⟨missed, by omega⟩

/-! ## The outer loop -/

/-- The invariant of the outer loop. The array numbers the blocks outside the
part of the list that has been handled; what the search has passed is smaller
than every block still to come; and the shift has reached the end of the array,
unless nothing has been handled. -/
structure ShiftedOut (size : ℕ) (handled rest : List ℕ) (c : TableCursors) : Prop where
  table : ∀ i < size, c.pBbt i = skipPast handled i
  passed : ∀ b ∈ rest, ∀ i < c.j, skipPast handled i < b
  cursor_le : c.j ≤ size
  shifted : handled = [] ∧ c.j = 0 ∧ c.k = 0 ∨ c.k = size

section OuterLoop

variable {size : ℕ} {handled rest : List ℕ} {b : ℕ} {c : TableCursors}

/-- If the search finds the block, the shift steps over it. -/
theorem shiftOut_found (inv : ShiftedOut size handled (b :: rest) c)
    (increasing : (b :: rest).Pairwise (· < ·)) (room : size + handled.length < 65536)
    {j : ℕ} (hj : j < size) (search : searchLoop c.pBbt b (size - c.j) c.j = (j, true))
    (at_j : skipPast handled j = b) :
    ShiftedOut size (handled ++ [b]) rest (shiftOut size c b) := by
  have mono := skipPast_strictMono handled
  have result : shiftOut size c b =
      ⟨fun i => if j ≤ i ∧ i < j + (size - j) then (c.pBbt i + 1) % 65536 else c.pBbt i,
        j, j + (size - j)⟩ := by
    simp only [shiftOut, search, shiftLoop_eq, if_true]
  rw [result]
  refine ⟨fun i hi => ?_, fun b' hb' i hi => ?_, hj.le, .inr (by simp only []; omega)⟩
  · have bound := skipPast_le handled i
    rw [skipPast_concat]
    simp only [inv.table i hi]
    by_cases hji : j ≤ i
    · have reached : b ≤ skipPast handled i := at_j ▸ mono.monotone hji
      rw [if_pos (by omega), stepOver, if_pos reached]
      omega
    · have before : skipPast handled i < b := at_j ▸ mono (not_le.mp hji)
      rw [if_neg (by omega), stepOver, if_neg (by omega)]
  · have before : skipPast handled i < b := at_j ▸ mono hi
    have next : b < b' := (List.pairwise_cons.mp increasing).1 b' hb'
    rw [skipPast_concat, stepOver, if_neg (by omega)]
    omega

/-- If the search fails after the first block, the block lies beyond the array
and nothing is shifted. -/
theorem shiftOut_missed (inv : ShiftedOut size handled (b :: rest) c)
    (increasing : (b :: rest).Pairwise (· < ·))
    (search : searchLoop c.pBbt b (size - c.j) c.j = (size, false)) (done : c.k = size)
    (beyond : ∀ i < size, skipPast handled i < b) :
    ShiftedOut size (handled ++ [b]) rest (shiftOut size c b) := by
  have result : shiftOut size c b = ⟨c.pBbt, size, size⟩ := by
    simp only [shiftOut, search, done, Nat.sub_self, shiftLoop]
    rfl
  rw [result]
  have step : ∀ i < size, stepOver (skipPast handled i) b = skipPast handled i := fun i hi =>
    if_neg (by have := beyond i hi; omega)
  refine ⟨fun i hi => ?_, fun b' hb' i hi => ?_, le_rfl, .inr rfl⟩
  · rw [skipPast_concat, step i hi]
    exact inv.table i hi
  · rw [skipPast_concat, step i hi]
    exact (beyond i hi).trans ((List.pairwise_cons.mp increasing).1 b' hb')

/-- One listed block, of which the first lies inside the array. -/
theorem shiftOut_step (inv : ShiftedOut size handled (b :: rest) c)
    (increasing : (handled ++ b :: rest).Pairwise (· < ·))
    (room : size + handled.length < 65536) (first : handled = [] → b < size) :
    ShiftedOut size (handled ++ [b]) rest (shiftOut size c b) := by
  obtain ⟨handledInc, restInc, apart⟩ := List.pairwise_append.mp increasing
  have fresh : b ∉ handled := fun mem => (apart b mem b (by simp)).false
  have mono := skipPast_strictMono handled
  obtain ⟨n, hn⟩ := exists_skipPast_eq handledInc fresh
  obtain ⟨earlier, outcome⟩ := searchLoop_spec c.pBbt b (size - c.j) c.j
  have span : c.j + (size - c.j) = size := by
    have := inv.cursor_le
    omega
  rw [span] at outcome
  rcases hs : searchLoop c.pBbt b (size - c.j) c.j with ⟨j, found⟩
  rw [hs] at earlier outcome
  rcases outcome with ⟨hfound, -, hj, eq⟩ | ⟨missed, end_eq⟩
  · obtain rfl : found = true := hfound
    exact shiftOut_found inv restInc room hj hs (inv.table j hj ▸ eq)
  · obtain rfl : found = false := missed
    obtain rfl : j = size := end_eq
    have outside : j ≤ n := by
      by_contra inside
      have hnj : n < j := not_le.mp inside
      have value : c.pBbt n = b := (inv.table n hnj).trans hn
      by_cases reached : c.j ≤ n
      · exact earlier n reached hnj value
      · have := inv.passed b (by simp) n (not_le.mp reached)
        omega
    have beyond : ∀ i < j, skipPast handled i < b := fun i hi =>
      hn ▸ mono (lt_of_lt_of_le hi outside)
    have done : c.k = j := by
      rcases inv.shifted with ⟨rfl, -, -⟩ | done
      · have := first rfl
        simp only [skipPast_nil] at hn
        omega
      · exact done
    exact shiftOut_missed inv restInc hs done beyond

/-- The whole list. -/
theorem foldl_shiftOut (inv : ShiftedOut size handled rest c)
    (increasing : (handled ++ rest).Pairwise (· < ·))
    (room : size + (handled ++ rest).length ≤ 65536)
    (first : ∀ b ∈ (handled ++ rest).head?, b < size) :
    ShiftedOut size (handled ++ rest) [] (rest.foldl (shiftOut size) c) := by
  induction rest generalizing handled c with
  | nil => simpa using inv
  | cons b rest ih =>
      have step := shiftOut_step inv increasing
        (by simp only [List.length_append, List.length_cons] at room; omega)
        (by rintro rfl; exact first b (by simp))
      rw [List.foldl_cons, List.append_cons]
      rw [List.append_cons] at increasing room first
      exact ih step increasing room first

end OuterLoop

/-- With the first listed block beyond the array, the first shift moves every
entry and no later one moves any. -/
theorem foldl_shiftOut_beyond {size : ℕ} (rest : List ℕ) {c : TableCursors}
    (table : ∀ i < size, c.pBbt i = i + 1) (hj : c.j = size) (hk : c.k = size) :
    ∀ i < size, (rest.foldl (shiftOut size) c).pBbt i = i + 1 := by
  induction rest generalizing c with
  | nil => exact table
  | cons b rest ih =>
      have same : shiftOut size c b = c := by
        obtain ⟨pBbt, j, k⟩ := c
        obtain rfl : j = size := hj
        obtain rfl : k = j := hk
        simp only [shiftOut, Nat.sub_self, searchLoop, shiftLoop]
        rfl
      rw [List.foldl_cons, same]
      exact ih table hj hk

theorem first_shift_beyond {size b : ℕ} (room : size < 65536) (beyond : size ≤ b)
    (pBbt : ℕ → ℕ) :
    let c := shiftOut size ⟨identityTable size pBbt, 0, 0⟩ b
    (∀ i < size, c.pBbt i = i + 1) ∧ c.j = size ∧ c.k = size := by
  have entry : ∀ i < size, identityTable size pBbt i = i := fun i hi => by
    rw [identityTable, if_pos hi, Nat.mod_eq_of_lt (by omega)]
  obtain ⟨-, ⟨-, -, hj, eq⟩ | ⟨missed, end_eq⟩⟩ :=
    searchLoop_spec (identityTable size pBbt) b size 0
  · rw [entry _ (by omega)] at eq
    omega
  · rcases hs : searchLoop (identityTable size pBbt) b size 0 with ⟨j, found⟩
    rw [hs] at missed end_eq
    obtain rfl : found = false := missed
    simp only [Nat.zero_add] at end_eq
    subst end_eq
    simp only [shiftOut, Nat.sub_zero, hs, shiftLoop_eq, Bool.false_eq_true, if_false]
    refine ⟨fun i hi => ?_, trivial, by omega⟩
    rw [if_pos (by omega), entry i hi]
    omega

/-- The entries are `u16`s throughout. -/
theorem foldl_shiftOut_lt {size : ℕ} (bad : List ℕ) {c : TableCursors}
    (small : ∀ i < size, c.pBbt i < 65536) :
    ∀ i < size, (bad.foldl (shiftOut size) c).pBbt i < 65536 := by
  induction bad generalizing c with
  | nil => exact small
  | cons b bad ih =>
      refine ih fun i hi => ?_
      simp only [shiftOut, shiftLoop_eq]
      split <;> simp only [] <;> split
      all_goals first
        | exact Nat.mod_lt _ (by norm_num)
        | exact small i hi

/-- Each listed block moves an entry by one at most. -/
theorem foldl_shiftOut_le (size : ℕ) (bad : List ℕ) (c : TableCursors) (i : ℕ) :
    (bad.foldl (shiftOut size) c).pBbt i ≤ c.pBbt i + bad.length := by
  induction bad generalizing c with
  | nil => exact le_rfl
  | cons b bad ih =>
      have step : (shiftOut size c b).pBbt i ≤ c.pBbt i + 1 := by
        simp only [shiftOut, shiftLoop_eq]
        split <;> simp only [] <;> split
        all_goals first
          | exact Nat.mod_le _ _
          | exact Nat.le_succ _
      have rest := ih (shiftOut size c b)
      rw [List.foldl_cons, List.length_cons]
      omega

/-- Whatever is listed, the table numbers system blocks. -/
theorem createBadblockTableByBbt_lt {systemBlockCount : ℕ} (initBbt : InitBbtStruct)
    (pBbt : ℕ → ℕ) {i : ℕ} (hi : i < systemBlockCount - initBbt.badblockCount) :
    createBadblockTableByBbt systemBlockCount initBbt pBbt i < systemBlockCount := by
  have moved := foldl_shiftOut_le (systemBlockCount - initBbt.badblockCount) initBbt.bad
    ⟨identityTable (systemBlockCount - initBbt.badblockCount) pBbt, 0, 0⟩ i
  have start : identityTable (systemBlockCount - initBbt.badblockCount) pBbt i ≤ i := by
    rw [identityTable, if_pos hi]
    exact Nat.mod_le _ _
  have length : initBbt.bad.length = initBbt.badblockCount := by simp [InitBbtStruct.bad]
  simp only [createBadblockTableByBbt, length] at moved ⊢
  omega

/-! ## The table -/

/-- The table enumerates the blocks of the system area that are not listed: it
increases, and it is a bijection from the logical block numbers onto them. -/
structure EnumeratesGoodBlocks (systemBlockCount : ℕ) (initBbt : InitBbtStruct)
    (pBbt : ℕ → ℕ) : Prop where
  increasing : StrictMonoOn pBbt (Set.Iio (systemBlockCount - initBbt.badblockCount))
  bijOn : Set.BijOn (getMappingBlockIndexByBbt systemBlockCount initBbt pBbt)
    (Set.Iio (systemBlockCount - initBbt.badblockCount))
    {b | b < systemBlockCount ∧ b ∉ initBbt.bad}

section Table

variable {systemBlockCount : ℕ} {initBbt : InitBbtStruct}

@[simp] theorem InitBbtStruct.length_bad (bbt : InitBbtStruct) :
    bbt.bad.length = bbt.badblockCount := by
  simp [InitBbtStruct.bad]

/-- What the callers of the table promise about the list: it increases strictly,
and its members are `u16`s and system blocks other than block 0. -/
structure FactoryList (systemBlockCount : ℕ) (initBbt : InitBbtStruct) : Prop where
  increasing : initBbt.bad.Pairwise (· < ·)
  mem : ∀ b ∈ initBbt.bad, 1 ≤ b ∧ b < systemBlockCount ∧ b < 65536

theorem FactoryList.count_lt (factory : FactoryList systemBlockCount initBbt)
    (pos : 0 < systemBlockCount) : initBbt.badblockCount < systemBlockCount := by
  rw [← initBbt.length_bad]
  have room := add_length_lt factory.increasing (fun c hc => (factory.mem c hc).1)
    pos fun c hc => (factory.mem c hc).2.1
  omega

/-- Inside the array, the table is `skipPast` of the list. -/
theorem createBadblockTableByBbt_eq (factory : FactoryList systemBlockCount initBbt)
    (small : systemBlockCount ≤ 65536)
    (first : ∀ b ∈ initBbt.bad.head?, b < systemBlockCount - initBbt.badblockCount)
    (pBbt : ℕ → ℕ) {i : ℕ} (hi : i < systemBlockCount - initBbt.badblockCount) :
    createBadblockTableByBbt systemBlockCount initBbt pBbt i = skipPast initBbt.bad i := by
  have start : ShiftedOut (systemBlockCount - initBbt.badblockCount) [] initBbt.bad
      ⟨identityTable (systemBlockCount - initBbt.badblockCount) pBbt, 0, 0⟩ := by
    refine ⟨fun i hi => ?_, fun _ _ i hi => absurd hi (Nat.not_lt_zero i), Nat.zero_le _,
      .inl ⟨rfl, rfl, rfl⟩⟩
    simp only [identityTable]
    rw [if_pos hi, skipPast_nil, Nat.mod_eq_of_lt (by omega)]
  exact (foldl_shiftOut start factory.increasing
    (by simp only [List.nil_append, InitBbtStruct.length_bad]; omega) first).table i hi

theorem enumerates_of_eq (factory : FactoryList systemBlockCount initBbt) {pBbt : ℕ → ℕ}
    (table : ∀ i < systemBlockCount - initBbt.badblockCount, pBbt i = skipPast initBbt.bad i) :
    EnumeratesGoodBlocks systemBlockCount initBbt pBbt := by
  have numbered := skipPast_bijOn factory.increasing fun b hb => (factory.mem b hb).2.1
  rw [InitBbtStruct.length_bad] at numbered
  refine ⟨fun i hi j hj hij => ?_, numbered.congr fun i hi => ?_⟩
  · rw [table i hi, table j hj]
    exact skipPast_strictMono _ hij
  · rw [getMappingBlockIndexByBbt, if_neg (not_le.mpr hi), table i hi]

/-- With the listed blocks at the end of the system area, every entry is shifted once. -/
theorem createBadblockTableByBbt_beyond (small : systemBlockCount ≤ 65536)
    (pos : 1 ≤ initBbt.badblockCount) {b : ℕ} {rest : List ℕ} (list : initBbt.bad = b :: rest)
    (beyond : systemBlockCount - initBbt.badblockCount ≤ b) (pBbt : ℕ → ℕ) {i : ℕ}
    (hi : i < systemBlockCount - initBbt.badblockCount) :
    createBadblockTableByBbt systemBlockCount initBbt pBbt i = i + 1 := by
  have inside : systemBlockCount - initBbt.badblockCount < 65536 := by omega
  obtain ⟨table, hj, hk⟩ := first_shift_beyond inside beyond pBbt
  simp only [createBadblockTableByBbt, list, List.foldl_cons]
  exact foldl_shiftOut_beyond rest table hj hk i hi

/-- A list of factory blocks gives a table that skips forward only. -/
theorem createBadblockTableByBbt_strictMono (factory : FactoryList systemBlockCount initBbt)
    (small : systemBlockCount ≤ 65536) (pBbt : ℕ → ℕ) {i j : ℕ} (less : i < j)
    (hj : j < systemBlockCount - initBbt.badblockCount) :
    createBadblockTableByBbt systemBlockCount initBbt pBbt i <
      createBadblockTableByBbt systemBlockCount initBbt pBbt j := by
  have hi := less.trans hj
  by_cases first : ∀ b ∈ initBbt.bad.head?, b < systemBlockCount - initBbt.badblockCount
  · rw [createBadblockTableByBbt_eq factory small first pBbt hi,
      createBadblockTableByBbt_eq factory small first pBbt hj]
    exact skipPast_strictMono _ less
  · simp only [not_forall, not_lt] at first
    obtain ⟨b, head, beyond⟩ := first
    obtain ⟨rest, list⟩ := List.head?_eq_some_iff.mp head
    have pos : 1 ≤ initBbt.badblockCount := by
      rw [← initBbt.length_bad, list, List.length_cons]
      exact Nat.succ_pos _
    rw [createBadblockTableByBbt_beyond small pos list beyond pBbt hi,
      createBadblockTableByBbt_beyond small pos list beyond pBbt hj]
    exact Nat.succ_lt_succ less

/-- With the listed blocks at the end of the system area, block 0 is missing. -/
theorem not_enumerates_of_beyond (small : systemBlockCount ≤ 65536)
    (factory : FactoryList systemBlockCount initBbt) {b : ℕ} {rest : List ℕ}
    (list : initBbt.bad = b :: rest)
    (beyond : systemBlockCount - initBbt.badblockCount ≤ b) (pBbt : ℕ → ℕ) :
    ¬ EnumeratesGoodBlocks systemBlockCount initBbt
      (createBadblockTableByBbt systemBlockCount initBbt pBbt) := by
  intro enumerates
  have hb := factory.mem b (by simp [list])
  have length : initBbt.badblockCount = rest.length + 1 := by
    rw [← initBbt.length_bad, list, List.length_cons]
  have shifted : ∀ i < systemBlockCount - initBbt.badblockCount,
      createBadblockTableByBbt systemBlockCount initBbt pBbt i = i + 1 := fun i hi =>
    createBadblockTableByBbt_beyond small (by omega) list beyond pBbt hi
  have good : (0 : ℕ) ∈ {b | b < systemBlockCount ∧ b ∉ initBbt.bad} :=
    ⟨by omega, fun mem => absurd (factory.mem 0 mem).1 (by omega)⟩
  obtain ⟨i, hi, eq⟩ := enumerates.bijOn.surjOn good
  rw [getMappingBlockIndexByBbt, if_neg (not_le.mpr hi), shifted i hi] at eq
  omega

/-- With more system blocks than a `u16` can number, block 65536 is missing. -/
theorem not_enumerates_of_large (large : 65536 < systemBlockCount)
    (factory : FactoryList systemBlockCount initBbt) (pBbt : ℕ → ℕ) :
    ¬ EnumeratesGoodBlocks systemBlockCount initBbt
      (createBadblockTableByBbt systemBlockCount initBbt pBbt) := by
  intro enumerates
  have good : (65536 : ℕ) ∈ {b | b < systemBlockCount ∧ b ∉ initBbt.bad} :=
    ⟨large, fun mem => absurd (factory.mem _ mem).2.2 (by omega)⟩
  obtain ⟨i, hi, eq⟩ := enumerates.bijOn.surjOn good
  have start : ∀ i < systemBlockCount - initBbt.badblockCount,
      identityTable (systemBlockCount - initBbt.badblockCount) pBbt i < 65536 := fun i hi => by
    rw [identityTable, if_pos hi]
    exact Nat.mod_lt _ (by norm_num)
  have entry : createBadblockTableByBbt systemBlockCount initBbt pBbt i < 65536 :=
    foldl_shiftOut_lt (c := ⟨_, 0, 0⟩) initBbt.bad start i hi
  rw [getMappingBlockIndexByBbt, if_neg (not_le.mpr hi)] at eq
  omega

/-- The table is right exactly when no listed block is missed by the first
search, that is, when the first listed block lies inside the array, and block
numbers fit a `u16`. -/
theorem createBadblockTableByBbt_enumerates_iff (factory : FactoryList systemBlockCount initBbt)
    (pBbt : ℕ → ℕ) :
    EnumeratesGoodBlocks systemBlockCount initBbt
        (createBadblockTableByBbt systemBlockCount initBbt pBbt) ↔
      systemBlockCount ≤ 65536 ∧
        ∀ b ∈ initBbt.bad.head?, b < systemBlockCount - initBbt.badblockCount := by
  constructor
  · intro enumerates
    have small : systemBlockCount ≤ 65536 := by
      by_contra large
      exact not_enumerates_of_large (not_le.mp large) factory pBbt enumerates
    refine ⟨small, fun b hb => ?_⟩
    by_contra beyond
    obtain ⟨rest, list⟩ := List.head?_eq_some_iff.mp hb
    exact not_enumerates_of_beyond small factory list (not_lt.mp beyond) pBbt enumerates
  · rintro ⟨small, first⟩
    exact enumerates_of_eq factory fun i hi =>
      createBadblockTableByBbt_eq factory small first pBbt hi

end Table

/-- The list of the given blocks. -/
def InitBbtStruct.ofList (bad : List ℕ) : InitBbtStruct :=
  ⟨fun i => bad.getD i 0, 1, bad.length⟩

/-- Eight system blocks of which blocks 2 and 7 are bad. -/
theorem createBadblockTableByBbt_enumerates_two_seven :
    EnumeratesGoodBlocks 8 (.ofList [2, 7])
      (createBadblockTableByBbt 8 (.ofList [2, 7]) fun _ => 0) := by
  have factory : FactoryList 8 (.ofList [2, 7]) := ⟨by decide, by decide⟩
  refine (createBadblockTableByBbt_enumerates_iff factory _).mpr ⟨by decide, ?_⟩
  have list : (InitBbtStruct.ofList [2, 7]).bad = [2, 7] := by decide
  intro b hb
  obtain rfl : 2 = b := by simpa [list] using hb
  decide

/-- Four system blocks of which the last is bad: logical block 0 is block 1, and
the bad block is in the table. -/
theorem not_enumerates_last_block :
    ¬ EnumeratesGoodBlocks 4 (.ofList [3])
      (createBadblockTableByBbt 4 (.ofList [3]) fun _ => 0) := by
  intro enumerates
  have hit := enumerates.bijOn.mapsTo (show (2 : ℕ) ∈ Set.Iio _ by decide)
  exact absurd hit (by decide)

end En7512.Bmt
