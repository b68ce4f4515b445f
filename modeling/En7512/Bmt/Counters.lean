/-
# The counters of the tables

`mapped_count` and `badblock_count` are `u8`s, and the tables have room for 500 and 1000
entries. Beside each loop that fills a table stands the same loop with a list of the
entries it has put there. The counter is the length of the list modulo 256, and the table
shows the list as long as that makes no difference.
-/

import En7512.Bmt.Boot
import En7512.Bmt.Remapping

namespace En7512.Bmt

open En7512.Logic En7512.Nand En7512.Logic.Routine

/-! ## The loops, with the entries they put -/

/-- `reconstructFrom`, with the entries that have been put into the table. -/
def reconstructFromPut (g : Geometry) : List ℕ → List BmtEntry → Drv (List BmtEntry)
  | [], put => pure put
  | block :: blocks, put => do
      let marked ← blockMarkedBad block
      if marked then reconstructFromPut g blocks put
      else
        let _ ← nandReadPageBmt (pageAddr block)
        let r ← get
        let badIndex := getBadIndexFromOob r.oobBuf
        if g.systemBlockCount ≤ badIndex then reconstructFromPut g blocks put
        else
          markUnmarked [badIndex]
          modify fun r => { r with bmt := r.bmt.append badIndex block }
          reconstructFromPut g blocks (put ++ [⟨badIndex, block⟩])

/-- `reconstructBmt`, with the entries. -/
def reconstructBmtPut (g : Geometry) : Drv (List BmtEntry) := do
  modify fun r => { r with bmt := { r.bmt.zeroTable g with
    version := tableVersion, badCount := 0, mappedCount := 0 } }
  reconstructFromPut g g.poolBlocks []

/-- `scanBadblockRawFrom`, with the blocks that have been put into the table; `none` is the
error. -/
def scanBadblockRawFromPut : List ℕ → List ℕ → Drv (Option (List ℕ))
  | [], put => do
      modify fun r => { r with initBbt := { r.initBbt with badblockCount := put.length % 256 } }
      pure (some put)
  | block :: blocks, put => do
      let marked ← nandBlockBadBmt (blockOffset block) .raw
      let r ← get
      if marked ∧ r.bmt.isBadblockRaw block then
        if maxRawBadBlockSize ≤ put.length then pure none
        else
          modify fun r => { r with initBbt := { r.initBbt with
            badblockTable := Function.update r.initBbt.badblockTable put.length block } }
          scanBadblockRawFromPut blocks (put ++ [block])
      else scanBadblockRawFromPut blocks put

/-- `scanBadblockRaw`, with the blocks. -/
def scanBadblockRawPut (g : Geometry) : Drv (Option (List ℕ)) :=
  scanBadblockRawFromPut (List.range' 1 (g.systemBlockCount - 1)) []

section Erase

variable {σ : Type} {M : Machine NandOp NandResp σ} {g : Geometry} {r : Ram} {s : σ}

/-- Without the list it is the loop of the source. -/
theorem exec_reconstructFromPut (blocks : List ℕ) (put : List BmtEntry) :
    (exec M (reconstructFromPut g blocks put) r s).map (fun out => ((), out.2)) =
      exec M (reconstructFrom g blocks) r s := by
  induction blocks generalizing r s put with
  | nil => rfl
  | cons block blocks ih =>
      rw [reconstructFromPut, reconstructFrom, exec_bind, exec_bind, Option.map_bind]
      congr 1
      ext1 ⟨marked, r₁, s₁⟩
      simp only [Function.comp_apply]
      split
      · exact ih put
      rw [exec_bind, exec_bind, Option.map_bind]
      congr 1
      ext1 ⟨read, r₂, s₂⟩
      simp only [Function.comp_apply, exec_bind, exec_get, Option.bind_some]
      split
      · exact ih put
      rw [exec_bind, exec_bind, Option.map_bind]
      congr 1
      ext1 ⟨done, r₃, s₃⟩
      simp only [Function.comp_apply, exec_bind]
      exact ih _

theorem exec_reconstructBmtPut :
    (exec M (reconstructBmtPut g) r s).map (fun out => ((), out.2)) =
      exec M (reconstructBmt g) r s := by
  rw [reconstructBmtPut, reconstructBmt, exec_bind, exec_bind]
  exact exec_reconstructFromPut _ _

theorem exec_scanBadblockRawFromPut (blocks put : List ℕ) :
    (exec M (scanBadblockRawFromPut blocks put) r s).map (fun out => (out.1.isSome, out.2)) =
      exec M (scanBadblockRawFrom blocks put.length) r s := by
  induction blocks generalizing r s put with
  | nil => rfl
  | cons block blocks ih =>
      rw [scanBadblockRawFromPut, scanBadblockRawFrom, exec_bind, exec_bind, Option.map_bind]
      congr 1
      ext1 ⟨marked, r₁, s₁⟩
      simp only [Function.comp_apply, exec_bind, exec_get, Option.bind_some]
      split
      · split
        · rfl
        · rw [exec_bind, exec_bind]
          have rest := @ih { r₁ with initBbt := { r₁.initBbt with
            badblockTable := Function.update r₁.initBbt.badblockTable put.length block } } s₁
            (put ++ [block])
          rw [List.length_append, List.length_singleton] at rest
          exact rest
      · exact ih put

theorem exec_scanBadblockRawPut :
    (exec M (scanBadblockRawPut g) r s).map (fun out => (out.1.isSome, out.2)) =
      exec M (scanBadblockRaw g) r s :=
  exec_scanBadblockRawFromPut _ []

end Erase

/-! ## The counter and the list -/

/-- The counter is the length of the list modulo 256, and while that is the length itself
the table shows the list. -/
structure Tallied (bmt : BmtStruct) (put : List BmtEntry) : Prop where
  count : bmt.mappedCount = put.length % 256
  live : put.length ≤ 255 → bmt.live = put

/-- What has been put after `update_bmt` has taken a block for another, if it has found one:
a system block gets an entry, and a pool block is replaced in its own. -/
def putBy (g : Geometry) (bmt : BmtStruct) (badIndex block : ℕ) (put : List BmtEntry) :
    List BmtEntry :=
  if block = 0 then put
  else if g.systemBlockCount ≤ badIndex then
    put.modify (bmt.indexOfMapped g badIndex) fun e => ⟨e.badIndex, block⟩
  else put ++ [⟨badIndex, block⟩]

section Tallied

variable {g : Geometry} {bmt : BmtStruct} {put : List BmtEntry} {badIndex block : ℕ}

theorem tallied_live (counted : bmt.mappedCount < 256) : Tallied bmt bmt.live := by
  have length : bmt.live.length = bmt.mappedCount := by simp [BmtStruct.live]
  constructor
  · rw [length, Nat.mod_eq_of_lt counted]
  · exact fun _ => rfl

theorem Tallied.append (h : Tallied bmt put) (badIndex mapIndex : ℕ) :
    Tallied (bmt.append badIndex mapIndex) (put ++ [⟨badIndex, mapIndex⟩]) := by
  constructor
  · rw [BmtStruct.append, List.length_append, List.length_singleton, h.count, Nat.mod_add_mod]
  · intro few
    rw [List.length_append, List.length_singleton] at few
    have room : bmt.mappedCount < 255 := by
      rw [h.count]
      omega
    rw [(live_append bmt room badIndex mapIndex).2, h.live (by omega)]

/-- Replacing the block of an entry. -/
theorem Tallied.modify (h : Tallied bmt put) (i mapIndex : ℕ) :
    Tallied { bmt with table := Function.update bmt.table i ⟨(bmt.table i).badIndex, mapIndex⟩ }
      (put.modify i fun e => ⟨e.badIndex, mapIndex⟩) := by
  constructor
  · rw [List.length_modify]
    exact h.count
  · intro few
    rw [List.length_modify] at few
    rw [← h.live few]
    apply List.ext_getElem
    · simp [BmtStruct.live]
    · intro k first second
      simp only [BmtStruct.live, List.getElem_map, List.getElem_range, List.getElem_modify,
        Function.update_apply]
      by_cases here : i = k
      · rw [if_pos here.symm, if_pos here, here]
      · rw [if_neg (Ne.symm here), if_neg here]

theorem Tallied.remap (h : Tallied bmt put) (ne : block ≠ 0) :
    Tallied (bmt.remap g badIndex block) (putBy g bmt badIndex block put) := by
  rw [putBy, if_neg ne, BmtStruct.remap]
  split
  · exact h.modify _ block
  · exact h.append badIndex block

theorem Tallied.exact_iff (h : Tallied bmt put) :
    bmt.mappedCount = put.length ∧ bmt.live = put ↔ put.length ≤ 255 := by
  constructor
  · rintro ⟨count, -⟩
    have few := h.count
    omega
  · intro few
    refine ⟨?_, h.live few⟩
    rw [h.count]
    exact Nat.mod_eq_of_lt (Nat.lt_succ_of_le few)

end Tallied

/-! ## What the loops do -/

section Loops

variable {g : Geometry} {r : Ram}

theorem readPage_bmt (page : ℕ) :
    Ensures (nandReadPageBmt page) r fun _ r' => r'.bmt = r.bmt := by
  rw [nandReadPageBmt, ensures_bind, ensures_perform]
  intro answer
  cases answer <;> rfl

theorem reconstructFromPut_tallied (blocks : List ℕ) {put : List BmtEntry}
    (tallied : Tallied r.bmt put) :
    Ensures (reconstructFromPut g blocks put) r fun put' r' => Tallied r'.bmt put' := by
  induction blocks generalizing r put with
  | nil => exact tallied
  | cons block blocks ih =>
      rw [reconstructFromPut, ensures_bind]
      apply ensures_mono _ (blockMarkedBad_ensures block)
      rintro marked _ rfl
      split
      · exact ih tallied
      rw [ensures_bind]
      apply ensures_mono _ (readPage_bmt _)
      intro read r₁ same
      have tallied₁ : Tallied r₁.bmt put := same ▸ tallied
      rw [ensures_bind, ensures_get]
      show Ensures (if _ then _ else _) _ _
      split
      · exact ih tallied₁
      · rw [ensures_bind]
        apply ensures_mono _ (markUnmarked_ensures _)
        rintro _ _ rfl
        rw [ensures_bind, ensures_modify]
        exact ih (tallied₁.append _ block)

theorem reconstructBmtPut_tallied :
    Ensures (reconstructBmtPut g) r fun put r' => Tallied r'.bmt put := by
  rw [reconstructBmtPut, ensures_bind, ensures_modify]
  apply reconstructFromPut_tallied
  exact ⟨rfl, fun _ => rfl⟩

/-- The table of the bad blocks shows the list as far as it goes. -/
theorem scanBadblockRawFromPut_listed (blocks : List ℕ) {put : List ℕ}
    (shown : listed r.initBbt put.length = put) :
    Ensures (scanBadblockRawFromPut blocks put) r fun out r' => ∀ put', out = some put' →
      r'.initBbt.badblockCount = put'.length % 256 ∧ listed r'.initBbt put'.length = put' := by
  induction blocks generalizing r put with
  | nil =>
      rw [scanBadblockRawFromPut, ensures_bind, ensures_modify, ensures_pure]
      rintro _ ⟨⟩
      exact ⟨rfl, shown⟩
  | cons block blocks ih =>
      rw [scanBadblockRawFromPut, ensures_bind, nandBlockBadBmt, ensures_perform]
      intro marked
      rw [ensures_bind, ensures_get]
      split
      · split
        · rintro _ ⟨⟩
        · rw [ensures_bind, ensures_modify]
          apply ih
          rw [List.length_append, List.length_singleton]
          exact (listed_put r.initBbt put.length block).trans (by rw [shown])
      · exact ih shown

end Loops

/-! ## Runs -/

/-- The tables, with the entries that have been put there: from any table, or a table that
`reconstruct_bmt` has made, by any calls of `update_bmt`. The device may do anything. -/
inductive Filled (g : Geometry) : Ram → List BmtEntry → Prop
  | start {r : Ram} (counted : r.bmt.mappedCount < 256) : Filled g r r.bmt.live
  | rebuilt {env : Env} {s s' : Spi} {r r' : Ram} {put : List BmtEntry}
      (run : exec (nandMachine env) (reconstructBmtPut g) r s = some (put, r', s')) :
      Filled g r' put
  | update {env : Env} {s s₁ s' : Spi} {r r₁ r' : Ram} {put : List BmtEntry}
      {depth offset block : ℕ} {reason : UpdateReason} {dat oob : Option Bytes} {done : Bool}
      (before : Filled g r put)
      (chosen : exec (nandMachine env) (replacementBlock g depth offset reason dat oob) r s =
        some (block, r₁, s₁))
      (run : exec (nandMachine env) (updateBmt g depth offset reason dat oob) r s =
        some (done, r', s')) :
      Filled g r' (putBy g r.bmt (offset / eraseSize) block put)

section Runs

variable {g : Geometry} {env : Env} {r r₁ r' : Ram} {s s₁ s' : Spi}

/-- The table after `update_bmt`, whatever its result. -/
theorem updateBmt_table {depth offset block : ℕ} {reason : UpdateReason} {dat oob : Option Bytes}
    {done : Bool} (chosen : exec (nandMachine env) (replacementBlock g depth offset reason dat oob)
      r s = some (block, r₁, s₁))
    (run : exec (nandMachine env) (updateBmt g depth offset reason dat oob) r s =
      some (done, r', s')) :
    r'.bmt = if block = 0 then r.bmt else r.bmt.remap g (offset / eraseSize) block := by
  have same := (ensures_exec (replacementBlock_ensures g depth offset reason dat oob) chosen).1
  rw [updateBmt, exec_bind, chosen, Option.bind_some] at run
  by_cases none : block = 0
  · rw [if_pos none] at run ⊢
    cases run
    exact same.bmt
  · rw [if_neg none] at run ⊢
    rw [← same.bmt]
    apply ensures_exec _ run
    rw [ensures_bind, ensures_modify, ensures_bind, fillBmtBuffers, ensures_modify, ensures_bind,
      ensures_get, ensures_bind]
    apply ensures_mono _ (writeBmtToFlash_ensures g depth _ _)
    intro written r₂ moved
    have kept : r₂.bmt = r₁.bmt.remap g (offset / eraseSize) block := moved.bmt
    cases written with
    | false => exact kept
    | true =>
        rw [if_pos rfl, ensures_bind]
        apply ensures_mono _ (markBlockBadBmt_ensures _ _)
        rintro _ r₃ rfl
        exact kept

theorem Filled.tallied {put : List BmtEntry} (filled : Filled g r put) : Tallied r.bmt put := by
  induction filled with
  | start counted => exact tallied_live counted
  | rebuilt run => exact ensures_exec reconstructBmtPut_tallied run
  | @update env s s₁ s' r r₁ r' put depth offset block reason dat oob done before chosen run ih =>
      rw [updateBmt_table chosen run]
      by_cases none : block = 0
      · rw [if_pos none, putBy, if_pos none]
        exact ih
      · rw [if_neg none]
        exact ih.remap none

end Runs

/-- The counters are the numbers of the entries that have been put into the tables, and the
tables show these entries, if and only if there are at most 255 of them. -/
theorem counters_exact_iff {g : Geometry} {env : Env} {r r₀ r₁ : Ram} {s₀ s₁ : Spi}
    {put : List BmtEntry} {bad : List ℕ} (filled : Filled g r put)
    (scanned : exec (nandMachine env) (scanBadblockRawPut g) r₀ s₀ = some (some bad, r₁, s₁)) :
    (r.bmt.mappedCount = put.length ∧ r.bmt.live = put ↔ put.length ≤ 255) ∧
      (r₁.initBbt.badblockCount = bad.length ∧ r₁.initBbt.bad = bad ↔ bad.length ≤ 255) := by
  refine ⟨filled.tallied.exact_iff, ?_⟩
  have none : listed r₀.initBbt ([] : List ℕ).length = [] := rfl
  obtain ⟨count, shown⟩ := ensures_exec (scanBadblockRawFromPut_listed _ none) scanned bad rfl
  constructor
  · rintro ⟨exact, -⟩
    omega
  · intro few
    rw [Nat.mod_eq_of_lt (Nat.lt_succ_of_le few)] at count
    refine ⟨count, ?_⟩
    rw [InitBbtStruct.bad, count]
    exact shown

/-- The table of an erased chip, after a failed erase of block 1. -/
def eraseFailedOnce : Option (List BmtEntry × ℕ × Bool × Ram) :=
  (exec (nandMachine faultless) (reconstructBmtPut eightBlocks)
    Ram.initial blankSpi).bind fun made =>
    (exec (nandMachine faultless) (replacementBlock eightBlocks 5 (blockOffset 1) .eraseFail none
      none) made.2.1 made.2.2).bind fun chosen =>
        (exec (nandMachine faultless) (updateBmt eightBlocks 5 (blockOffset 1) .eraseFail none none)
          made.2.1 made.2.2).map fun out => (made.1, chosen.1, out.1, out.2.1)

/-- One entry is counted as one, and no bad block as none. -/
theorem counters_exact_one : ∃ r s r' s', Filled eightBlocks r [⟨1, 4⟩] ∧
    exec (nandMachine faultless) (scanBadblockRawPut eightBlocks) r s = some (some [], r', s') ∧
    r.bmt.mappedCount = 1 ∧ r.bmt.live = [⟨1, 4⟩] ∧ r'.initBbt.badblockCount = 0 := by
  have told : eraseFailedOnce.map (fun out => (out.1, out.2.1)) = some ([], 4) := by decide +kernel
  obtain ⟨⟨put, block, done, r⟩, run, eq⟩ := Option.map_eq_some_iff.mp told
  obtain ⟨rfl, rfl⟩ := Prod.mk.inj eq
  obtain ⟨⟨put, r₀, s₀⟩, made, rest⟩ := Option.bind_eq_some_iff.mp run
  obtain ⟨⟨block, r₁, s₁⟩, chosen, rest⟩ := Option.bind_eq_some_iff.mp rest
  obtain ⟨⟨done', r₂, s₂⟩, update, eq⟩ := Option.map_eq_some_iff.mp rest
  simp only [Prod.mk.injEq] at eq
  obtain ⟨rfl, rfl, rfl, rfl⟩ := eq
  have filled : Filled eightBlocks r₂ [⟨1, 4⟩] := .update (.rebuilt made) chosen update
  have none : eraseFailedOnce.bind (fun out => (exec (nandMachine faultless)
      (scanBadblockRawPut eightBlocks) out.2.2.2 blankSpi).map fun out => out.1) =
        some (some []) := by decide +kernel
  rw [run, Option.bind_some] at none
  obtain ⟨⟨bad, r₃, s₃⟩, scan, rfl⟩ := Option.map_eq_some_iff.mp none
  have exact := counters_exact_iff filled scan
  obtain ⟨count, live⟩ := exact.1.mpr (by decide)
  exact ⟨r₂, blankSpi, r₃, s₃, filled, scan, count, live, (exact.2.mpr (by decide)).1⟩

/-- A chip of 300 blocks. -/
def threeHundredBlocks : Geometry where
  totalBlockCount := 300
  bmtBlockCount := 4
  mtdOobsize := 26
  pool_pos := eightBlocks.pool_pos
  pool_lt := eightBlocks.pool_lt
  system_pos := by decide
  offsets_fit := by decide

/-- Blocks 1 to 256 have a factory mark. -/
def manyMarked : Spi :=
  ⟨⟨fun p => if 1 ≤ p / pagePerBlock ∧ p / pagePerBlock ≤ 256 then ⟨allOnes, fun _ => 0⟩
    else .erased, 0⟩, .initial⟩

/-- 256 bad blocks are counted as none. -/
theorem badblock_count_wraps : ∃ bad r s, exec (nandMachine faultless)
      (scanBadblockRawPut threeHundredBlocks) Ram.initial manyMarked = some (some bad, r, s) ∧
    bad.length = 256 ∧ r.initBbt.badblockCount = 0 := by
  have told : (exec (nandMachine faultless) (scanBadblockRawPut threeHundredBlocks) Ram.initial
      manyMarked).map (fun out => (out.1.map List.length, out.2.1.initBbt.badblockCount)) =
        some (some 256, 0) := by decide +kernel
  obtain ⟨⟨out, r, s⟩, run, eq⟩ := Option.map_eq_some_iff.mp told
  obtain ⟨length, count⟩ := Prod.mk.inj eq
  obtain ⟨bad, rfl, full⟩ := Option.map_eq_some_iff.mp length
  exact ⟨bad, r, s, run, full, count⟩

end En7512.Bmt
