/-
# The stored table is the live one

After an update that has succeeded, a driver that starts on the flash finds the
table in memory. In the runs of `Life` there is one image on the flash and it is
in the block of the table, so the search from the end of the pool stops there.

A run that is not careful can lose the table: when the first program of the
image fails, the mark is not seen in the page in memory and the same block is
taken again.
-/

import En7512.Bmt.Life
import En7512.Nand.Checked

namespace En7512.Bmt

open En7512.Logic En7512.Nand En7512.Logic.Routine

/-! ## What is found -/

/-- From a cold start on the pages, `load_bmt_data` finds a table, and it has the
entries of the one in memory. -/
def Persisted (g : Geometry) (env : Env) (r : Ram) (pages : ℕ → Page) : Prop :=
  ∀ (cold : Spi) (r₀ : Ram), cold.chip.pages = pages → cold.cache.pageNum = none →
    ∃ block r' s', exec (nandMachine env) (loadBmtData g) r₀ cold = some (block, r', s') ∧
      block ≠ 0 ∧ r'.bmt.mappedCount = r.bmt.mappedCount ∧ r'.bmt.live = r.bmt.live

section Found

variable {g : Geometry} {env : Env} {leftover : Leftover}
variable (readable : ∀ t p, env.uncorrectable t p = false)

include readable in
/-- One image on the flash, in the block of the table, is what the search finds. -/
theorem persisted_of_mirrored {r : Ram} {pages : ℕ → Page} (pool : g.InPool r.bmtBlockIndex)
    (holds : HoldsBmt g env.layout pages r.bmtBlockIndex)
    (mirrored : ∀ b, g.InPool b → HoldsBmt g env.layout pages b →
      b = r.bmtBlockIndex ∧ imageLive (firstPage pages b).data = r.bmt.live) :
    Persisted g env r pages := by
  rintro cold r₀ rfl none
  obtain ⟨block, r', s', run⟩ := exists_exec_of_returns (nandMachine env)
    (returns_loadBmtFrom g g.poolBlocks.reverse) r₀ cold
  have inPool : ∀ b, b ∈ g.poolBlocks.reverse → g.InPool b := fun b hb =>
    g.mem_poolBlocks.mp (List.mem_reverse.mp hb)
  obtain ⟨d', -, loaded⟩ := doubt_exec readable (doubts_of_cold none)
    (doubt_loadBmtFrom g.poolBlocks.reverse inPool fun _ _ => Set.notMem_empty _) run
  refine ⟨block, r', s', run, ?_⟩
  cases loaded with
  | none _ _ _ absent =>
      exact absurd holds (absent _ (List.mem_reverse.mpr (g.mem_poolBlocks.mpr pool)))
  | found mem holds' hbmt _ _ _ =>
      obtain ⟨-, table⟩ := mirrored block (inPool _ mem) holds'
      have live : r'.bmt.live = r.bmt.live := by
        rw [hbmt, live_load, table]
      exact ⟨(inPool _ mem).pos, ((r'.bmt.live_eq_iff r.bmt).mp live).1, live⟩

variable {σ σ' : Device}

include readable in
/-- At any time of its life, after an update that has succeeded, the device finds its
table again. -/
theorem update_persisted (life : Life g env leftover σ) {depth offset : ℕ}
    {reason : UpdateReason} {dat oob : Option Bytes}
    (update : UpdateRun g env leftover σ depth offset reason dat oob true σ') :
    Persisted g env σ'.ram σ'.spi.chip.pages := by
  obtain ⟨after, stored⟩ := update.consistent readable (life.consistent readable)
  obtain ⟨pool, holds⟩ := stored rfl
  exact persisted_of_mirrored readable pool holds after.mirrored

end Found

/-! ## A run -/

/-- The device of a watched run. -/
def watchedDevice (r : Ram) (w : Watch) : Device := ⟨r, w.spi, {b | b ∈ w.failed}⟩

/-- A run that passes the check. -/
def checkedRun {α : Type} (env : Env) (mayFail : NandOp → Bool) (m : Drv α) (r : Ram) (w : Watch) :
    Option (α × Ram × Watch) :=
  if Keeps (checkMachine env) (fun op w => passes env mayFail op w = true) m r w then
    exec (checkMachine env) m r w
  else none

theorem carefulRun_of_checked {α : Type} {env : Env} {leftover : Leftover}
    (readable : ∀ t p, env.uncorrectable t p = false) {mayFail : NandOp → Bool}
    (allows : ∀ op old new, mayFail op = true → leftover op old new) {m : Drv α} {r r' : Ram}
    {a : α}
    {w w' : Watch} (describes : w.held.Describes env w.spi)
    (run : checkedRun env mayFail m r w = some (a, r', w')) :
    CarefulRun env leftover m (watchedDevice r w) a (watchedDevice r' w') ∧
      w'.held.Describes env w'.spi := by
  rw [checkedRun] at run
  split at run
  · next keeps =>
    obtain ⟨ran, describes'⟩ := exec_of_check readable describes keeps run
    exact ⟨⟨keeps_of_passes readable allows describes keeps, ran⟩, describes'⟩
  · cases run

/-- The driver started on an erased chip. -/
def started : Bool × Ram × Spi := startedRun.get rfl

def startedDevice : Device := ⟨started.2.1, started.2.2, ∅⟩

theorem startedDevice_life (leftover : Leftover) :
    Life eightBlocks faultless leftover startedDevice := by
  have blank := fun b => blank_holds_no_table b
  have bootable : Bootable eightBlocks faultless.layout blankSpi.chip.pages :=
    bootable_of_absent fun b _ => (blank b).1
  have run : startedRun = some started := (Option.some_get _).symm
  exact .start bootable ⟨fun _ => (length_backPointers _).trans (by decide),
    ⟨blankSpi, rfl, rfl, run⟩, rfl⟩

/-- After the erasure of block 1 has failed. -/
def remappedRun : Option (Bool × Ram × Watch) :=
  checkedRun faultless (fun _ => false)
    (updateBmt eightBlocks 5 (blockOffset 1) .eraseFail none none) started.2.1
    ⟨started.2.2, some (192, .broken), [1]⟩

theorem startedDevice_failing : startedDevice.failing 1 =
    watchedDevice started.2.1 ⟨started.2.2, some (192, .broken), [1]⟩ := by
  have failed : insert 1 (∅ : Set ℕ) = {b | b ∈ [1]} := by
    ext b
    simp
  rw [Device.failing, startedDevice, watchedDevice, failed]

theorem remapped_update : ∃ σ' : Device, σ'.ram.bmt.live = [⟨1, 4⟩] ∧
    UpdateRun eightBlocks faultless anything startedDevice 5 (blockOffset 1) .eraseFail none none
      true σ' := by
  have told : remappedRun.map (fun out => (out.1, out.2.1.bmt.live)) = some (true, [⟨1, 4⟩]) := by
    decide +kernel
  obtain ⟨⟨done, r, w⟩, run, same⟩ := Option.map_eq_some_iff.mp told
  obtain ⟨rfl, live⟩ : done = true ∧ r.bmt.live = [⟨1, 4⟩] := by simpa using same
  have held : Held.Describes faultless (some (192, .broken)) started.2.2 := rfl
  obtain ⟨careful, -⟩ := @carefulRun_of_checked _ faultless anything (fun _ _ => rfl) _
    (fun _ _ _ _ => trivial) _ _ _ _ _ _ held run
  rw [← startedDevice_failing] at careful
  exact ⟨_, live, .inl (by decide), fun _ => by decide, by simp, careful⟩

theorem update_persisted_block_one : ∃ σ' : Device, σ'.ram.bmt.live = [⟨1, 4⟩] ∧
    Persisted eightBlocks faultless σ'.ram σ'.spi.chip.pages := by
  obtain ⟨σ', live, update⟩ := remapped_update
  exact ⟨σ', live, update_persisted (fun _ _ => rfl) (startedDevice_life anything) update⟩

/-! ## A run that is not careful -/

/-- The fifth program or erase operation fails. -/
def fifthFails : Env :=
  { faultless with outcome := fun t => if t = 4 then .fail fun _ => .erased else .done }

/-- The same update; the operation that fails is the first program of the image. -/
def retriedRun : Option (Bool × Ram × Spi) :=
  (exec (nandMachine fifthFails) (startTables eightBlocks) Ram.initial blankSpi).bind fun out =>
    exec (nandMachine fifthFails) (updateBmt eightBlocks 5 (blockOffset 1) .eraseFail none none)
      out.2.1 out.2.2

/-- The update succeeds, and the table is in a block that is marked. -/
theorem retried_not_persisted : ∃ r s, retriedRun = some (true, r, s) ∧
    (firstPage s.chip.pages 7).Marked fifthFails.layout .generateLater ∧
    (firstPage s.chip.pages 1).Marked fifthFails.layout .raw ∧
    ¬ Persisted eightBlocks fifthFails r s.chip.pages := by
  obtain ⟨⟨done, r, s⟩, run⟩ : ∃ out, retriedRun = some out := Option.isSome_iff_exists.mp rfl
  have told : retriedRun.map (fun out => (out.1,
      decide ((firstPage out.2.2.chip.pages 7).Marked fifthFails.layout .generateLater),
      decide ((firstPage out.2.2.chip.pages 1).Marked fifthFails.layout .raw),
      (exec (nandMachine fifthFails) (loadBmtData eightBlocks) Ram.initial
        ⟨out.2.2.chip, .initial⟩).map fun out => out.1)) =
      some (true, true, true, some 0) := by decide +kernel
  rw [run] at told
  simp only [Option.map_some, Option.some.injEq, Prod.mk.injEq, decide_eq_true_eq] at told
  obtain ⟨rfl, marked, retired, nothing⟩ := told
  refine ⟨r, s, run, marked, retired, fun persisted => ?_⟩
  obtain ⟨block, r', s', loaded, ne, -⟩ := persisted ⟨s.chip, .initial⟩ Ram.initial rfl rfl
  rw [loaded] at nothing
  exact ne (Option.some.inj nothing)

end En7512.Bmt
