/-
# A retired block stays retired

When the failing page is the first page of its block, the mark of the update is
where all checks look for it. From then on no search finds the block, no entry
names it, and neither table is put there, whatever happens to the device.

When the failing page is another one, the mark is not where the checks look.
-/

import En7512.Bmt.Persistence

namespace En7512.Bmt

open En7512.Logic En7512.Nand En7512.Logic.Routine

/-- From a cold start on the pages, the check of the block answers bad. -/
def ColdBad (env : Env) (pages : ℕ → Page) (block : ℕ) (kind : BadKind) : Prop :=
  ∀ (cold : Spi) (r : Ram), cold.chip.pages = pages → cold.cache.pageNum = none →
    ∃ s', exec (nandMachine env) (nandBlockBadBmt (blockOffset block) kind) r cold =
      some (true, r, s')

/-- The block is not used, and will not be given out. -/
structure OutOfUse (g : Geometry) (env : Env) (leftover : Leftover) (σ : Device) (block : ℕ) :
    Prop where
  unmapped : ∀ e ∈ σ.ram.bmt.live, e.mappedIndex ≠ block
  not_bmt : σ.ram.bmtBlockIndex ≠ 0 → σ.ram.bmtBlockIndex ≠ block
  not_found : ∀ startFromEnd found σ', found ≠ 0 →
    CarefulRun env leftover (findAvailableBlock g startFromEnd) σ found σ' → found ≠ block

/-- A block of the pool that carries a mark and is not mapped. -/
structure Retired (g : Geometry) (L : OobLayout) (r : Ram) (f : Flash) (block : ℕ) : Prop where
  pool : g.InPool block
  bad : BlockBad L f.pages block
  unmapped : r.bmt.isBlockMapped block = false

section Runs

variable {g : Geometry} {env : Env} {leftover : Leftover} {σ σ' : Device} {block : ℕ}
variable (readable : ∀ t p, env.uncorrectable t p = false)

include readable in
/-- The check finds a mark on the first page of the block. -/
theorem coldBad_of_marked {pages : ℕ → Page} {kind : BadKind} (inside : block < g.totalBlockCount)
    (marked : (firstPage pages block).Marked env.layout kind) : ColdBad env pages block kind := by
  rintro cold r rfl none
  have returns : Returns (nandBlockBadBmt (blockOffset block) kind) := returns_perform _
  have told : wp (DoubtStep env.layout) (nandBlockBadBmt (blockOffset block) kind)
      (fun answer r' _ => answer = true ∧ r' = r) r ⟨cold.chip.pages, ∅⟩ :=
    doubt_checkBad inside fun answer told => ⟨(told (Set.notMem_empty _)).mpr marked, rfl⟩
  obtain ⟨answer, r', s', run⟩ := exists_exec_of_returns (nandMachine env) returns r cold
  obtain ⟨-, -, rfl, rfl⟩ := doubt_exec readable (doubts_of_cold none) told run
  exact ⟨s', run⟩

/-! ## Steps -/

/-- The entry of a failed pool block names the new block. -/
theorem remap_releases {r : Ram} (inv : DisjointBmt g r) {mapIndex : ℕ} (pool : g.InPool block)
    (mapped : r.bmt.isBlockMapped block = true) (other : mapIndex ≠ block) :
    (r.bmt.remap g block mapIndex).isBlockMapped block = false := by
  obtain ⟨live, found⟩ := indexOfMapped_live inv mapped pool
  obtain ⟨count, entry⟩ := remap_pool r.bmt mapIndex pool
  rw [isBlockMapped_eq_false_iff]
  intro i hi
  rw [count] at hi
  rw [entry]
  split
  · exact other
  · next ne => exact fun eq => ne (inv.mapped_inj i hi _ live (eq.trans found.symm))

/-- Blocks that carry a mark are left alone by an update for another block. -/
theorem UpdateResult.bad_same {L : OobLayout} {r r' : Ram} {f f' : Flash} {offset : ℕ}
    {reason : UpdateReason} {dat oob : Option Bytes} {done : Bool}
    (h : UpdateResult g L r offset reason dat oob f done r' f') (bad : BlockBad L f.pages block)
    (other : block ≠ offset / eraseSize) : SameBlock f.pages f'.pages block := by
  have replaced_same : ∀ {found f₁}, Replaced g L r offset reason dat oob f found f₁ →
      SameBlock f.pages f₁.pages block := fun replaced =>
    replaced.change.same block fun free => free.good bad
  have written_same : ∀ {found f₁ f₂ done d} {r₂ : Ram},
      Replaced g L r offset reason dat oob f found f₁ →
      BmtWritten g L (r.remapped g (offset / eraseSize) found) d f₁ done r₂ f₂ →
      SameBlock f.pages f₂.pages block := by
    intro found f₁ f₂ done d r₂ replaced written
    have first := replaced_same replaced
    exact first.trans (written.change.same block fun free => free.good (first.blockBad.mpr bad))
  cases h with
  | refused tables replaced => exact replaced_same replaced
  | unwritten ne replaced tables written => exact written_same replaced written
  | done ne replaced tables written marked =>
      exact (written_same replaced written).trans (sameBlock_mark other)

/-- The bad-block table is where it was, or nowhere, or in a block of the pool that
carried no mark. -/
def BbtPlaced (g : Geometry) (L : OobLayout) (σ σ' : Device) : Prop :=
  σ'.ram.bbtBlockIndex = σ.ram.bbtBlockIndex ∨ σ'.ram.bbtBlockIndex = 0 ∨
    g.InPool σ'.ram.bbtBlockIndex ∧ ¬ BlockBad L σ.flash.pages σ'.ram.bbtBlockIndex

theorem UpdateResult.bbt {L : OobLayout} {r r' : Ram} {f f' : Flash} {offset : ℕ}
    {reason : UpdateReason} {dat oob : Option Bytes} {done : Bool}
    (h : UpdateResult g L r offset reason dat oob f done r' f') :
    r'.bbtBlockIndex = r.bbtBlockIndex := by
  cases h with
  | refused tables replaced => exact tables.bbtBlockIndex
  | unwritten ne replaced tables written => exact tables.bbtBlockIndex
  | done ne replaced tables written marked => exact tables.bbtBlockIndex

/-- An update does not map a block that carries a mark. -/
theorem UpdateResult.unmapped {L : OobLayout} {r r' : Ram} {f f' : Flash} {offset : ℕ}
    {reason : UpdateReason} {dat oob : Option Bytes} {done : Bool}
    (h : UpdateResult g L r offset reason dat oob f done r' f')
    (room : r.bmt.HasRoom g (offset / eraseSize)) (updatable : Updatable g r (offset / eraseSize))
    (bad : BlockBad L f.pages block) (unmapped : r.bmt.isBlockMapped block = false) :
    r'.bmt.isBlockMapped block = false := by
  have remapped : ∀ {found f₁}, found ≠ 0 → Replaced g L r offset reason dat oob f found f₁ →
      (r.bmt.remap g (offset / eraseSize) found).isBlockMapped block = false := by
    intro found f₁ ne replaced
    apply remap_unmapped room updatable _ unmapped
    rintro rfl
    exact (replaced.free ne).good bad
  cases h with
  | refused tables replaced => exact tables.bmt ▸ unmapped
  | unwritten ne replaced tables written => exact tables.bmt ▸ remapped ne replaced
  | done ne replaced tables written marked => exact tables.bmt ▸ remapped ne replaced

/-- A table that start-up has loaded or rebuilt maps no marked block that the table in
memory did not map before. -/
theorem Started.unmapped {L : OobLayout} {r r' before : Ram} {f : Flash} {pages' : ℕ → Page}
    {done : Bool} (started : Started g L r f.pages done r' pages')
    (consistent : Consistent g L before f) (bad : BlockBad L f.pages block)
    (unmapped : before.bmt.isBlockMapped block = false) : r'.bmt.isBlockMapped block = false := by
  cases started.bmtSource with
  | loaded pool holds hbmt _ =>
      have live : r'.bmt.live = before.bmt.live := by
        rw [hbmt, live_load, (consistent.mirrored _ pool holds).2]
      simpa only [BmtStruct.isBlockMapped, live] using unmapped
  | rebuilt absent index hbmt _ =>
      rw [isBlockMapped_eq_false_iff]
      intro i hi eq
      obtain ⟨b, -, points, entry⟩ := entry_of_rebuilt hbmt hi
      rw [entry] at eq
      subst eq
      exact points.1 bad

include readable in
/-- Where the bad-block table goes in one step. -/
theorem Step.bbtPlaced (step : Step g env leftover σ σ')
    (before : Consistent g env.layout σ.ram σ.flash) : BbtPlaced g env.layout σ σ' := by
  cases step with
  | reboot boot =>
      have bootable := before.bootable
      rcases (boot.started readable bootable).bbt_found fun _ => bootable.systemKeys with
        none | ⟨pool, holds⟩
      · exact .inr (.inl none)
      · exact .inr (.inr ⟨pool, holds.1⟩)
  | save save => exact (save.saved readable before).1.bbt
  | client client => exact .inl (congrArg Ram.bbtBlockIndex (client.run.flashStep readable).1)
  | update update => exact .inl (update.result readable before).bbt

include readable in
/-- Every step keeps a retired block retired. -/
theorem Step.retired (step : Step g env leftover σ σ')
    (before : Consistent g env.layout σ.ram σ.flash)
    (retired : Retired g env.layout σ.ram σ.flash block) :
    Retired g env.layout σ'.ram σ'.flash block := by
  obtain ⟨pool, bad, unmapped⟩ := retired
  have unused : ¬ Updatable g σ.ram block := by
    rintro (system | ⟨-, mapped⟩)
    · exact absurd pool.1 (not_le.mpr system)
    · exact Bool.noConfusion (mapped.symm.trans unmapped)
  cases step with
  | reboot boot =>
      have bootable := before.bootable
      have started := boot.started readable bootable
      have same : firstPage σ'.flash.pages block = firstPage σ.flash.pages block :=
        started.pool_same bootable pool
      refine ⟨pool, ?_, started.unmapped before bad unmapped⟩
      simpa only [BlockBad, same] using bad
  | save save =>
      have saved := (save.saved readable before).1
      refine ⟨pool, (saved.same block (.inr bad)).blockBad.mpr bad, ?_⟩
      rw [saved.bmt]
      exact unmapped
  | client client =>
      obtain ⟨ram, step⟩ := client.run.flashStep readable
      have same := (flashStep_frame step fun changes => unused (client.onData block changes)).1
      refine ⟨pool, same.blockBad.mpr bad, ?_⟩
      rw [ram]
      exact unmapped
  | update update =>
      have result := update.result readable before
      have same := result.bad_same bad fun eq => unused (eq ▸ update.updatable)
      exact ⟨pool, same.blockBad.mpr bad, result.unmapped update.room update.updatable bad unmapped⟩

include readable in
/-- The search gives out free blocks only. -/
theorem CarefulRun.found {startFromEnd : Bool} {found : ℕ}
    (run : CarefulRun env leftover (findAvailableBlock g startFromEnd) σ found σ')
    (consistent : Consistent g env.layout σ.ram σ.flash) (ne : found ≠ 0) :
    Free g env.layout σ.ram σ.flash.pages found := by
  obtain ⟨-, change, -, free⟩ := run.post readable (wp_of_along
    (@flash_findAvailableBlock g env.layout leftover (fun _ => True) _ _ startFromEnd
      consistent.ready fun _ _ => trivial))
  exact change.free (free ne)

include readable in
/-- A retired block is not used and will not be given out. -/
theorem Retired.outOfUse (retired : Retired g env.layout σ.ram σ.flash block)
    (consistent : Consistent g env.layout σ.ram σ.flash) : OutOfUse g env leftover σ block := by
  obtain ⟨pool, bad, unmapped⟩ := retired
  refine ⟨fun e he => ?_, fun ne eq => consistent.good ne (eq ▸ bad), ?_⟩
  · obtain ⟨i, hi, rfl⟩ := σ.ram.bmt.mem_live.mp he
    exact (isBlockMapped_eq_false_iff _ _).mp unmapped i hi
  · rintro startFromEnd found σ' ne run rfl
    exact (run.found readable consistent ne).good bad

include readable in
/-- System blocks are never given out. -/
theorem outOfUse_system (system : block < g.systemBlockCount)
    (consistent : Consistent g env.layout σ.ram σ.flash) : OutOfUse g env leftover σ block := by
  have apart : ∀ {b}, g.InPool b → b ≠ block := fun pool eq =>
    absurd pool.1 (not_le.mpr (eq ▸ system))
  refine ⟨fun e he => ?_, fun ne => apart (consistent.disjoint.bmt_apart ne).1, ?_⟩
  · obtain ⟨i, hi, rfl⟩ := σ.ram.bmt.mem_live.mp he
    exact apart (consistent.disjoint.mapped_mem i hi)
  · intro startFromEnd found σ' ne run
    exact apart (run.found readable consistent ne).unused.pool

/-! ## Runs -/

/-- What the device goes through after a state. -/
abbrev Later (g : Geometry) (env : Env) (leftover : Leftover) : Device → Device → Prop :=
  Relation.ReflTransGen (Step g env leftover)

include readable in
theorem Later.consistent {τ : Device} (later : Later g env leftover σ τ)
    (before : Consistent g env.layout σ.ram σ.flash) :
    Consistent g env.layout τ.ram τ.flash := by
  induction later with
  | refl => exact before
  | tail _ step ih => exact step.consistent readable ih

include readable in
theorem Later.retired {τ : Device} (later : Later g env leftover σ τ)
    (before : Consistent g env.layout σ.ram σ.flash)
    (retired : Retired g env.layout σ.ram σ.flash block) :
    Retired g env.layout τ.ram τ.flash block := by
  induction later with
  | refl => exact retired
  | tail run step ih => exact step.retired readable (Later.consistent readable run before) ih

include readable in
/-- The bad-block table does not move to a retired block, nor to a system block. -/
theorem Later.bbt {τ : Device} (later : Later g env leftover σ τ)
    (before : Consistent g env.layout σ.ram σ.flash) (ne : τ.ram.bbtBlockIndex ≠ 0)
    (out : block < g.systemBlockCount ∨ Retired g env.layout σ.ram σ.flash block)
    (placed : τ.ram.bbtBlockIndex = block) : σ.ram.bbtBlockIndex = block := by
  induction later with
  | refl => exact placed
  | tail run step ih =>
      have consistent := Later.consistent readable run before
      rcases step.bbtPlaced readable consistent with same | none | ⟨pool, good⟩
      · rw [same] at ne placed
        exact ih ne placed
      · exact absurd none ne
      · subst placed
        rcases out with system | retired
        · exact absurd pool.1 (not_le.mpr system)
        · exact absurd (Later.retired readable run before retired).bad good

include readable in
/-- After an update for a failure at the first page of a block the flash carries the
mark the checks look for, and the block is out of use for good. -/
theorem update_retires {depth offset : ℕ} {reason : UpdateReason} {dat oob : Option Bytes}
    (life : Life g env leftover σ)
    (update : UpdateRun g env leftover σ depth offset reason dat oob true σ')
    (first : offset / pageSize % pagePerBlock = 0) :
    ColdBad env σ'.spi.chip.pages (offset / eraseSize) (retireKind g (offset / eraseSize)) ∧
      ∀ τ, Later g env leftover σ' τ → OutOfUse g env leftover τ (offset / eraseSize) ∧
        (τ.ram.bbtBlockIndex ≠ 0 → τ.ram.bbtBlockIndex = offset / eraseSize →
          σ.ram.bbtBlockIndex = offset / eraseSize) := by
  have split := g.system_add_pool
  have before := life.consistent readable
  have after := (update.consistent readable before).1
  have result := update.result readable before
  have bbt := result.bbt
  generalize hf' : σ'.flash = f' at result
  cases result with
  | @done found r' f₁ f₂ page ne replaced tables written marked =>
      have page_eq := page_eq_pageAddr first
      have marked' : (firstPage σ'.flash.pages (offset / eraseSize)).Marked env.layout
          (retireKind g (offset / eraseSize)) := by
        rw [hf', page_eq, firstPage]
        simpa only [Function.update_self] using marked
      have retired : g.InPool (offset / eraseSize) →
          Retired g env.layout σ'.ram σ'.flash (offset / eraseSize) := by
        intro pool
        refine ⟨pool, blockBad_of_marked marked', ?_⟩
        rcases update.updatable with system | ⟨-, mapped⟩
        · exact absurd pool.1 (not_le.mpr system)
        · have other : found ≠ offset / eraseSize := by
            rintro rfl
            exact updatable_used update.updatable (replaced.free ne).unused
          exact tables.bmt ▸ remap_releases before.disjoint pool mapped other
      rcases update.updatable with system | ⟨pool, -⟩
      · refine ⟨coldBad_of_marked readable (split ▸ Nat.lt_add_right _ system) marked',
          fun τ later => ⟨?_, fun ne eq => ?_⟩⟩
        · exact outOfUse_system readable system (Later.consistent readable later after)
        · exact bbt ▸ Later.bbt readable later after ne (.inl system) eq
      · refine ⟨coldBad_of_marked readable pool.2 marked', fun τ later => ⟨?_, fun ne eq => ?_⟩⟩
        · exact (Later.retired readable later after (retired pool)).outOfUse readable
            (Later.consistent readable later after)
        · exact bbt ▸ Later.bbt readable later after ne (.inr (retired pool)) eq

end Runs

/-- Block 1 fails at its first page. -/
theorem update_retires_block_one : ∃ σ' : Device,
    ColdBad faultless σ'.spi.chip.pages 1 .raw ∧
      ∀ τ, Later eightBlocks faultless anything σ' τ →
        OutOfUse eightBlocks faultless anything τ 1 := by
  obtain ⟨σ', -, update⟩ := remapped_update
  obtain ⟨bad, out⟩ := update_retires (fun _ _ => rfl) (startedDevice_life anything) update
    (by decide)
  exact ⟨σ', bad, fun τ later => (out τ later).1⟩

/-- Block 1 fails at its sixth page. -/
def midBlockRun : Option (Bool × Ram × Spi) :=
  exec (nandMachine faultless) (updateBmt eightBlocks 5 (blockOffset 1 + 5 * pageSize) .writeFail
    (some allOnes) (some allOnes)) started.2.1 started.2.2

/-- The update succeeds and the mark is on that page, where no check looks. -/
theorem mid_block_not_retired : startedRun = some started ∧ ∃ r s,
    midBlockRun = some (true, r, s) ∧
      (s.chip.pages (pageAddr 1 + 5)).Marked faultless.layout .raw ∧
      ¬ ColdBad faultless s.chip.pages 1 .raw := by
  refine ⟨(Option.some_get _).symm, ?_⟩
  obtain ⟨⟨done, r, s⟩, run⟩ : ∃ out, midBlockRun = some out :=
    Option.isSome_iff_exists.mp (by decide +kernel)
  have told : midBlockRun.map (fun out => (out.1,
      decide ((out.2.2.chip.pages (pageAddr 1 + 5)).Marked faultless.layout .raw),
      (exec (nandMachine faultless) (nandBlockBadBmt (blockOffset 1) .raw) Ram.initial
        ⟨out.2.2.chip, .initial⟩).map fun out => out.1)) =
      some (true, true, some false) := by decide +kernel
  rw [run] at told
  simp only [Option.map_some, Option.some.injEq, Prod.mk.injEq, decide_eq_true_eq] at told
  obtain ⟨rfl, marked, good⟩ := told
  refine ⟨r, s, run, marked, fun bad => ?_⟩
  obtain ⟨s', checked⟩ := bad ⟨s.chip, .initial⟩ Ram.initial rfl rfl
  rw [checked] at good
  simp at good

end En7512.Bmt
