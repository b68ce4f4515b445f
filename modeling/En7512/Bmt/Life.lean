/-
# The life of the device

The driver is started, writes its tables out, serves accesses to the data,
updates its table when a block fails, and is started again. `Life` collects the
states it goes through, in which no call reads or writes past a stale page in
memory, every mark takes effect and no failed block is programmed.

In all of these states the tables in memory and on the flash agree.
-/

import En7512.Bmt.Consistency
import En7512.Bmt.Remapping

namespace En7512.Bmt

open En7512.Logic En7512.Nand En7512.Logic.Routine

/-- The variables of the driver, the chip with the page in memory, and the blocks that
have failed and carry no mark on their first page since. -/
structure Device where
  ram : Ram
  spi : Spi
  failed : Set ℕ

/-- The array, with the ledger. -/
def Device.flash (σ : Device) : Flash := flashOf (σ.spi, σ.failed)

/-- The block counts as failed. -/
def Device.failing (σ : Device) (block : ℕ) : Device :=
  { σ with failed := insert block σ.failed }

/-- A run all of whose calls are careful. -/
structure CarefulRun (env : Env) (leftover : Leftover) {α : Type} (m : Drv α) (σ : Device) (a : α)
    (σ' : Device) : Prop where
  keeps : Keeps (watchMachine env) (Careful env leftover) m σ.ram (σ.spi, σ.failed)
  run : exec (watchMachine env) m σ.ram (σ.spi, σ.failed) = some (a, σ'.ram, σ'.spi, σ'.failed)

/-- Every image of the BMT on the flash can be the one the driver last wrote: the image
of a disjoint table, in the block of the table. -/
def Bootable (g : Geometry) (L : OobLayout) (pages : ℕ → Page) : Prop :=
  ∃ writer : Ram, DisjointBmt g writer ∧ ∀ b, g.InPool b → HoldsBmt g L pages b →
    b = writer.bmtBlockIndex ∧ imageLive (firstPage pages b).data = writer.bmt.live

/-- Without an image any table could be the one that was written. -/
theorem bootable_of_absent {g : Geometry} {L : OobLayout} {pages : ℕ → Page}
    (absent : ∀ b, g.InPool b → ¬ HoldsBmt g L pages b) : Bootable g L pages := by
  refine ⟨Ram.initial, ⟨Nat.zero_le _, fun i hi => absurd hi (Nat.not_lt_zero i),
    fun i hi => absurd hi (Nat.not_lt_zero i), fun i hi => absurd hi (Nat.not_lt_zero i),
    fun _ _ _ => rfl, fun ne => absurd rfl ne⟩, fun b pool holds => absurd holds (absent b pool)⟩

/-- A table that has to be rebuilt has at most 255 entries. -/
def FewPointers (g : Geometry) (L : OobLayout) (pages : ℕ → Page) : Prop :=
  (∀ b, g.InPool b → ¬ HoldsBmt g L pages b) →
    (backPointers g L pages g.poolBlocks).length ≤ 255

/-- `init_bmt` and `start_init_bbt`, with no page in memory and no block known to have
failed. -/
structure BootRun (g : Geometry) (env : Env) (pages : ℕ → Page) (done : Bool) (σ : Device) :
    Prop where
  few : FewPointers g env.layout pages
  run : ∃ s : Spi, s.chip.pages = pages ∧ s.cache.pageNum = none ∧
    exec (nandMachine env) (startTables g) Ram.initial s = some (done, σ.ram, σ.spi)
  failed : σ.failed = ∅

/-- `write_bbt_or_bmt_to_flash`. The bad-block table is written once. -/
structure SaveRun (g : Geometry) (env : Env) (leftover : Leftover) (σ : Device) (depth : ℕ)
    (done : Bool) (σ' : Device) : Prop where
  unwritten : σ.ram.needWriteBbtToNand = true → σ.ram.bbtBlockIndex = 0
  run : CarefulRun env leftover (writeBbtOrBmtToFlash g depth) σ done σ'

/-- The operation changes pages of the block. -/
def Changes : NandOp → ℕ → Prop
  | .markBadblock offset _, block => offset / pageSize / pagePerBlock = block
  | .eraseBlock erased, block => erased = block
  | .writePage page _ _ _ _ _, block => page / pagePerBlock = block
  | _, _ => False

/-- An access to a block that carries data, by the layers above. It does not make the
block look like an image of the BMT. -/
structure ClientRun (g : Geometry) (env : Env) (leftover : Leftover) (σ : Device) (op : NandOp)
    (answer : NandResp op) (σ' : Device) : Prop where
  onData : ∀ b, Changes op b → Updatable g σ.ram b
  noImage : ∀ b, Changes op b → g.InPool b → ¬ HoldsBmt g env.layout σ'.spi.chip.pages b
  run : CarefulRun env leftover (Routine.perform op) σ answer σ'

/-- `update_bmt`, for a block that has failed. The data that is moved does not look
like an image of the BMT. -/
structure UpdateRun (g : Geometry) (env : Env) (leftover : Leftover) (σ : Device)
    (depth offset : ℕ) (reason : UpdateReason) (dat oob : Option Bytes) (done : Bool)
    (σ' : Device) : Prop where
  updatable : Updatable g σ.ram (offset / eraseSize)
  room : σ.ram.bmt.HasRoom g (offset / eraseSize)
  noImage : reason = .writeFail → ¬ IsBmtImage g (firstData σ.spi.chip.pages offset dat)
  run : CarefulRun env leftover (updateBmt g depth offset reason dat oob)
    (σ.failing (offset / eraseSize)) done σ'

/-- What the device may do next. -/
inductive Step (g : Geometry) (env : Env) (leftover : Leftover) : Device → Device → Prop
  | reboot {σ σ' : Device} {done : Bool} (boot : BootRun g env σ.spi.chip.pages done σ') :
      Step g env leftover σ σ'
  | save {σ σ' : Device} {depth : ℕ} {done : Bool} (save : SaveRun g env leftover σ depth done σ') :
      Step g env leftover σ σ'
  | client {σ σ' : Device} {op : NandOp} {answer : NandResp op}
      (client : ClientRun g env leftover σ op answer σ') : Step g env leftover σ σ'
  | update {σ σ' : Device} {depth offset : ℕ} {reason : UpdateReason} {dat oob : Option Bytes}
      {done : Bool} (update : UpdateRun g env leftover σ depth offset reason dat oob done σ') :
      Step g env leftover σ σ'

/-- The states the device goes through. -/
inductive Life (g : Geometry) (env : Env) (leftover : Leftover) : Device → Prop
  | start {pages : ℕ → Page} {done : Bool} {σ : Device} (bootable : Bootable g env.layout pages)
      (boot : BootRun g env pages done σ) : Life g env leftover σ
  | step {σ σ' : Device} (life : Life g env leftover σ) (step : Step g env leftover σ σ') :
      Life g env leftover σ'

section Runs

variable {g : Geometry} {env : Env} {leftover : Leftover} {σ σ' : Device}
variable (readable : ∀ t p, env.uncorrectable t p = false)

include readable in
/-- What is proved of a routine over `FlashStep` holds of its careful runs. -/
theorem CarefulRun.post {α : Type} {m : Drv α} {a : α} (run : CarefulRun env leftover m σ a σ')
    {post : α → Ram → Flash → Prop} (h : wp (FlashStep env.layout leftover) m post σ.ram σ.flash) :
    post a σ'.ram σ'.flash :=
  flash_exec readable h run.keeps run.run

/-! ## Start-up -/

theorem Bootable.systemKeys {L : OobLayout} {pages : ℕ → Page} (bootable : Bootable g L pages)
    {b : ℕ} (pool : g.InPool b) (holds : HoldsBmt g L pages b) :
    SystemKeys g (imageLive (firstPage pages b).data) := by
  obtain ⟨writer, disjoint, images⟩ := bootable
  intro e he
  rw [(images b pool holds).2] at he
  obtain ⟨i, hi, rfl⟩ := writer.bmt.mem_live.mp he
  exact disjoint.bad_lt i hi

include readable in
/-- Start-up in terms of the flash it finds. -/
theorem BootRun.started {pages : ℕ → Page} {done : Bool} (boot : BootRun g env pages done σ)
    (bootable : Bootable g env.layout pages) :
    Started g env.layout Ram.initial pages done σ.ram σ.flash.pages := by
  obtain ⟨s, rfl, cold, run⟩ := boot.run
  obtain ⟨d', rel, started⟩ := doubt_exec readable (doubts_of_cold cold)
    (doubt_startTables boot.few rfl fun b hb holds => bootable.systemKeys hb holds) run
  rw [← rel.pages] at started
  exact started

/-- Start-up leaves the pool as it was. -/
theorem Started.pool_same {L : OobLayout} {r r' : Ram} {pages pages' : ℕ → Page} {done : Bool}
    (started : Started g L r pages done r' pages') (bootable : Bootable g L pages) {b : ℕ}
    (pool : g.InPool b) : firstPage pages' b = firstPage pages b :=
  started.untouched _ ((started.keys fun _ => bootable.systemKeys).not_mem pool)

/-- After start-up the table in memory is the one on the flash, or there is none
there. -/
theorem Started.consistent {L : OobLayout} {r r' : Ram} {pages pages' : ℕ → Page} {done : Bool}
    (started : Started g L r pages done r' pages') (bootable : Bootable g L pages)
    (few : FewPointers g L pages) (failed : Set ℕ) : Consistent g L r' ⟨pages', failed⟩ := by
  have pool_same : ∀ {b}, g.InPool b → firstPage pages' b = firstPage pages b :=
    fun pool => started.pool_same bootable pool
  have holds_same : ∀ {b}, g.InPool b → (HoldsBmt g L pages' b ↔ HoldsBmt g L pages b) := by
    intro b pool
    simp only [HoldsBmt, BlockBad, pool_same pool]
  have bbt := started.bbt_found fun _ => bootable.systemKeys
  have unready : r'.poolErased = true → Ready g L r' ⟨pages', failed⟩ := fun erased => by
    rw [started.poolErased] at erased
    exact absurd erased (by decide)
  obtain ⟨writer, disjoint, images⟩ := bootable
  cases started.bmtSource with
  | loaded pool holds hbmt _ =>
      obtain ⟨index, table⟩ := images _ pool holds
      have live : r'.bmt.live = writer.bmt.live := by
        rw [hbmt, live_load, table]
      refine ⟨disjointBmt_of_loaded disjoint index.symm pool holds table hbmt
        (bbt.imp_right And.right), ?_, fun b hb holds' => ?_, fun _ bad => ?_, unready⟩
      · rw [hbmt]
        exact (firstPage pages r'.bmtBlockIndex).data 5 |>.toNat_lt
      · rw [pool_same hb]
        obtain ⟨index', table'⟩ := images b hb ((holds_same hb).mp holds')
        exact ⟨index'.trans index.symm, table'.trans live.symm⟩
      · exact ((holds_same pool).mpr holds).1 bad
  | rebuilt absent index hbmt _ =>
      refine ⟨disjointBmt_of_rebuilt index hbmt, ?_, fun b hb holds' => ?_,
        fun ne => absurd index ne, unready⟩
      · have count := hbmt.count
        have short := few absent
        rw [count]
        exact (Nat.zero_add _).trans_lt (Nat.lt_succ_of_le short)
      · exact absurd ((holds_same hb).mp holds') (absent b hb)

/-! ## Single steps -/

/-- A consistent state can be started from. -/
theorem Consistent.bootable {L : OobLayout} {r : Ram} {f : Flash} (h : Consistent g L r f) :
    Bootable g L f.pages := ⟨r, h.disjoint, h.mirrored⟩

theorem Consistent.failing {L : OobLayout} (h : Consistent g L σ.ram σ.flash) (block : ℕ) :
    Consistent g L (σ.failing block).ram (σ.failing block).flash := by
  refine ⟨h.disjoint, h.counted, h.mirrored, h.good, fun erased b free out => ?_⟩
  apply h.ready erased b free
  exact fun failed => out (Set.mem_insert_of_mem block failed)

/-- An operation leaves alone the blocks it does not change. -/
theorem flashStep_frame {L : OobLayout} {op : NandOp} {f f' : Flash} {answer : NandResp op}
    (step : FlashStep L leftover op f answer f') {b : ℕ} (other : ¬ Changes op b) :
    SameBlock f.pages f'.pages b ∧ (b ∈ f'.failed ↔ b ∈ f.failed) := by
  cases op with
  | readPage page => exact step.1 ▸ ⟨.refl _ _, Iff.rfl⟩
  | checkBlockBad offset kind => exact step.1 ▸ ⟨.refl _ _, Iff.rfl⟩
  | clearCache => exact step ▸ ⟨.refl _ _, Iff.rfl⟩
  | markBadblock offset kind =>
      obtain ⟨page, -, rfl⟩ := step
      refine ⟨sameBlock_update other page, ?_⟩
      have ne : b ≠ offset / eraseSize := fun eq => other ((page_div_block offset).trans eq.symm)
      show b ∈ afterMark offset f.failed ↔ b ∈ f.failed
      rw [afterMark]
      split
      · exact ⟨fun mem => mem.1, fun mem => ⟨mem, ne⟩⟩
      · exact Iff.rfl
  | eraseBlock block =>
      have ne : b ≠ block := fun eq => other eq.symm
      rcases step with ⟨-, rfl⟩ | ⟨-, left, -, rfl⟩
      · exact ⟨fun p hp => if_neg (hp ▸ ne), Iff.rfl⟩
      · exact ⟨fun p hp => if_neg (hp ▸ ne), Set.mem_insert_iff.trans (or_iff_right ne)⟩
  | writePage page dataOffset dat dataLen oob oobLen =>
      have ne : b ≠ page / pagePerBlock := fun eq => other eq.symm
      rcases step.2 with ⟨-, rfl⟩ | ⟨-, left, -, rfl⟩
      · exact ⟨sameBlock_update other _, Iff.rfl⟩
      · exact ⟨sameBlock_update other _, Set.mem_insert_iff.trans (or_iff_right ne)⟩

include readable in
/-- One careful call. -/
theorem CarefulRun.flashStep {op : NandOp} {answer : NandResp op}
    (run : CarefulRun env leftover (Routine.perform op : Drv (NandResp op)) σ answer σ') :
    σ'.ram = σ.ram ∧ FlashStep env.layout leftover op σ.flash answer σ'.flash := by
  have told : wp (FlashStep env.layout leftover) (Routine.perform op : Drv (NandResp op))
      (fun answer r' f' => r' = σ.ram ∧ FlashStep env.layout leftover op σ.flash answer f')
      σ.ram σ.flash := by
    rw [wp_perform]
    exact fun answer f' step => ⟨rfl, step⟩
  exact run.post readable told

/-- A call that works on blocks that carry data, and makes none of them look like an
image, keeps the state consistent. -/
theorem Consistent.client {L : OobLayout} {r : Ram} {f f' : Flash} {op : NandOp}
    {answer : NandResp op} (before : Consistent g L r f)
    (step : FlashStep L leftover op f answer f') (onData : ∀ b, Changes op b → Updatable g r b)
    (noImage : ∀ b, Changes op b → g.InPool b → ¬ HoldsBmt g L f'.pages b) :
    Consistent g L r f' := by
  have frame := fun b (used : ¬ Updatable g r b) =>
    flashStep_frame step fun changes => used (onData b changes)
  refine ⟨before.disjoint, before.counted, fun b pool holds => ?_, fun ne => ?_,
    fun erased b free out => ?_⟩
  · have same := (flashStep_frame step fun changes => noImage b changes pool holds).1
    rw [same.firstPage]
    apply before.mirrored b pool
    simpa only [HoldsBmt, same.blockBad, same.firstPage] using holds
  · have same := (frame _ (table_not_updatable before.disjoint ne)).1
    exact fun bad => before.good ne (same.blockBad.mp bad)
  · obtain ⟨same, failed⟩ := frame b fun used => updatable_not_free used free
    exact same.blank (before.ready erased b (free.of_same same) fun mem => out (failed.mpr mem))

include readable in
theorem ClientRun.consistent {op : NandOp} {answer : NandResp op}
    (client : ClientRun g env leftover σ op answer σ')
    (before : Consistent g env.layout σ.ram σ.flash) :
    Consistent g env.layout σ'.ram σ'.flash := by
  obtain ⟨ram, step⟩ := client.run.flashStep readable
  rw [ram]
  exact before.client step client.onData client.noImage

include readable in
theorem SaveRun.saved {depth : ℕ} {done : Bool} (save : SaveRun g env leftover σ depth done σ')
    (before : Consistent g env.layout σ.ram σ.flash) :
    Saved g env.layout σ.ram σ.flash done σ'.ram σ'.flash ∧
      Quiet g env.layout σ.flash.pages σ'.flash.pages :=
  save.run.post readable (wp_of_along
    (@flash_writeBbtOrBmtToFlash g env.layout leftover (fun _ => True) _ _ before save.unwritten
      depth fun _ => trivial))

include readable in
theorem UpdateRun.result {depth offset : ℕ} {reason : UpdateReason} {dat oob : Option Bytes}
    {done : Bool} (update : UpdateRun g env leftover σ depth offset reason dat oob done σ')
    (before : Consistent g env.layout σ.ram σ.flash) :
    UpdateResult g env.layout σ.ram offset reason dat oob (σ.failing (offset / eraseSize)).flash
      done σ'.ram σ'.flash := by
  have now := before.failing (offset / eraseSize)
  exact update.run.post readable (wp_of_along
    (@flash_updateBmt g env.layout leftover (fun _ => True) _ _ _ _ _ _ depth now.disjoint
      update.room now.ready now.good update.updatable (fun _ => Set.mem_insert _ _)
      (fun _ _ => trivial) (fun _ _ _ _ _ _ => trivial) fun _ _ _ => trivial))

include readable in
theorem UpdateRun.consistent {depth offset : ℕ} {reason : UpdateReason} {dat oob : Option Bytes}
    {done : Bool} (update : UpdateRun g env leftover σ depth offset reason dat oob done σ')
    (before : Consistent g env.layout σ.ram σ.flash) :
    Consistent g env.layout σ'.ram σ'.flash ∧ (done = true →
      g.InPool σ'.ram.bmtBlockIndex ∧ HoldsBmt g env.layout σ'.flash.pages σ'.ram.bmtBlockIndex) :=
  (update.result readable before).consistent (before.failing (offset / eraseSize)) update.room
    update.updatable (fun _ => Set.mem_insert _ _) update.noImage

/-! ## Whole runs -/

include readable in
theorem Step.consistent (step : Step g env leftover σ σ')
    (before : Consistent g env.layout σ.ram σ.flash) :
    Consistent g env.layout σ'.ram σ'.flash := by
  cases step with
  | reboot boot =>
      have bootable := before.bootable
      exact (boot.started readable bootable).consistent bootable boot.few _
  | save save => exact (save.saved readable before).1.consistent
  | client client => exact client.consistent readable before
  | update update => exact (update.consistent readable before).1

include readable in
/-- Tables in memory and on the flash agree at any time. -/
theorem Life.consistent (life : Life g env leftover σ) :
    Consistent g env.layout σ.ram σ.flash := by
  induction life with
  | start bootable boot => exact (boot.started readable bootable).consistent bootable boot.few _
  | step _ step ih => exact step.consistent readable ih

end Runs

end En7512.Bmt
