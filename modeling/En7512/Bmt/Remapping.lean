/-
# The BMT is a disjoint remapping

`Reached` collects every state the driver can be in: it starts from a flash
whose table images are its own, writes its tables out and updates them, with
any outcome of any operation and whatever happens to the flash in between. In
each of these states the live entries name different blocks of the pool, so no
two system blocks share a physical block.

The first flash holds no image. A later one holds images of earlier states.
-/

import En7512.Bmt.Boot
import En7512.Bmt.TableInvariant

namespace En7512.Bmt

open En7512.Logic En7512.Nand En7512.Logic.Routine

variable {g : Geometry} {L : OobLayout}

/-- The image in the block was written while `writer` was the state of the
driver: it holds its table, in its block, and the bad-block table was where it
is found now. -/
structure WrittenBy (g : Geometry) (L : OobLayout) (pages : ℕ → Page) (block : ℕ)
    (writer : Ram) : Prop where
  index : writer.bmtBlockIndex = block
  table : imageLive (firstPage pages block).data = writer.bmt.live
  bbt : ∀ b, g.InPool b → HoldsBbt g L pages b → writer.bbtBlockIndex = b

/-- The bad-block table is written with a blank spare area. -/
def BbtUnindexed (g : Geometry) (L : OobLayout) (pages : ℕ → Page) : Prop :=
  ∀ b, g.InPool b → HoldsBbt g L pages b → ¬ PointsBack g L pages b

/-- The states of the driver. -/
inductive Reached (g : Geometry) : Ram → Prop
  /-- `init_bmt` and `start_init_bbt`, on a flash whose images are the driver's. -/
  | start {env : Env} {s s' : Spi} {done : Bool} {r : Ram} (writer : ℕ → Ram)
      (readable : ∀ t p, env.uncorrectable t p = false) (cold : s.cache.pageNum = none)
      (earlier : ∀ b, g.InPool b → HoldsBmt g env.layout s.chip.pages b → Reached g (writer b))
      (written : ∀ b, g.InPool b → HoldsBmt g env.layout s.chip.pages b →
        WrittenBy g env.layout s.chip.pages b (writer b))
      (unindexed : BbtUnindexed g env.layout s.chip.pages)
      (run : exec (nandMachine env) (startTables g) Ram.initial s = some (done, r, s')) :
      Reached g r
  /-- `write_bbt_or_bmt_to_flash`. -/
  | save {env : Env} {s s' : Spi} {done : Bool} {r r' : Ram} {depth : ℕ} (before : Reached g r)
      (run : exec (nandMachine env) (writeBbtOrBmtToFlash g depth) r s = some (done, r', s')) :
      Reached g r'
  /-- `update_bmt`, for a system block or a mapped block of the pool. -/
  | update {env : Env} {s s' : Spi} {done : Bool} {r r' : Ram} {depth offset : ℕ}
      {reason : UpdateReason} {dat oob : Option Bytes} (before : Reached g r)
      (updatable : Updatable g r (offset / eraseSize))
      (run : exec (nandMachine env) (updateBmt g depth offset reason dat oob) r s =
        some (done, r', s')) : Reached g r'

/-! ## Start-up -/

/-- A table that has been loaded from the image of a disjoint one is disjoint. -/
theorem disjointBmt_of_loaded {pages : ℕ → Page} {r r' writer : Ram} (inv : DisjointBmt g writer)
    (index : writer.bmtBlockIndex = r'.bmtBlockIndex) (pool : g.InPool r'.bmtBlockIndex)
    (holds : HoldsBmt g L pages r'.bmtBlockIndex)
    (table : imageLive (firstPage pages r'.bmtBlockIndex).data = writer.bmt.live)
    (bmt : r'.bmt = (r.bmt.zeroTable g).load (firstPage pages r'.bmtBlockIndex).data)
    (bbt : r'.bbtBlockIndex = 0 ∨ HoldsBbt g L pages r'.bbtBlockIndex) : DisjointBmt g r' := by
  have live : r'.bmt.live = writer.bmt.live := by
    rw [bmt, live_load, table]
  obtain ⟨count, entries⟩ := (r'.bmt.live_eq_iff writer.bmt).mp live
  have mapped : ∀ b, r'.bmt.isBlockMapped b = writer.bmt.isBlockMapped b := fun b => by
    simp only [BmtStruct.isBlockMapped, live]
  constructor
  · rw [count]
    exact inv.count_le
  · intro i hi
    rw [entries i hi]
    exact inv.mapped_mem i (count ▸ hi)
  · intro i hi j hj
    rw [entries i hi, entries j hj]
    exact inv.mapped_inj i (count ▸ hi) j (count ▸ hj)
  · intro i hi
    rw [entries i hi]
    exact inv.bad_lt i (count ▸ hi)
  · intro i hi bound
    rw [bmt] at hi ⊢
    have beyond : ¬ i < physMappedCount (firstPage pages r'.bmtBlockIndex).data := not_lt.mpr hi
    simp only [BmtStruct.load, BmtStruct.zeroTable, beyond, bound, if_true, if_false]
  · intro ne
    have apart := inv.bmt_apart (index ▸ ne)
    rw [index] at apart
    refine ⟨pool, by rw [mapped]; exact apart.2.1, fun eq => ?_⟩
    rcases bbt with zero | holds'
    · exact ne (eq.trans zero)
    · rw [eq] at holds
      exact not_isBmtImage_of_isBbtImage holds'.2 holds.2

/-- The entries of a table that has been rebuilt. -/
theorem entry_of_rebuilt {pages : ℕ → Page} {bmt bmt' : BmtStruct}
    (rebuilt : Appended (emptiedBmt g bmt) bmt' (backPointers g L pages g.poolBlocks)) {i : ℕ}
    (hi : i < bmt'.mappedCount) : ∃ b, g.InPool b ∧ PointsBack g L pages b ∧
      bmt'.table i = ⟨pageIndex L (firstPage pages b), b⟩ := by
  have mem : bmt'.table i ∈ bmt'.live := bmt'.mem_live.mpr ⟨i, hi, rfl⟩
  rw [live_of_rebuilt rebuilt] at mem
  simp only [backPointers, List.mem_map, List.mem_filter, decide_eq_true_eq] at mem
  obtain ⟨b, ⟨hb, points⟩, eq⟩ := mem
  exact ⟨b, g.mem_poolBlocks.mp hb, points, eq.symm⟩

/-- A table that has been rebuilt from the back pointers is disjoint. -/
theorem disjointBmt_of_rebuilt {pages : ℕ → Page} {r r' : Ram} (index : r'.bmtBlockIndex = 0)
    (bmt : Appended (emptiedBmt g (r.bmt.zeroTable g)) r'.bmt
      (backPointers g L pages g.poolBlocks)) : DisjointBmt g r' := by
  have live := live_of_rebuilt bmt
  have nodup : (r'.bmt.live.map (·.mappedIndex)).Nodup := by
    rw [live, backPointers, List.map_map]
    have same : ((fun e : BmtEntry => e.mappedIndex) ∘ fun b =>
        ⟨pageIndex L (firstPage pages b), b⟩) = id := rfl
    rw [same, List.map_id]
    exact List.Nodup.filter _ List.nodup_range'
  have count : r'.bmt.mappedCount ≤ g.bmtBlockCount := by
    have length := congrArg List.length live
    have filtered := List.length_filter_le (fun b => decide (PointsBack g L pages b)) g.poolBlocks
    simp only [BmtStruct.live, backPointers, List.length_map, List.length_range] at length
    rw [length_poolBlocks] at filtered
    omega
  refine ⟨count, fun i hi => ?_, r'.bmt.nodup_mapped_iff.mp nodup, fun i hi => ?_,
    fun i hi bound => ?_, fun ne => absurd index ne⟩
  · obtain ⟨b, pool, -, eq⟩ := entry_of_rebuilt bmt hi
    rw [eq]
    exact pool
  · obtain ⟨b, -, points, eq⟩ := entry_of_rebuilt bmt hi
    rw [eq]
    exact points.2
  · rw [bmt.beyond i hi]
    simp only [emptiedBmt, BmtStruct.zeroTable, bound, if_true]

/-- Every state the driver reaches has disjoint tables. -/
theorem Reached.disjoint (small : g.bmtBlockCount ≤ 255) {r : Ram} (h : Reached g r) :
    DisjointTables g r := by
  induction h with
  | @start env s s' done r writer readable cold earlier written unindexed run ih =>
      have stored : ∀ b, g.InPool b → HoldsBmt g env.layout s.chip.pages b →
          SystemKeys g (imageLive (firstPage s.chip.pages b).data) := by
        intro b hb holds e he
        rw [(written b hb holds).table] at he
        obtain ⟨i, hi, rfl⟩ := (writer b).bmt.mem_live.mp he
        exact (ih b hb holds).bad_lt i hi
      obtain ⟨d', -, started⟩ := doubt_exec readable (doubts_of_cold cold)
        (doubt_startTables (fun _ => (length_backPointers _).trans small) rfl stored) run
      have bbt := started.bbt_found fun b hb holds => stored b hb holds
      cases started.bmtSource with
      | loaded pool holds hbmt _ =>
          have image := written _ pool holds
          refine ⟨disjointBmt_of_loaded (ih _ pool holds).toDisjointBmt image.index pool holds
            image.table hbmt (bbt.imp_right And.right), fun ne => ?_⟩
          obtain ⟨pool', holds'⟩ := bbt.resolve_left ne
          have same := image.bbt _ pool' holds'
          have apart := (ih _ pool holds).bbt_apart (same ▸ ne)
          have live : r.bmt.live = (writer r.bmtBlockIndex).bmt.live := by
            rw [hbmt, live_load, image.table]
          rw [same] at apart
          refine ⟨pool', ?_⟩
          simp only [BmtStruct.isBlockMapped, live]
          exact apart.2
      | rebuilt _ index hbmt _ =>
          refine ⟨disjointBmt_of_rebuilt index hbmt, fun ne => ?_⟩
          obtain ⟨pool, holds⟩ := bbt.resolve_left ne
          refine ⟨pool, ?_⟩
          rw [isBlockMapped_eq_false_iff]
          intro i hi eq
          obtain ⟨b, -, points, table⟩ := entry_of_rebuilt hbmt hi
          rw [table] at eq
          exact unindexed _ pool holds (eq ▸ points)
  | save before run ih => exact ensures_exec (writeBbtOrBmtToFlash_disjoint g ih _) run
  | update before updatable run ih =>
      exact ensures_exec (updateBmt_disjoint g small ih _ _ _ _ _ updatable) run

/-! ## The remapping -/

/-- Two system blocks never share a physical block. -/
theorem getMappingBlockIndexByBmt_injOn {r : Ram} (inv : DisjointBmt g r) :
    Set.InjOn (getMappingBlockIndexByBmt g r.bmt) (Set.Iio g.systemBlockCount) := by
  have entry : ∀ {b e}, r.bmt.lookup b = some e →
      ∃ i < r.bmt.mappedCount, r.bmt.table i = e ∧ e.badIndex = b := by
    intro b e found
    obtain ⟨mem, bad⟩ := r.bmt.lookup_some found
    obtain ⟨i, hi, eq⟩ := r.bmt.mem_live.mp mem
    exact ⟨i, hi, eq, bad⟩
  have apart : ∀ {b e c}, r.bmt.lookup b = some e → c < g.systemBlockCount →
      e.mappedIndex ≠ c := by
    intro b e c found hc eq
    obtain ⟨i, hi, rfl, -⟩ := entry found
    have low := (inv.mapped_mem i hi).1
    omega
  intro b hb c hc eq
  have hb : b < g.systemBlockCount := hb
  have hc : c < g.systemBlockCount := hc
  rw [getMappingBlockIndexByBmt, getMappingBlockIndexByBmt, if_neg (not_le.mpr hb),
    if_neg (not_le.mpr hc)] at eq
  cases hb' : r.bmt.lookup b with
  | none =>
      cases hc' : r.bmt.lookup c with
      | none => simpa only [hb', hc'] using eq
      | some e =>
          simp only [hb', hc'] at eq
          exact absurd eq.symm (apart hc' hb)
  | some e =>
      cases hc' : r.bmt.lookup c with
      | none =>
          simp only [hb', hc'] at eq
          exact absurd eq (apart hb' hc)
      | some e' =>
          simp only [hb', hc'] at eq
          obtain ⟨i, hi, rfl, rfl⟩ := entry hb'
          obtain ⟨j, hj, rfl, rfl⟩ := entry hc'
          rw [inv.mapped_inj i hi j hj eq]

/-- In every state the driver reaches, the live entries of the BMT name pairwise
different blocks of the pool, none of them a block that holds a table, and no two
system blocks share a physical block. -/
theorem reached_bmt_disjoint (small : g.bmtBlockCount ≤ 255) {r : Ram} (h : Reached g r) :
    r.bmt.mappedCount ≤ g.bmtBlockCount ∧
      (∀ e ∈ r.bmt.live, g.systemBlockCount ≤ e.mappedIndex ∧
        e.mappedIndex < g.totalBlockCount) ∧
      (r.bmt.live.map (·.mappedIndex)).Nodup ∧
      (∀ e ∈ r.bmt.live, (r.bmtBlockIndex ≠ 0 → e.mappedIndex ≠ r.bmtBlockIndex) ∧
        (r.bbtBlockIndex ≠ 0 → e.mappedIndex ≠ r.bbtBlockIndex)) ∧
      Set.InjOn (getMappingBlockIndexByBmt g r.bmt) (Set.Iio g.systemBlockCount) := by
  have inv := h.disjoint small
  refine ⟨inv.count_le, ?_, r.bmt.nodup_mapped_iff.mpr inv.mapped_inj, ?_,
    getMappingBlockIndexByBmt_injOn inv.toDisjointBmt⟩
  · intro e he
    obtain ⟨i, hi, rfl⟩ := r.bmt.mem_live.mp he
    exact inv.mapped_mem i hi
  · intro e he
    obtain ⟨i, hi, rfl⟩ := r.bmt.mem_live.mp he
    exact ⟨fun ne => (isBlockMapped_eq_false_iff _ _).mp (inv.bmt_apart ne).2.1 i hi,
      fun ne => (isBlockMapped_eq_false_iff _ _).mp (inv.bbt_apart ne).2 i hi⟩

/-- A chip of eight blocks, four of them in the pool. -/
def eightBlocks : Geometry where
  totalBlockCount := 8
  bmtBlockCount := 4
  mtdOobsize := 26
  pool_pos := by decide
  pool_lt := by decide
  system_pos := by decide
  offsets_fit := by decide

/-- The driver started on an erased chip. -/
def startedRun : Option (Bool × Ram × Spi) :=
  exec (nandMachine faultless) (startTables eightBlocks) Ram.initial blankSpi

/-- An update for block 1 after that. -/
def updatedRun : Option (Bool × Ram × Spi) :=
  startedRun.bind fun out => exec (nandMachine faultless)
    (updateBmt eightBlocks 5 (blockOffset 1) .eraseFail none none) out.2.1 out.2.2

theorem blank_holds_no_table (block : ℕ) :
    ¬ HoldsBmt eightBlocks faultless.layout blankSpi.chip.pages block ∧
      ¬ HoldsBbt eightBlocks faultless.layout blankSpi.chip.pages block := by
  have ones : (firstPage blankSpi.chip.pages block).data 0 = 0xff := rfl
  refine ⟨fun h => ?_, fun h => ?_⟩
  · have signature := h.2.1.1
    rw [ones] at signature
    exact absurd signature (by decide)
  · have signature := h.2.1.1
    rw [ones] at signature
    exact absurd signature (by decide)

/-- After the update the table has one entry. -/
theorem reached_bmt_disjoint_updated : ∃ r, Reached eightBlocks r ∧ r.bmt.mappedCount = 1 ∧
    (r.bmt.live.map (·.mappedIndex)).Nodup ∧
    Set.InjOn (getMappingBlockIndexByBmt eightBlocks r.bmt) (Set.Iio 4) := by
  obtain ⟨⟨done, r, s⟩, first⟩ : ∃ out, startedRun = some out := Option.isSome_iff_exists.mp rfl
  obtain ⟨⟨done', r', s'⟩, second⟩ : ∃ out, updatedRun = some out :=
    Option.isSome_iff_exists.mp rfl
  have started : Reached eightBlocks r :=
    .start (fun _ => r) (fun _ _ => rfl) rfl
      (fun b _ holds => absurd holds (blank_holds_no_table b).1)
      (fun b _ holds => absurd holds (blank_holds_no_table b).1)
      (fun b _ holds => absurd holds (blank_holds_no_table b).2) first
  have updated : Reached eightBlocks r' := by
    rw [updatedRun, first] at second
    exact .update started (.inl (by decide)) second
  have one : updatedRun.map (fun out => out.2.1.bmt.mappedCount) = some 1 := rfl
  rw [second] at one
  obtain ⟨-, -, distinct, -, injective⟩ := reached_bmt_disjoint (by decide) updated
  exact ⟨r', updated, Option.some.inj one, distinct, injective⟩

end En7512.Bmt
