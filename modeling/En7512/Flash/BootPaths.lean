/-
# The two ways to find the table

A driver finds its table in the image on the flash, or rebuilds it from the back pointers
of the pool. Both give the same table after any run of writes whose failures have been
recovered, if no write fails inside a block that is itself a replacement: a block that
fails at a page other than its first keeps its back pointer, because the mark goes to the
page that has failed.
-/

import En7512.Bmt.BackPointers
import En7512.Flash.FactoryList

namespace En7512.Flash

open En7512.Logic En7512.Nand En7512.Bmt En7512.Logic.Routine

/-! ## What is kept -/

/-- The pool tells the table, and the system blocks in use carry no mark. -/
structure Told (g : Geometry) (L : OobLayout) (list : List ℕ) (r : Ram) (f : Flash) : Prop where
  recorded : Recorded g L r f.pages ∅
  keyed : r.bmt.Keyed
  clean : ∀ b < g.systemBlockCount, b ∉ list → (∀ e ∈ r.bmt.live, e.badIndex ≠ b) →
    ¬ BlockBad L f.pages b

/-- A program that fails does so on the first page of its block, unless the stored table
does not name the block as a replacement. -/
def failsInFirst (g : Geometry) (L : OobLayout) : Report
  | .writePage page _ _ _ _ _, ok, pages => ok = false → page % pagePerBlock ≠ 0 →
      ∀ b, g.InPool b → HoldsBmt g L pages b →
        ∀ e ∈ imageLive (firstPage pages b).data, e.mappedIndex ≠ page / pagePerBlock
  | .readPage _, _, _ => True
  | .checkBlockBad _ _, _, _ => True
  | .markBadblock _ _, _, _ => True
  | .eraseBlock _, _, _ => True
  | .clearCache, _, _ => True

section Spare

variable {g : Geometry} {L : OobLayout} {pages pages' : ℕ → Page} {b : ℕ}

/-- The first four bytes of the spare area say whether a block is bad, and where it
points. -/
theorem first_congr (same : ∀ i < 4, (firstPage pages' b).oob (L.pos i) =
    (firstPage pages b).oob (L.pos i)) :
    (BlockBad L pages' b ↔ BlockBad L pages b) ∧
      (PointsBack g L pages' b ↔ PointsBack g L pages b) ∧
      pageIndex L (firstPage pages' b) = pageIndex L (firstPage pages b) := by
  have raw := same 0 (by norm_num)
  have later := same 1 (by norm_num)
  have index : pageIndex L (firstPage pages' b) = pageIndex L (firstPage pages b) := by
    simp only [pageIndex, same 2 (by norm_num), same 3 (by norm_num)]
  have bad : BlockBad L pages' b ↔ BlockBad L pages b := by
    simp only [BlockBad, Page.Marked, BadKind.index, raw, later]
  refine ⟨bad, ?_, index⟩
  simp only [PointsBack, bad, index]

/-- Programming a page that has been written before keeps its first bytes, where the new
ones are blank or the old ones. -/
theorem programmed_first (old : Page) (dataOffset : ℕ) (dat : Bytes) (dataLen : ℕ) (oob : Bytes)
    {i : ℕ} (first : i < 4) (fits : oob i = 0xff ∨ oob i = old.oob (L.pos i)) :
    (programmed L old dataOffset dat dataLen oob oobBufferSize).oob (L.pos i) =
      old.oob (L.pos i) := by
  have room := L.room
  have inside : i < oobBufferSize := first.trans (by decide)
  simp only [programmed, Page.and_oob, L.scatter_pos _ _ _ (show i < L.oobsize by omega), inside,
    if_true]
  rcases fits with blank | same
  · rw [blank, byte_and_ones, UInt8.and_self]
  · rw [same, UInt8.and_self, UInt8.and_self]

end Spare

/-! ## Single steps -/

section Steps

variable {g : Geometry} {L : OobLayout} {leftover : Leftover} {list : List ℕ} {r r' : Ram}
  {f f₁ f' : Flash} {block offset : ℕ} {d o : Bytes}

/-- The physical block of a logical one carries the data of the system block the logical one
is numbered by. -/
theorem standsFor_resolve (numbered : Enumerated g r) (inside : block < logicalBlocks g r) :
    StandsFor g r (resolve g r block) (r.pBbt block) := by
  rw [resolve_eq inside]
  rcases getMappingBlockIndexByBmt_cases r.bmt (numbered.lt inside) with
    ⟨none, eq⟩ | ⟨e, live, found, eq⟩
  · rw [eq]
    exact .itself (numbered.lt inside) (r.bmt.lookup_eq_none.mp none)
  · obtain ⟨-, key⟩ := r.bmt.lookup_some found
    rw [eq, ← key]
    exact .replaced live

/-- A change of the page that has failed says nothing about the other blocks. -/
theorem Told.recorded_out (told : Told g L list r f)
    (others : ∀ p ≠ offset / pageSize, f₁.pages p = f.pages p) :
    Recorded g L r f₁.pages {offset / eraseSize} := by
  intro e out
  rw [← told.recorded e (Set.notMem_empty _)]
  apply mem_backPointers_congr
  apply others
  intro eq
  apply out
  show e.mappedIndex = offset / eraseSize
  rw [← page_div_block, ← eq, pageAddr_div_self]

/-- The update can be told: where the first page is copied, it carries no mark. -/
theorem Told.tellable (told : Told g L list r f) (faithful : Faithful g L list r f)
    (inside : block < logicalBlocks g r) (here : resolve g r block = offset / eraseSize)
    (place : offset / eraseSize < g.systemBlockCount ∨ offset / pageSize % pagePerBlock = 0)
    (caller : offset / pageSize % pagePerBlock = 0 → o 0 = 0xff ∧ o 1 = 0xff ∧
      (g.InPool (offset / eraseSize) → getBadIndexFromOob o = r.pBbt block))
    (unlisted : offset / eraseSize ∉ list)
    (others : ∀ p ≠ offset / pageSize, f₁.pages p = f.pages p) :
    Tellable g L r f₁.pages offset (r.pBbt block) o := by
  have stands := here ▸ standsFor_resolve faithful.past.numbered inside
  refine ⟨stands, place, caller, fun later => ?_⟩
  have system := place.resolve_right later
  have same : firstPage f₁.pages (offset / eraseSize) = firstPage f.pages (offset / eraseSize) := by
    apply others
    intro eq
    apply later
    rw [← eq]
    exact Nat.mul_mod_left _ pagePerBlock
  have unkeyed := (stands.of_system faithful.force.consistent.disjoint system).2
  simpa only [BlockBad, same] using told.clean _ system unlisted unkeyed

/-- The block of a page that has failed is replaced. -/
theorem Told.replaced {k : ℕ} (told : Told g L list r f) (fits : 4 ≤ g.mtdOobsize)
    (small : g.bmtBlockCount ≤ 255) (force : InForce g L list {offset / eraseSize} r f₁)
    (tellable : Tellable g L r f₁.pages offset k o)
    (others : ∀ p ≠ offset / pageSize, f₁.pages p = f.pages p)
    (result : UpdateResult g L r offset .writeFail (some d) (some o) f₁ true r' f') :
    Told g L list r' f' := by
  have before := force.consistent
  have disjoint := before.disjoint
  have room := force.room small (offset / eraseSize)
  obtain ⟨recorded, keyed⟩ := result.recorded fits before room tellable (told.recorded_out others)
    told.keyed
  refine ⟨recorded, keyed, fun b system unlisted unkeyed => ?_⟩
  obtain ⟨m, bmt⟩ : ∃ m, r'.bmt = r.bmt.remap g (offset / eraseSize) m := by
    cases result with
    | done _ _ tables _ _ => exact ⟨_, tables.bmt⟩
  rw [bmt] at unkeyed
  obtain ⟨new, old⟩ := unkeyed_remap disjoint room tellable.stands unkeyed
  have other : b ≠ offset / eraseSize := by
    rintro rfl
    exact new (tellable.stands.of_system disjoint system).1.symm
  have same := result.same before room (tellable.stands.updatable disjoint) (.inl system) other
  have first : firstPage f₁.pages b = firstPage f.pages b := by
    apply others
    intro eq
    apply other
    rw [← page_div_block, ← eq, pageAddr_div_self]
  rw [same.blockBad, BlockBad, first]
  exact told.clean b system unlisted old

/-- The spare area a piece is written with carries no mark, and the number of the system
block where a block of the pool is written. -/
theorem pieceOob_names {writeAddr : ℕ}
    (inside : writeAddr / eraseSize < logicalBlocks g r) :
    pieceOob g r writeAddr 0 = 0xff ∧ pieceOob g r writeAddr 1 = 0xff ∧
      if g.systemBlockCount ≤ resolve g r (writeAddr / eraseSize) then
        pieceOob g r writeAddr = putU16 allOnes 2 (r.pBbt (writeAddr / eraseSize))
      else pieceOob g r writeAddr = allOnes := by
  have here : ¬ g.systemBlockCount - r.initBbt.badblockCount ≤ writeAddr / eraseSize :=
    not_le.mpr inside
  have number : (getMappingBlockIndex g r (writeAddr / eraseSize)).2 =
      r.pBbt (writeAddr / eraseSize) := by
    simp only [getMappingBlockIndex, getMappingBlockIndexByBbt, if_neg here]
  have form : pieceOob g r writeAddr =
      if g.systemBlockCount ≤ resolve g r (writeAddr / eraseSize) then
        putU16 allOnes 2 (r.pBbt (writeAddr / eraseSize)) else allOnes := by
    rw [pieceOob, writeOobBuf, number, resolve]
  rw [form]
  split
  · exact ⟨rfl, rfl, rfl⟩
  · exact ⟨rfl, rfl, rfl⟩

/-- Programming a piece changes no mark and no back pointer. -/
theorem Told.programmed (told : Told g L list r f) (faithful : Faithful g L list r f)
    {writeAddr remainLen : ℕ} {dat : Bytes} (inside : writeAddr / eraseSize < logicalBlocks g r)
    (step : FlashStep L leftover (pieceProgram g r writeAddr remainLen dat) f true f') :
    Told g L list r f' := by
  obtain ⟨page, -⟩ := piece_block g r writeAddr
  obtain ⟨raw, later, form⟩ := pieceOob_names inside
  have disjoint := faithful.force.consistent.disjoint
  have pages : f'.pages = Function.update f.pages (physicalAddr g r writeAddr / pageSize)
      (Nand.programmed L (f.pages (physicalAddr g r writeAddr / pageSize))
        (physicalAddr g r writeAddr % pageSize) dat
        (writeDataLen (physicalAddr g r writeAddr % pageSize) remainLen) (pieceOob g r writeAddr)
        oobBufferSize) := by
    rcases step.2 with ⟨-, rfl⟩ | ⟨no, -⟩
    · rfl
    · exact Bool.noConfusion no
  -- on the first page of a block the first bytes stay
  have same : ∀ b, ∀ i < 4,
      (firstPage f'.pages b).oob (L.pos i) = (firstPage f.pages b).oob (L.pos i) := by
    intro b i first
    rw [pages]
    simp only [firstPage, Function.update_apply]
    split
    swap
    · rfl
    next eq =>
    have block : b = resolve g r (writeAddr / eraseSize) := by
      rw [← page, ← eq, pageAddr_div_self]
    rw [← eq]
    apply programmed_first _ _ _ _ _ first
    by_cases pool : g.systemBlockCount ≤ resolve g r (writeAddr / eraseSize)
    swap
    · rw [if_neg pool] at form
      exact .inl (form ▸ rfl)
    rw [if_pos pool] at form
    by_cases index : i = 2 ∨ i = 2 + 1
    swap
    · left
      rw [form]
      exact putU16_of_ne (fun eq => index (.inl eq)) fun eq => index (.inr eq)
    -- the block points back already, with the number that is written
    right
    have live : (⟨r.pBbt (writeAddr / eraseSize), b⟩ : BmtEntry) ∈ r.bmt.live := by
      rw [block]
      have stands := standsFor_resolve faithful.past.numbered inside
      exact stands.system_or_live.resolve_left (not_lt.mpr pool)
    have number : pageIndex L (firstPage f.pages b) = r.pBbt (writeAddr / eraseSize) :=
      (mem_backPointers.mp ((told.recorded _ (Set.notMem_empty _)).mpr live)).2.2
    rw [form, ← number]
    exact putU16_u16At _ (fun i => (firstPage f.pages b).oob (L.pos i)) 2 index
  have kept := fun b => first_congr (g := g) (same b)
  refine ⟨fun e _ => ?_, told.keyed, fun b system unlisted unkeyed => ?_⟩
  · rw [← told.recorded e (Set.notMem_empty _), mem_backPointers, mem_backPointers,
      (kept _).2.1, (kept _).2.2]
  · rw [(kept b).1]
    exact told.clean b system unlisted unkeyed

/-- The page of a piece, as an offset. -/
theorem piece_page (page : ℕ) : page * pageSize / pageSize = page :=
  Nat.mul_div_cancel page (by decide)

/-- A piece that is stored. -/
theorem kept_told (fits : 4 ≤ g.mtdOobsize) (small : g.bmtBlockCount ≤ 255)
    (system : ∀ b ∈ list, b < g.systemBlockCount) :
    KeptByPieces g L leftover (writeReportAnd g L (failsInFirst g L)) list (Told g L list) := by
  intro r f writeAddr remainLen dat r' f' faithful told inside stored
  cases stored with
  | programmed step => exact told.programmed faithful inside step
  | @replaced r' f₁ f' step report result =>
      obtain ⟨one, spared⟩ := report
      obtain ⟨page, offset⟩ := piece_block g r writeAddr
      obtain ⟨raw, later, form⟩ := pieceOob_names inside
      have unlisted := faithful.resolve_unlisted system inside
      have force := faithful.force.client step one (faithful.updatable inside) fun b changes =>
        changes.symm.trans page
      have others : ∀ p ≠ physicalAddr g r writeAddr / pageSize, f₁.pages p = f.pages p := by
        intro p other
        rcases step.2 with ⟨no, -⟩ | ⟨-, left, -, rfl⟩
        · exact Bool.noConfusion no
        · exact Function.update_of_ne other _ _
      rw [← offset] at force unlisted
      rw [← piece_page (physicalAddr g r writeAddr / pageSize)] at others
      have stands := standsFor_resolve faithful.past.numbered inside
      have tellable : Tellable g L r f₁.pages (physicalAddr g r writeAddr / pageSize * pageSize)
          (r.pBbt (writeAddr / eraseSize)) (pieceOob g r writeAddr) := by
        apply told.tellable faithful inside offset.symm _ _ unlisted others
        swap
        · refine fun _ => ⟨raw, later, fun pool => ?_⟩
          rw [offset] at pool
          rw [if_pos pool.1] at form
          have small := faithful.past.numbered.lt inside
          have total := g.totalBlockCount_le
          have split := g.system_add_pool
          rw [form]
          exact u16At_putU16 _ _ (by omega)
        rw [piece_page, offset]
        by_cases first : physicalAddr g r writeAddr / pageSize % pagePerBlock = 0
        · exact .inr first
        left
        apply stands.system_or_live.resolve_right
        intro live
        -- the stored table names the block
        have table := force.consistent.mirrored _ force.pool force.stored
        exact spared rfl first _ force.pool force.stored _ (table.2 ▸ live) page.symm
      exact told.replaced fits small force tellable others result

end Steps

/-! ## The device in use -/

/-- `update_bmt` replaces the block of a page that could not be written. The page may hold
anything by then; the spare area of the caller carries no mark, and the number of the
system block if the block is a replacement itself. -/
structure ReplaceCall (g : Geometry) (env : Env) (leftover : Leftover) (σ σ₁ : Device)
    (block depth offset : ℕ) (dat oob : Bytes) (σ' : Device) : Prop where
  inside : block < logicalBlocks g σ.ram
  here : resolve g σ.ram block = offset / eraseSize
  ram : σ₁.ram = σ.ram
  others : ∀ p ≠ offset / pageSize, σ₁.spi.chip.pages p = σ.spi.chip.pages p
  failed : σ₁.failed = insert (offset / eraseSize) σ.failed
  caller : offset / pageSize % pagePerBlock = 0 → oob 0 = 0xff ∧ oob 1 = 0xff ∧
    (g.InPool (offset / eraseSize) → getBadIndexFromOob oob = σ.ram.pBbt block)
  one : OneImage g env.layout σ₁.spi.chip.pages
  run : CarefulRun env leftover (updateBmt g depth offset .writeFail (some dat) (some oob))
    σ₁ true σ'
  reported : Keeps (watchMachine env) (Reported env (writeReport g env.layout))
    (updateBmt g depth offset .writeFail (some dat) (some oob)) σ₁.ram (σ₁.spi, σ₁.failed)

/-- The life of a device on which failed writes are recovered, and no write fails inside a
replacement block. -/
inductive Recovering (g : Geometry) (env : Env) (leftover : Leftover) (list : List ℕ) :
    Device → Prop
  /-- The first start: there are no tables, and no two blocks of the pool claim the same
  system block. -/
  | first {pages : ℕ → Page} {σ σ' : Device} {depth : ℕ}
      (absent : ∀ b, g.InPool b →
        ¬ HoldsBmt g env.layout pages b ∧ ¬ HoldsBbt g env.layout pages b)
      (distinct : DistinctIndexes g env.layout pages)
      (boot : BootRun g env pages true σ) (computed : σ.ram.initBbt.bad = list)
      (few : (rawBad env.layout σ.spi.chip.pages σ.ram.bmt (scannedBlocks g)).length < 256)
      (front : ∀ b ∈ list.head?, b < g.systemBlockCount - list.length)
      (clean : ∀ b < g.systemBlockCount, b ∉ list → (∀ e ∈ σ.ram.bmt.live, e.badIndex ≠ b) →
        ¬ BlockBad env.layout σ.spi.chip.pages b)
      (save : SaveRun g env leftover σ depth true σ') :
      Recovering g env leftover list (numberedDevice g σ')
  | write {σ σ' : Device} {depth dstAddr len : ℕ} {buf : Bytes}
      (use : Recovering g env leftover list σ)
      (write : WriteCall g env leftover σ depth dstAddr len buf σ')
      (place : Keeps (watchMachine env) (Reported env (failsInFirst g env.layout))
        (spiNandWriteInternal g depth dstAddr len buf) σ.ram (σ.spi, σ.failed)) :
      Recovering g env leftover list σ'
  | replace {σ σ₁ σ' : Device} {block depth offset : ℕ} {dat oob : Bytes}
      (use : Recovering g env leftover list σ)
      (replace : ReplaceCall g env leftover σ σ₁ block depth offset dat oob σ')
      (place : offset / eraseSize < g.systemBlockCount ∨ offset / pageSize % pagePerBlock = 0) :
      Recovering g env leftover list σ'
  /-- A later start: a bad-block table that is found is the one that was written. This is asked
  of the start, as the pool also holds data of the client and what failed programs have left:
  neither may look like a table. -/
  | reboot {σ σ₁ σ' : Device} {depth : ℕ} (use : Recovering g env leftover list σ)
      (written : ∀ b, g.InPool b → HoldsBbt g env.layout σ.spi.chip.pages b →
        imageBad (firstPage σ.spi.chip.pages b).data = list)
      (boot : BootRun g env σ.spi.chip.pages true σ₁)
      (save : SaveRun g env leftover σ₁ depth true σ') :
      Recovering g env leftover list (numberedDevice g σ')

section Life

variable {g : Geometry} {env : Env} {leftover : Leftover} {list : List ℕ} {σ σ' : Device}
variable (readable : ∀ t p, env.uncorrectable t p = false)

include readable in
/-- After the first start the table is what the pool tells. -/
theorem told_first {pages : ℕ → Page}
    (absent : ∀ b, g.InPool b → ¬ HoldsBmt g env.layout pages b)
    (distinct : DistinctIndexes g env.layout pages) (boot : BootRun g env pages true σ)
    (clean : ∀ b < g.systemBlockCount, b ∉ list → (∀ e ∈ σ.ram.bmt.live, e.badIndex ≠ b) →
      ¬ BlockBad env.layout σ.spi.chip.pages b) :
    Told g env.layout list σ.ram σ.flash := by
  have bootable := bootable_of_absent absent
  have started := boot.started readable bootable
  have live : σ.ram.bmt.live = backPointers g env.layout pages g.poolBlocks := by
    cases started.bmtSource with
    | loaded pool holds _ _ => exact absurd holds (absent _ pool)
    | rebuilt _ _ table _ => exact live_of_rebuilt table
  refine ⟨fun e _ => ?_, fun e he e' he' same => ?_, clean⟩
  · rw [live, mem_backPointers, mem_backPointers]
    apply and_congr_right
    intro pool
    have first := started.pool_same bootable pool
    rw [pointsBack_congr first, first]
  · rw [live, mem_backPointers] at he he'
    obtain ⟨pool, points, index⟩ := he
    obtain ⟨pool', points', index'⟩ := he'
    have block := distinct _ _ pool pool' points points' (by rw [index, index', same])
    cases e
    cases e'
    simp only at same block
    rw [same, block]

include readable in
/-- After a later start nothing has changed. -/
theorem Told.booted {σ₁ : Device} (told : Told g env.layout list σ.ram σ.flash)
    (before : Faithful g env.layout list σ.ram σ.flash)
    (boot : BootRun g env σ.spi.chip.pages true σ₁) :
    Told g env.layout list σ₁.ram σ₁.flash := by
  obtain ⟨-, live, pool_same, untouched⟩ := booted_table readable before boot
  refine ⟨fun e _ => ?_, ?_, fun b system unlisted unkeyed => ?_⟩
  · rw [live, ← told.recorded e (Set.notMem_empty _), mem_backPointers, mem_backPointers]
    apply and_congr_right
    intro pool
    rw [pointsBack_congr (pool_same _ pool), pool_same _ pool]
    rfl
  · rw [BmtStruct.Keyed, live]
    exact told.keyed
  · have first : firstPage σ₁.flash.pages b = firstPage σ.flash.pages b := by
      apply untouched
      rintro ⟨c, hc, eq⟩
      obtain rfl := pageAddr_inj.mp eq
      obtain ⟨e, he, rfl⟩ := List.mem_map.mp hc
      exact unkeyed e he rfl
    rw [live] at unkeyed
    simpa only [BlockBad, first] using told.clean b system unlisted unkeyed

include readable in
/-- Writing the tables out. -/
theorem Told.saved {depth : ℕ} (told : Told g env.layout list σ.ram σ.flash)
    (consistent : Consistent g env.layout σ.ram σ.flash)
    (save : SaveRun g env leftover σ depth true σ') :
    Told g env.layout list (numberedDevice g σ').ram (numberedDevice g σ').flash := by
  obtain ⟨saved, quiet⟩ := save.saved readable consistent
  have bmt : (numberedDevice g σ').ram.bmt = σ.ram.bmt := saved.bmt
  refine ⟨fun e _ => ?_, ?_, fun b system unlisted unkeyed => ?_⟩
  · rw [bmt, ← told.recorded e (Set.notMem_empty _)]
    by_cases pool : g.InPool e.mappedIndex
    swap
    · rw [mem_backPointers, mem_backPointers]
      simp only [pool, false_and]
    cases mapped : σ.ram.bmt.isBlockMapped e.mappedIndex with
    | true =>
        have same := saved.same e.mappedIndex (.inl (.inr ⟨pool, mapped⟩))
        exact mem_backPointers_congr same.firstPage
    | false =>
        have before := told.recorded.not_pointsBack (Set.notMem_empty _) pool mapped
        have after := quiet _ before
        rw [mem_backPointers, mem_backPointers]
        exact iff_of_false (fun there => after there.2.1) fun there => before there.2.1
  · rw [bmt]
    exact told.keyed
  · rw [bmt] at unkeyed
    have same := saved.same b (.inl (.inl system))
    exact fun bad => told.clean b system unlisted unkeyed (same.blockBad.mp bad)

include readable in
/-- A replacement. -/
theorem ReplaceCall.told {σ₁ : Device} {block depth offset : ℕ} {dat oob : Bytes}
    (replace : ReplaceCall g env leftover σ σ₁ block depth offset dat oob σ')
    (place : offset / eraseSize < g.systemBlockCount ∨ offset / pageSize % pagePerBlock = 0)
    (fits : 4 ≤ g.mtdOobsize) (small : g.bmtBlockCount ≤ 255) (numberable : Numberable g list)
    (faithful : Faithful g env.layout list σ.ram σ.flash)
    (told : Told g env.layout list σ.ram σ.flash) :
    Faithful g env.layout list σ'.ram σ'.flash ∧ Told g env.layout list σ'.ram σ'.flash := by
  have updatable := faithful.updatable replace.inside
  have unlisted := faithful.resolve_unlisted (fun b hb => (numberable.mem hb).2) replace.inside
  rw [replace.here] at updatable unlisted
  -- only the block of the failed page has changed
  have step : FlashStep env.layout anything (.eraseBlock (offset / eraseSize)) σ.flash false
      σ₁.flash := by
    refine .inr ⟨rfl, σ₁.flash.pages, fun _ _ => trivial, ?_⟩
    have pages : σ₁.flash.pages = fun p =>
        if p / pagePerBlock = offset / eraseSize then σ₁.flash.pages p else σ.flash.pages p := by
      funext p
      split
      · rfl
      · next other =>
          apply replace.others
          rintro rfl
          exact other (page_div_block offset)
    show (⟨σ₁.flash.pages, σ₁.failed⟩ : Flash) = _
    rw [replace.failed, ← pages]
    rfl
  have force : InForce g env.layout list {offset / eraseSize} σ₁.ram σ₁.flash := by
    rw [replace.ram]
    exact faithful.force.client step replace.one updatable fun b changes => changes.symm
  have tellable : Tellable g env.layout σ₁.ram σ₁.flash.pages offset (σ.ram.pBbt block) oob := by
    rw [replace.ram]
    exact told.tellable faithful replace.inside replace.here place replace.caller unlisted
      replace.others
  have past : PastList g list σ₁.ram := replace.ram ▸ faithful.past
  have failing : offset / eraseSize ∈ σ₁.flash.failed := by
    show offset / eraseSize ∈ σ₁.failed
    rw [replace.failed]
    exact Set.mem_insert _ _
  have updated := CarefulRun.reported readable replace.run replace.reported
    (reported_updateBmt (fun _ _ _ told => told) small depth force past replace.one
      (replace.ram ▸ updatable) failing unlisted)
  obtain ⟨result, faithful', -⟩ := updated rfl
  have told₁ : Told g env.layout list σ₁.ram σ.flash := replace.ram ▸ told
  exact ⟨faithful', told₁.replaced fits small force tellable replace.others result⟩

include readable in
/-- What is kept over the life of the device. -/
theorem Recovering.told (use : Recovering g env leftover list σ) (fits : 4 ≤ g.mtdOobsize)
    (small : g.bmtBlockCount ≤ 255) : Numberable g list ∧
      Faithful g env.layout list σ.ram σ.flash ∧ Told g env.layout list σ.ram σ.flash := by
  induction use with
  | first absent distinct boot computed few front clean save =>
      have noBmt := fun b pool => (absent b pool).1
      have noBbt := fun b pool => (absent b pool).2
      have bootable := bootable_of_absent noBmt
      obtain ⟨numberable, faithful⟩ := (InUse.first bootable noBbt boot computed few front
        save).faithful readable small
      have told := told_first readable noBmt distinct boot clean
      have consistent := (begun_first readable bootable noBbt boot few).1.consistent
      exact ⟨numberable, faithful, told.saved readable consistent save⟩
  | write _ write place ih =>
      obtain ⟨numberable, faithful, told⟩ := ih
      refine ⟨numberable, write.keeps readable place ?_ small numberable faithful told⟩
      exact kept_told fits small fun b hb => (numberable.mem hb).2
  | replace _ replace place ih =>
      obtain ⟨numberable, faithful, told⟩ := ih
      exact ⟨numberable, replace.told readable place fits small numberable faithful told⟩
  | reboot _ written boot save ih =>
      obtain ⟨numberable, faithful, told⟩ := ih
      have begun := begun_again readable numberable faithful written boot
      have told₁ := told.booted readable faithful boot
      exact ⟨numberable, SaveRun.faithful readable save numberable begun,
        told₁.saved readable begun.consistent save⟩

/-- Tables with the same entries and one for each system block at most look up the same. -/
theorem lookup_congr {bmt bmt' : BmtStruct} (keyed : bmt.Keyed)
    (same : ∀ e, e ∈ bmt'.live ↔ e ∈ bmt.live) (k : ℕ) : bmt'.lookup k = bmt.lookup k := by
  cases found : bmt.lookup k with
  | none =>
      rw [bmt'.lookup_eq_none]
      exact fun e he => bmt.lookup_eq_none.mp found e ((same e).mp he)
  | some e =>
      obtain ⟨mem, key⟩ := bmt.lookup_some found
      cases found' : bmt'.lookup k with
      | none => exact absurd key (bmt'.lookup_eq_none.mp found' e ((same e).mpr mem))
      | some e' =>
          obtain ⟨mem', key'⟩ := bmt'.lookup_some found'
          rw [keyed e mem e' ((same e').mp mem') (key.trans key'.symm)]

end Life

/-! ## Two runs -/

/-- Factory marks name no block. -/
theorem factorySpi_points_nowhere (g : Geometry) (L : OobLayout) (marked : List ℕ) (block : ℕ) :
    ¬ PointsBack g L (factorySpi marked).chip.pages block := by
  by_cases mark : block ∈ marked
  · rintro ⟨good, -⟩
    apply good
    left
    have first : firstPage (factorySpi marked).chip.pages block = ⟨allOnes, fun _ => 0⟩ := by
      simp only [firstPage, factorySpi, pageAddr_div_self, mark, if_true]
    rw [first]
    exact (by decide : (0 : UInt8) ≠ 0xff)
  · apply not_pointsBack_of_blank
    simp only [firstPage, factorySpi, pageAddr_div_self, mark, if_false]
    rfl

/-- A program succeeds, or is that of the first page of a block. -/
def firstOnly : NandOp → Spi → Prop
  | .writePage page dataOffset dat dataLen oob oobLen, s =>
      (nandMachine seventhFails (.writePage page dataOffset dat dataLen oob oobLen) s).1 = true ∨
        page % pagePerBlock = 0
  | _, _ => True

instance decidableFirstOnly : (op : NandOp) → (s : Spi) → Decidable (firstOnly op s)
  | .writePage _ _ _ _ _ _, _ => inferInstanceAs (Decidable (_ ∨ _))
  | .readPage _, _ => .isTrue trivial
  | .checkBlockBad _ _, _ => .isTrue trivial
  | .markBadblock _ _, _ => .isTrue trivial
  | .eraseBlock _, _ => .isTrue trivial
  | .clearCache, _ => .isTrue trivial

theorem failsInFirst_of_firstOnly {op : NandOp} {w : Spi × Set ℕ} (h : firstOnly op w.1) :
    Reported seventhFails (failsInFirst eightBlocks seventhFails.layout) op w := by
  cases op with
  | writePage page dataOffset dat dataLen oob oobLen =>
      intro failed later
      rcases h with done | first
      · exact Bool.noConfusion (done.symm.trans failed)
      · exact absurd first later
  | readPage _ => trivial
  | checkBlockBad _ _ => trivial
  | markBadblock _ _ => trivial
  | eraseBlock _ => trivial
  | clearCache => trivial

theorem firstOnly_reported {α : Type} {m : Drv α} {r : Ram} {w : Watch}
    (h : Keeps (nandMachine seventhFails) firstOnly m r w.spi) :
    Keeps (watchMachine seventhFails) (Reported seventhFails
      (failsInFirst eightBlocks seventhFails.layout)) m (watchedDevice r w).ram
      ((watchedDevice r w).spi, (watchedDevice r w).failed) := by
  apply Program.Keeps.mono _
    (Program.keeps_withLedger (nandMachine seventhFails) noteFailed _ _ _ _ h)
  exact fun op w told => failsInFirst_of_firstOnly told

/-- A byte is written to the second logical block, whose first page fails. -/
def failedWrite : Drv Rtn := spiNandWriteInternal eightBlocks 5 eraseSize 1 fun _ => 0x42

/-- After the run of `listedWrite`. -/
def recoveredRun : Option (Rtn × Ram × Watch) := listedWrite.bind fun out =>
  checkedRun seventhFails (fun _ => true) failedWrite out.2.1 out.2.2

/-- Block 5 takes the place of block 2. -/
theorem recovered_recovering : ∃ σ : Device, σ.ram.bmt.live = [⟨2, 5⟩] ∧
    Recovering eightBlocks seventhFails anything [1] σ := by
  obtain ⟨σ, r, w, boot, bad, few, clean, save, saved, held⟩ := listed_begun
  obtain ⟨r₁, w₁, write, wrote, held₁⟩ := listed_wrote saved held
  have first : listedSave.map (fun out => decide (Keeps (nandMachine seventhFails) firstOnly
      (spiNandWriteInternal eightBlocks 5 0 1 fun _ => 0x42) (numberedRam eightBlocks out.2.1)
      out.2.2.spi)) = some true := by decide +kernel
  have told : listedWrite.map (fun out => (logicalBlocks eightBlocks out.2.1,
      decide (Keeps (nandMachine seventhFails) (inOrder out.2.1) failedWrite out.2.1 out.2.2.spi),
      decide (Keeps (nandMachine seventhFails) firstOnly failedWrite out.2.1 out.2.2.spi))) =
      some (3, true, true) := by decide +kernel
  have ended : recoveredRun.map (fun out => (out.1, out.2.1.bmt.live)) =
      some (.noError, [⟨2, 5⟩]) := by decide +kernel
  simp only [saved, Option.map_some, Option.some.injEq, decide_eq_true_eq] at first
  simp only [wrote, Option.map_some, Option.some.injEq, Prod.mk.injEq, decide_eq_true_eq] at told
  obtain ⟨size, ordered, later⟩ := told
  obtain ⟨⟨rtn, r₂, w₂⟩, recovered, same⟩ := Option.map_eq_some_iff.mp ended
  simp only [Prod.mk.injEq] at same
  obtain ⟨rfl, live⟩ := same
  simp only [recoveredRun, wrote, Option.bind_some] at recovered
  obtain ⟨careful, -⟩ := @carefulRun_of_checked _ seventhFails anything (fun _ _ => rfl) _
    (fun _ _ _ _ => trivial) _ _ _ _ _ _ held₁ recovered
  have blank := factorySpi_holds_no_table eightBlocks seventhFails.layout [1, 7]
  have nowhere := factorySpi_points_nowhere eightBlocks seventhFails.layout [1, 7]
  have inside : eraseSize + 1 ≤ logicalBlocks eightBlocks r₁ * eraseSize := by
    rw [size]
    decide
  have begun : Recovering eightBlocks seventhFails anything [1]
      (numberedDevice eightBlocks (watchedDevice r w)) :=
    .first (fun b _ => blank b) (fun b _ _ _ points => absurd points (nowhere b)) boot bad few
      (by decide) (fun b system unlisted _ => clean b system unlisted) save
  have second := begun.write write (firstOnly_reported first)
  exact ⟨_, live, second.write ⟨inside, careful, Program.Keeps.mono (fun _ _ told => told.1)
    (reported_of_inOrder ordered)⟩ (firstOnly_reported later)⟩

/-- Block 5 has taken the place of block 1 when its fourth page fails as well. -/
def failedAgain : Drv Bool :=
  updateBmt eightBlocks 5 (blockOffset 5 + 3 * pageSize) .writeFail (some allOnes)
    (some (putU16 allOnes 2 1))

/-- The driver is set up on an erased chip, and a byte is written to block 1, whose first page
fails. -/
def replacedOnce : Option (Rtn × Ram × Spi) := (setUp []).bind fun out =>
  exec (nandMachine seventhFails) failedWrite out.2.1 out.2.2

end En7512.Flash
