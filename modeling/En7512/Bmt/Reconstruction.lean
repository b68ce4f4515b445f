/-
# Rebuilding the table from the pool

`reconstruct_bmt` visits every block of the pool. A block without a mark whose
spare area carries the number of a system block becomes an entry of the table,
and the system block is marked if it is not marked already. When no two blocks
carry the same number, the table is exactly what the pool says.

The marks go through the same page in memory as the reads, so a check made after
a mark may be answered wrongly. That costs nothing: a page that has been
programmed carries the mark whatever the check answers.
-/

import En7512.Bmt.Persistence

namespace En7512.Bmt

open En7512.Logic En7512.Nand En7512.Logic.Routine

/-! ## Marks that succeed -/

/-- The page in memory is as on the chip. -/
def CacheCurrent (env : Env) (s : Spi) : Prop :=
  ∀ p, s.cache.pageNum = some p → Held.Describes env (some (p, .clean)) s

/-- The program of a mark succeeds. -/
def MarkSucceeds (env : Env) (op : NandOp) (s : Spi) : Prop :=
  match op with
  | .markBadblock offset kind => (nandMachine env (.markBadblock offset kind) s).1 = true
  | _ => True

/-- After a mark the page carries it. -/
def ShowsMark (L : OobLayout) (op : NandOp) (pages : ℕ → Page) : Prop :=
  match op with
  | .markBadblock offset kind => (pages (offset / pageSize)).Marked L kind
  | _ => True

/-- `DoubtStep` with marks that take effect. -/
def MarkingStep (L : OobLayout) : Rules NandOp NandResp Doubt := fun op d answer d' =>
  DoubtStep L op d answer d' ∧ ShowsMark L op d'.pages

/-- A program that succeeds clears the bits of the mark, whatever page was in memory. -/
theorem marked_of_markSucceeds {env : Env} {offset : ℕ} {kind : BadKind} {s : Spi}
    (ok : MarkSucceeds env (.markBadblock offset kind) s) :
    ((nandMachine env (.markBadblock offset kind) s).2.chip.pages (offset / pageSize)).Marked
      env.layout kind := by
  have short : kind.index < 8 := by cases kind <;> decide
  have cleared : ∀ oob : Bytes,
      env.layout.scatter oob kind.mark 8 (env.layout.pos kind.index) = 0 := fun oob => by
    rw [env.layout.scatter_pos _ _ _ (kind.index_lt env.layout), if_pos short]
    simp [BadKind.mark]
  simp only [MarkSucceeds, nandMachine, en7512NandMarkBadblock, spiNandWritePage,
    Chip.program] at ok ⊢
  split at ok
  · simp only [Page.Marked, Page.and_oob, cleared, if_true]
    simp
  · simp at ok

/-- The page layer follows `MarkingStep` when its marks succeed. -/
theorem nand_markingStep {env : Env} (readable : ∀ t p, env.uncorrectable t p = false)
    (op : NandOp) {s : Spi} {d : Doubt} (rel : Doubts env s d) (ok : MarkSucceeds env op s) :
    ∃ d', MarkingStep env.layout op d (nandMachine env op s).1 d' ∧
      Doubts env (nandMachine env op s).2 d' := by
  obtain ⟨d', step, rel'⟩ := nand_doubtStep readable op rel
  refine ⟨d', ⟨step, ?_⟩, rel'⟩
  cases op with
  | markBadblock offset kind =>
      show (d'.pages (offset / pageSize)).Marked env.layout kind
      rw [← rel'.pages]
      exact marked_of_markSucceeds ok
  | readPage _ => trivial
  | checkBlockBad _ _ => trivial
  | eraseBlock _ => trivial
  | writePage _ _ _ _ _ _ => trivial
  | clearCache => trivial

/-- What is proved of a routine over `MarkingStep` holds of its runs on the page
layer in which the marks succeed. -/
theorem marking_exec {ρ α : Type} {env : Env} (readable : ∀ t p, env.uncorrectable t p = false)
    {m : Routine NandOp NandResp ρ α} {r r' : ρ} {a : α} {post : α → ρ → Doubt → Prop}
    {s s' : Spi} {d : Doubt} (rel : Doubts env s d)
    (h : Routine.wp (MarkingStep env.layout) m post r d)
    (marks : Routine.Keeps (nandMachine env) (MarkSucceeds env) m r s)
    (run : Routine.exec (nandMachine env) m r s = some (a, r', s')) :
    ∃ d', Doubts env s' d' ∧ post a r' d' := by
  exact Routine.exec_of_simulation (Doubts env)
    (fun op _ _ rel ok => nand_markingStep readable op rel ok) rel h marks run

section Marking

variable {g : Geometry} {L : OobLayout} {r : Ram} {d : Doubt}

/-- What is proved over `DoubtStep` holds when marks take effect as well. -/
theorem wp_marking {α : Type} {m : Drv α} {post : α → Ram → Doubt → Prop}
    (h : wp (DoubtStep L) m post r d) : wp (MarkingStep L) m post r d := by
  apply Program.wp_mono _ (Program.wp_of_simulation Eq _ rfl h)
  · rintro a d' ⟨_, rfl, hpost⟩
    exact hpost
  · rintro op d _ answer d' rfl ⟨step, -⟩
    exact ⟨d', step, rfl⟩

/-- The page carries the factory mark. -/
abbrev RawMarked (L : OobLayout) (d : Doubt) (page : ℕ) : Prop := (d.pages page).Marked L .raw

/-- Pages in doubt and the bad blocks of the table carry the factory mark. -/
structure Backed (L : OobLayout) (r : Ram) (d : Doubt) : Prop where
  doubt : ∀ p ∈ d.doubt, RawMarked L d p
  keys : ∀ e ∈ r.bmt.live, RawMarked L d (pageAddr e.badIndex)

theorem Backed.mark {page : Page} {p : ℕ} (backed : Backed L r d) (marked : page.Marked L .raw) :
    Backed L r ⟨Function.update d.pages p page, insert p d.doubt⟩ := by
  have stays : ∀ q, RawMarked L d q →
      RawMarked L ⟨Function.update d.pages p page, insert p d.doubt⟩ q := by
    intro q before
    show (Function.update d.pages p page q).Marked L .raw
    by_cases hq : q = p
    · subst hq
      rwa [Function.update_self]
    · rwa [Function.update_of_ne hq]
  constructor
  · rintro q (rfl | hq)
    · show (Function.update d.pages q page q).Marked L .raw
      rwa [Function.update_self]
    · exact stays q (backed.doubt q hq)
  · exact fun e he => stays _ (backed.keys e he)

/-- After the test and the mark the block carries the factory mark. -/
theorem marking_markUnmarked {block : ℕ} {post : Unit → Ram → Doubt → Prop}
    (inside : block < g.totalBlockCount) (backed : Backed L r d)
    (h : ∀ d', Backed L r d' → RawMarked L d' (pageAddr block) → post () r d') :
    wp (MarkingStep L) (markUnmarked [block]) post r d := by
  rw [markUnmarked, wp_bind, nandBlockBadBmt, wp_perform]
  rintro answer d' ⟨⟨rfl, told⟩, -⟩
  rw [foldReserved_block inside, blockOffset_div_page] at told
  cases answer with
  | true =>
      apply h _ backed
      by_cases doubtful : pageAddr block ∈ d'.doubt
      · exact backed.doubt _ doubtful
      · exact (told doubtful).mp rfl
  | false =>
      rw [if_neg (by simp), wp_bind, markBlockBadBmt, wp_bind, wp_perform]
      rintro answer d₁ ⟨⟨page, rfl⟩, marked⟩
      simp only [ShowsMark, Function.update_self] at marked
      rw [blockOffset_div_page]
      apply h _ (backed.mark marked)
      show (Function.update d'.pages (pageAddr block) page (pageAddr block)).Marked L .raw
      rwa [Function.update_self]

/-- A new entry whose bad block carries the mark. The count may wrap. -/
theorem Backed.append {badIndex mapIndex : ℕ} (backed : Backed L r d)
    (marked : RawMarked L d (pageAddr badIndex)) :
    Backed L { r with bmt := r.bmt.append badIndex mapIndex } d := by
  refine ⟨backed.doubt, fun e he => ?_⟩
  obtain ⟨i, hi, rfl⟩ := (BmtStruct.mem_live _).mp he
  have small : i < r.bmt.mappedCount + 1 := lt_of_lt_of_le hi (Nat.mod_le _ _)
  simp only [BmtStruct.append]
  by_cases last : i = r.bmt.mappedCount
  · rw [last, Function.update_self]
    exact marked
  · rw [Function.update_of_ne last]
    exact backed.keys _ ((BmtStruct.mem_live _).mpr ⟨i, by omega, rfl⟩)

/-- Reading a page changes neither the table nor the flash. -/
theorem marking_readPage {page : ℕ} {post : Bool → Ram → Doubt → Prop}
    (h : ∀ done r', SameTables r r' → post done r' d) :
    wp (MarkingStep L) (nandReadPageBmt page) post r d := by
  rw [nandReadPageBmt, wp_bind, wp_perform]
  rintro answer d' ⟨⟨rfl, -⟩, -⟩
  cases answer with
  | none => exact h _ _ (.refl r)
  | some content => exact h _ _ ⟨rfl, rfl, rfl, rfl, rfl, rfl, rfl⟩

theorem marking_blockMarkedBad {block : ℕ} {post : Bool → Ram → Doubt → Prop}
    (h : ∀ marked, post marked r d) : wp (MarkingStep L) (blockMarkedBad block) post r d := by
  rw [blockMarkedBad, wp_bind, nandBlockBadBmt, wp_perform]
  rintro raw d' ⟨⟨rfl, -⟩, -⟩
  cases raw with
  | true => exact h true
  | false =>
      rw [if_neg (by simp), nandBlockBadBmt, wp_perform]
      rintro later d' ⟨⟨rfl, -⟩, -⟩
      exact h later

/-- Every block the loop puts into the table carries the factory mark. -/
theorem marking_reconstructFrom (blocks : List ℕ) (backed : Backed L r d) :
    wp (MarkingStep L) (reconstructFrom g blocks) (fun _ r' d' => Backed L r' d') r d := by
  induction blocks generalizing r d with
  | nil => exact backed
  | cons block blocks ih =>
      rw [reconstructFrom, wp_bind]
      apply marking_blockMarkedBad
      intro marked
      cases marked with
      | true => exact ih backed
      | false =>
          rw [if_neg (by simp), wp_bind]
          apply marking_readPage
          intro done r₁ same
          have backed₁ : Backed L r₁ d := ⟨backed.doubt, same.bmt ▸ backed.keys⟩
          rw [wp_bind, wp_get]
          by_cases system : g.systemBlockCount ≤ getBadIndexFromOob r₁.oobBuf
          · rw [if_pos system]
            exact ih backed₁
          · rw [if_neg system, wp_bind]
            have split := g.system_add_pool
            apply marking_markUnmarked (g := g) (by omega) backed₁
            intro d₁ backed₂ now
            rw [wp_bind, wp_modify]
            exact ih (backed₂.append now)

end Marking

/-! ## The table that is rebuilt -/

/-- No two blocks of the pool carry the same number. -/
def DistinctIndexes (g : Geometry) (L : OobLayout) (pages : ℕ → Page) : Prop :=
  ∀ b c, g.InPool b → g.InPool c → PointsBack g L pages b → PointsBack g L pages c →
    pageIndex L (firstPage pages b) = pageIndex L (firstPage pages c) → b = c

section Rebuilt

variable {g : Geometry} {L : OobLayout} {pages : ℕ → Page}

theorem mem_backPointers {e : BmtEntry} : e ∈ backPointers g L pages g.poolBlocks ↔
    g.InPool e.mappedIndex ∧ PointsBack g L pages e.mappedIndex ∧
      pageIndex L (firstPage pages e.mappedIndex) = e.badIndex := by
  simp only [backPointers, List.mem_map, List.mem_filter, decide_eq_true_eq,
    Geometry.mem_poolBlocks]
  constructor
  · rintro ⟨b, ⟨pool, points⟩, rfl⟩
    exact ⟨pool, points, rfl⟩
  · rintro ⟨pool, points, index⟩
    exact ⟨e.mappedIndex, ⟨pool, points⟩, by rw [index]⟩

theorem nodup_backPointers : (backPointers g L pages g.poolBlocks).Nodup := by
  apply List.Nodup.map
  · intro b c eq
    exact congrArg BmtEntry.mappedIndex eq
  · exact List.Nodup.filter _ List.nodup_range'

/-- A number that a block carries is resolved to that block. -/
theorem getMappingBlockIndexByBmt_indexed (distinct : DistinctIndexes g L pages) {bmt : BmtStruct}
    (live : bmt.live = backPointers g L pages g.poolBlocks) {block : ℕ} (pool : g.InPool block)
    (points : PointsBack g L pages block) :
    getMappingBlockIndexByBmt g bmt (pageIndex L (firstPage pages block)) = block := by
  rw [getMappingBlockIndexByBmt, if_neg (not_le.mpr points.2)]
  cases found : bmt.lookup (pageIndex L (firstPage pages block)) with
  | none =>
      have mem : (⟨pageIndex L (firstPage pages block), block⟩ : BmtEntry) ∈ bmt.live := by
        rw [live]
        exact mem_backPointers.mpr ⟨pool, points, rfl⟩
      exact absurd rfl (bmt.lookup_eq_none.mp found _ mem)
  | some e =>
      obtain ⟨mem, key⟩ := bmt.lookup_some found
      rw [live] at mem
      obtain ⟨pool', points', index⟩ := mem_backPointers.mp mem
      exact distinct _ _ pool' pool points' points (index.trans key)

/-- A block whose number no block carries is resolved to itself. -/
theorem getMappingBlockIndexByBmt_unindexed {bmt : BmtStruct}
    (live : bmt.live = backPointers g L pages g.poolBlocks) {block : ℕ}
    (none : ∀ b, g.InPool b → PointsBack g L pages b →
      pageIndex L (firstPage pages b) ≠ block) :
    getMappingBlockIndexByBmt g bmt block = block := by
  have missing : bmt.lookup block = Option.none := by
    rw [bmt.lookup_eq_none, live]
    intro e he
    obtain ⟨pool, points, index⟩ := mem_backPointers.mp he
    rw [← index]
    exact none _ pool points
  simp only [getMappingBlockIndexByBmt, missing, ite_self]

end Rebuilt

theorem returns_reconstructBmt (g : Geometry) : Returns (reconstructBmt g) :=
  returns_bind (returns_modify _) fun _ => returns_reconstructFrom g _

/-- `reconstruct_bmt` returns, and leaves the table the pool describes: one entry for
each block of the pool that carries no mark and the number of a system block. Those
system blocks are resolved to the blocks that carry their numbers and are marked
on their first pages; the others are resolved to themselves. -/
theorem reconstructBmt_recovers {g : Geometry} {env : Env} (small : g.bmtBlockCount ≤ 255)
    (readable : ∀ t p, env.uncorrectable t p = false) {s : Spi} (r : Ram)
    (current : CacheCurrent env s)
    (marks : Keeps (nandMachine env) (MarkSucceeds env) (reconstructBmt g) r s)
    (distinct : DistinctIndexes g env.layout s.chip.pages) :
    ∃ r' s', exec (nandMachine env) (reconstructBmt g) r s = some ((), r', s') ∧
      r'.bmt.live.Nodup ∧
      (∀ e, e ∈ r'.bmt.live ↔ g.InPool e.mappedIndex ∧
        PointsBack g env.layout s.chip.pages e.mappedIndex ∧
        pageIndex env.layout (firstPage s.chip.pages e.mappedIndex) = e.badIndex) ∧
      (∀ b, g.InPool b → PointsBack g env.layout s.chip.pages b →
        getMappingBlockIndexByBmt g r'.bmt
            (pageIndex env.layout (firstPage s.chip.pages b)) = b ∧
          (firstPage s'.chip.pages
            (pageIndex env.layout (firstPage s.chip.pages b))).Marked env.layout .raw) ∧
      ∀ b, (∀ c, g.InPool c → PointsBack g env.layout s.chip.pages c →
          pageIndex env.layout (firstPage s.chip.pages c) ≠ b) →
        getMappingBlockIndexByBmt g r'.bmt b = b := by
  obtain ⟨⟨⟩, r', s', run⟩ :=
    exists_exec_of_returns (nandMachine env) (returns_reconstructBmt g) r s
  have start : Doubts env s ⟨s.chip.pages, ∅⟩ := ⟨rfl, fun p held _ => current p held⟩
  have table := wp_marking (doubt_reconstructBmt (g := g) (L := env.layout) (r := r)
    (d := ⟨s.chip.pages, ∅⟩) ((length_backPointers _).trans small) fun _ _ => Set.notMem_empty _)
  have backed : wp (MarkingStep env.layout) (reconstructBmt g)
      (fun _ r' d' => Backed env.layout r' d') r ⟨s.chip.pages, ∅⟩ := by
    rw [reconstructBmt, wp_bind, wp_modify]
    apply marking_reconstructFrom
    exact ⟨fun p hp => absurd hp (Set.notMem_empty p), fun e he => by simp [BmtStruct.live] at he⟩
  obtain ⟨d', after, ⟨rebuilt, -⟩, kept⟩ :=
    marking_exec readable start (wp_and table backed) marks run
  have live := live_of_rebuilt rebuilt
  refine ⟨r', s', run, live ▸ nodup_backPointers, fun e => live ▸ mem_backPointers,
    fun b pool points => ⟨getMappingBlockIndexByBmt_indexed distinct live pool points, ?_⟩,
    fun b none => getMappingBlockIndexByBmt_unindexed live none⟩
  have key := kept.keys ⟨pageIndex env.layout (firstPage s.chip.pages b), b⟩
    (live ▸ mem_backPointers.mpr ⟨pool, points, rfl⟩)
  rw [firstPage, after.pages]
  exact key

/-- An erased flash but for block 5, which carries the number 1. -/
def indexedSpi : Spi :=
  ⟨⟨Function.update (fun _ => .erased) (pageAddr 5) ⟨allOnes, putU16 allOnes 2 1⟩, 0⟩, .initial⟩

theorem indexed_pointsBack {b : ℕ} :
    PointsBack eightBlocks faultless.layout indexedSpi.chip.pages b ↔ b = 5 := by
  constructor
  · intro points
    by_contra other
    have apart : pageAddr b ≠ pageAddr 5 := fun eq => other (pageAddr_inj.mp eq)
    have blank : firstPage indexedSpi.chip.pages b = .erased := by
      simp only [firstPage, indexedSpi, Function.update_of_ne apart]
    have small := points.2
    rw [blank] at small
    exact absurd small (by decide)
  · rintro rfl
    decide

/-- Every mark succeeds on a faultless chip. -/
theorem faultless_marks {α : Type} (m : Drv α) (r : Ram) (s : Spi) :
    Keeps (nandMachine faultless) (MarkSucceeds faultless) m r s := by
  apply Program.keeps_of_forall
  intro op s
  cases op with
  | markBadblock offset kind => rfl
  | readPage _ => trivial
  | checkBlockBad _ _ => trivial
  | eraseBlock _ => trivial
  | writePage _ _ _ _ _ _ => trivial
  | clearCache => trivial

theorem reconstructBmt_recovers_block_five : ∃ r' s',
    exec (nandMachine faultless) (reconstructBmt eightBlocks) Ram.initial indexedSpi =
      some ((), r', s') ∧ getMappingBlockIndexByBmt eightBlocks r'.bmt 1 = 5 ∧
    (firstPage s'.chip.pages 1).Marked faultless.layout .raw := by
  obtain ⟨r', s', run, -, -, indexed, -⟩ := reconstructBmt_recovers (g := eightBlocks) (by decide)
    (fun _ _ => rfl) Ram.initial (s := indexedSpi)
    (fun p held => by simp [indexedSpi, Cache.initial] at held)
    (faultless_marks _ _ _) fun b c _ _ hb hc _ =>
      (indexed_pointsBack.mp hb).trans (indexed_pointsBack.mp hc).symm
  exact ⟨r', s', run, indexed 5 (by decide) (indexed_pointsBack.mpr rfl)⟩

end En7512.Bmt
