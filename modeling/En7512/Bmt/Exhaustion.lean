/-
# The recoveries end

`migrate_from_bad`, `write_bmt_to_flash` and `write_bbt_to_flash` call
themselves after a failure and count nothing. What ends them is the mark on the
block that failed: if the next check of the block sees it, the block is not
given out again, so each level of the recursion uses up a block of the pool.

Nothing else is assumed of the flash here. `SeenStep` keeps the marks that have
been made and lets every operation answer what it likes, except that a check of
such a mark answers bad.
-/

import En7512.Bmt.Remapping

namespace En7512.Bmt

open En7512.Logic En7512.Nand En7512.Logic.Routine

/-! ## The marks of a run -/

/-- What a run has marked, and what its checks have found. -/
structure Marks where
  /-- The marks on pages that have been neither programmed nor erased since. -/
  made : List (ℕ × BadKind)
  /-- The marks that were found when they were last checked. -/
  found : List (ℕ × BadKind)
  /-- The blocks that have been marked, the last one first. -/
  retired : List ℕ

/-- At the beginning of a run. -/
def Marks.none : Marks := ⟨[], [], []⟩

/-- The ledger of the marks. -/
def noteMarks : (op : NandOp) → NandResp op → Marks → Marks
  | .markBadblock offset kind, _, m =>
      { m with
        made := (offset / pageSize, kind) :: m.made
        retired := offset / eraseSize :: m.retired }
  | .checkBlockBad offset kind, bad, m =>
      { m with found := if bad then (foldReserved offset / pageSize, kind) :: m.found
          else m.found.filter (· ≠ (foldReserved offset / pageSize, kind)) }
  | .eraseBlock block, _, m => { m with made := m.made.filter fun x => x.1 / pagePerBlock ≠ block }
  | .writePage page _ _ _ _ _, _, m => { m with made := m.made.filter fun x => x.1 ≠ page }
  | _, _, m => m

/-- A check of a mark that has been made answers bad. -/
def SeesMade : (op : NandOp) → NandResp op → Marks → Prop
  | .checkBlockBad offset kind, bad, m =>
      (foldReserved offset / pageSize, kind) ∈ m.made → bad = true
  | _, _, _ => True

instance decidableSeesMade : (op : NandOp) → (answer : NandResp op) → (m : Marks) →
    Decidable (SeesMade op answer m)
  | .checkBlockBad offset kind, bad, m => inferInstanceAs
      (Decidable ((foldReserved offset / pageSize, kind) ∈ m.made → (bad : Bool) = true))
  | .readPage _, _, _ => .isTrue trivial
  | .markBadblock _ _, _, _ => .isTrue trivial
  | .eraseBlock _, _, _ => .isTrue trivial
  | .writePage _ _ _ _ _ _, _, _ => .isTrue trivial
  | .clearCache, _, _ => .isTrue trivial

/-- Anything is answered, except that marks are seen. -/
def SeenStep : Rules NandOp NandResp Marks := fun op m answer m' =>
  SeesMade op answer m ∧ m' = noteMarks op answer m

/-- The page layer with the ledger of the marks. -/
def marksMachine (env : Env) : Machine NandOp NandResp (Spi × Marks) :=
  Program.withLedger (nandMachine env) noteMarks

/-- In the run every mark is seen by the checks that follow it. -/
def MarksSeen {α : Type} (env : Env) (m : Drv α) (r : Ram) (s : Spi) : Prop :=
  Keeps (marksMachine env) (fun op w => SeesMade op (nandMachine env op w.1).1 w.2) m r
    (s, .none)

/-- What is proved of a function over `SeenStep` holds of its runs on the page layer
in which the marks are seen. -/
theorem seen_exec {α : Type} {env : Env} {m : Drv α} {r : Ram} {s : Spi}
    {post : α → Ram → Marks → Prop} (h : twp SeenStep m post r .none) (seen : MarksSeen env m r s) :
    ∃ a r' s' marks, exec (marksMachine env) m r (s, .none) = some (a, r', s', marks) ∧
      post a r' marks := by
  have lifted : twp (Program.guarded (marksMachine env) fun op w =>
      SeesMade op (nandMachine env op w.1).1 w.2) m (fun a r' w' => post a r' w'.2) r
      (s, Marks.none) := by
    apply Program.twp_mono _ (Program.twp_of_simulation (fun w marks => w.2 = marks) _ rfl h)
    · rintro a w ⟨_, rfl, hpost⟩
      exact hpost
    · rintro op w _ answer w' rfl ⟨sees, eq⟩
      simp only [marksMachine, Program.withLedger, Prod.mk.injEq] at eq
      obtain ⟨rfl, rfl⟩ := eq
      exact ⟨_, ⟨sees, rfl⟩, rfl⟩
  obtain ⟨a, r', ⟨s', marks⟩, run, hpost⟩ := twp_exec lifted seen
  exact ⟨a, r', s', marks, run, hpost⟩

/-! ## Blocks that have been retired -/

/-- The later mark on the first page of the block has been made. -/
abbrev Marks.Has (m : Marks) (block : ℕ) : Prop := (pageAddr block, BadKind.generateLater) ∈ m.made

/-- The retired blocks are different ones of the given blocks, and their marks are
still there. -/
structure Retiring (blocks : List ℕ) (m : Marks) : Prop where
  nodup : m.retired.Nodup
  mem : ∀ b ∈ m.retired, b ∈ blocks
  made : ∀ b ∈ m.retired, m.Has b

/-- `find_available_block` passes over the block. -/
def Skipped (r : Ram) (m : Marks) (block : ℕ) : Prop :=
  block = r.bmtBlockIndex ∨ block = r.bbtBlockIndex ∨
    ((pageAddr block, .raw) ∈ m.found ∨ (pageAddr block, .generateLater) ∈ m.found) ∨
    r.bmt.isBlockMapped block = true

/-- No block of the pool is left: all hold a table, are mapped, or were found marked
when they were last checked. -/
def Exhausted (g : Geometry) (r : Ram) (m : Marks) : Prop := ∀ b, g.InPool b → Skipped r m b

/-- Nothing has been marked, and of the marks only those on one block may be gone. -/
structure Spares (block : ℕ) (m m' : Marks) : Prop where
  retired : m'.retired = m.retired
  made : ∀ b ≠ block, m.Has b → m'.Has b

section Ledger

variable {blocks : List ℕ} {m m' m'' : Marks} {block : ℕ}

theorem Spares.refl (block : ℕ) (m : Marks) : Spares block m m := ⟨rfl, fun _ _ h => h⟩

theorem Spares.trans (h : Spares block m m') (h' : Spares block m' m'') : Spares block m m'' :=
  ⟨h'.retired.trans h.retired, fun b hb has => h'.made b hb (h.made b hb has)⟩

theorem Retiring.spares (h : Retiring blocks m) (spares : Spares block m m')
    (out : block ∉ m.retired) : Retiring blocks m' := by
  constructor
  · exact spares.retired ▸ h.nodup
  · exact spares.retired ▸ h.mem
  · rw [spares.retired]
    intro b hb
    exact spares.made b (fun eq => out (eq ▸ hb)) (h.made b hb)

/-- One more block is retired. -/
theorem Retiring.mark (h : Retiring blocks m) (out : block ∉ m.retired) (mem : block ∈ blocks) :
    Retiring blocks { m with
      made := (pageAddr block, .generateLater) :: m.made
      retired := block :: m.retired } := by
  constructor
  · exact List.nodup_cons.mpr ⟨out, h.nodup⟩
  · intro b hb
    rcases List.mem_cons.mp hb with rfl | hb
    · exact mem
    · exact h.mem b hb
  · intro b hb
    rcases List.mem_cons.mp hb with rfl | hb
    · exact List.mem_cons_self
    · exact List.mem_cons_of_mem _ (h.made b hb)

theorem Retiring.length_le (h : Retiring blocks m) : m.retired.length ≤ blocks.length :=
  (h.nodup.subperm h.mem).length_le

/-- A block that is left leaves room for it. -/
theorem Retiring.length_lt (h : Retiring blocks m) (mem : block ∈ blocks)
    (out : block ∉ m.retired) : m.retired.length < blocks.length :=
  (h.mark out mem).length_le

theorem Skipped.of_found {r : Ram} (h : Skipped r m block)
    (same : ∀ x ∈ m.found, x.1 = pageAddr block → x ∈ m'.found) : Skipped r m' block := by
  rcases h with bmt | bbt | (raw | later) | mapped
  · exact .inl bmt
  · exact .inr (.inl bbt)
  · exact .inr (.inr (.inl (.inl (same _ raw rfl))))
  · exact .inr (.inr (.inl (.inr (same _ later rfl))))
  · exact .inr (.inr (.inr mapped))

theorem Skipped.congr {r r' : Ram} (same : SameTables r r') (h : Skipped r' m block) :
    Skipped r m block := by
  rwa [Skipped, ← same.bmt, ← same.bmtBlockIndex, ← same.bbtBlockIndex]

end Ledger

/-! ## Looking for a block -/

section Find

variable {g : Geometry} {r : Ram} {m : Marks} {block : ℕ}

/-- What checking a block does to the ledger. -/
structure Checked (block : ℕ) (m m' : Marks) : Prop where
  made : m'.made = m.made
  retired : m'.retired = m.retired
  others : ∀ x ∈ m.found, x.1 ≠ pageAddr block → x ∈ m'.found

theorem Checked.refl (block : ℕ) (m : Marks) : Checked block m m := ⟨rfl, rfl, fun _ h _ => h⟩

theorem Checked.retiring {blocks : List ℕ} {m' : Marks} (h : Checked block m m')
    (retiring : Retiring blocks m) : Retiring blocks m' := by
  refine ⟨h.retired ▸ retiring.nodup, h.retired ▸ retiring.mem, fun b hb => ?_⟩
  rw [Marks.Has, h.made]
  exact retiring.made b (h.retired ▸ hb)

theorem seen_checkBad {kind : BadKind} {post : Bool → Ram → Marks → Prop}
    (inside : block < g.totalBlockCount)
    (h : ∀ bad m', Checked block m m' → (bad = true → (pageAddr block, kind) ∈ m'.found) →
      (bad = false → (pageAddr block, kind) ∉ m.made) → post bad r m') :
    twp SeenStep (nandBlockBadBmt (blockOffset block) kind) post r m := by
  rw [nandBlockBadBmt, twp_perform]
  rintro bad m' ⟨sees, rfl⟩
  rw [SeesMade, foldReserved_block inside, blockOffset_div_page] at sees
  have page : foldReserved (blockOffset block) / pageSize = pageAddr block := by
    rw [foldReserved_block inside, blockOffset_div_page]
  apply h
  · refine ⟨rfl, rfl, fun x hx other => ?_⟩
    simp only [noteMarks, page]
    split
    · exact List.mem_cons_of_mem _ hx
    · apply List.mem_filter.mpr
      exact ⟨hx, decide_eq_true fun eq => other (congrArg Prod.fst eq)⟩
  · rintro rfl
    simp only [noteMarks, page, if_true]
    exact List.mem_cons_self
  · rintro rfl made
    exact Bool.noConfusion (sees made)

theorem seen_blockMarkedBad {post : Bool → Ram → Marks → Prop} (inside : block < g.totalBlockCount)
    (h : ∀ marked m', Checked block m m' →
      (marked = true → (pageAddr block, .raw) ∈ m'.found ∨
        (pageAddr block, .generateLater) ∈ m'.found) →
      (marked = false → ¬ m.Has block) → post marked r m') :
    twp SeenStep (blockMarkedBad block) post r m := by
  rw [blockMarkedBad]
  apply twp_bind
  apply seen_checkBad inside
  intro raw m₁ checked found good
  cases raw with
  | true => exact h true m₁ checked (fun _ => .inl (found rfl)) (by simp)
  | false =>
      rw [if_neg (by simp)]
      apply seen_checkBad inside
      intro later m₂ checked' found' good'
      apply h later m₂
      · exact ⟨checked'.made.trans checked.made, checked'.retired.trans checked.retired,
          fun x hx other => checked'.others x (checked.others x hx other) other⟩
      · exact fun eq => .inr (found' eq)
      · rw [checked.made] at good'
        exact good'

theorem seen_blockAvailable {post : Bool → Ram → Marks → Prop} (inside : block < g.totalBlockCount)
    (h : ∀ available m', Checked block m m' → (available = true → ¬ m.Has block) →
      (available = false → Skipped r m' block) → post available r m') :
    twp SeenStep (blockAvailable block) post r m := by
  rw [blockAvailable]
  apply twp_bind
  rw [twp_get]
  by_cases bmt : block = r.bmtBlockIndex
  · rw [if_pos bmt]
    exact h false m (.refl _ m) (by simp) fun _ => .inl bmt
  rw [if_neg bmt]
  by_cases bbt : block = r.bbtBlockIndex
  · rw [if_pos bbt]
    exact h false m (.refl _ m) (by simp) fun _ => .inr (.inl bbt)
  rw [if_neg bbt]
  apply twp_bind
  apply seen_blockMarkedBad inside
  intro marked m' checked found good
  cases marked with
  | true => exact h false m' checked (by simp) fun _ => .inr (.inr (.inl (found rfl)))
  | false =>
      apply h _ m' checked fun _ => good rfl
      intro mapped
      exact .inr (.inr (.inr (by simpa using mapped)))

/-- A mark that `find_available_block` and the functions above it make. -/
theorem seen_mark {post : Unit → Ram → Marks → Prop}
    (h : post () r { m with
      made := (pageAddr block, .generateLater) :: m.made
      retired := block :: m.retired }) :
    twp SeenStep (markBlockBadBmt (blockOffset block) .generateLater) post r m := by
  rw [markBlockBadBmt]
  apply twp_bind
  rw [twp_perform]
  rintro answer m' ⟨-, rfl⟩
  simp only [noteMarks, blockOffset_div_page, blockOffset_div_erase, twp_pure]
  exact h

/-- An erase clears the marks of its block only. -/
theorem seen_erase {post : Bool → Ram → Marks → Prop}
    (h : ∀ erased m', Spares block m m' → post erased r m') :
    twp SeenStep (nandEraseBmt (blockOffset block)) post r m := by
  rw [nandEraseBmt, blockOffset_div_erase, twp_perform]
  rintro erased m' ⟨-, rfl⟩
  apply h
  refine ⟨rfl, fun b hb has => List.mem_filter.mpr ⟨has, decide_eq_true ?_⟩⟩
  rwa [pageAddr_div_self]

theorem seen_erasePool {blocks : List ℕ} (list : List ℕ) (pool : ∀ b ∈ list, g.InPool b)
    (inside : ∀ b ∈ list, b ∈ blocks) (retiring : Retiring blocks m) :
    twp SeenStep (erasePool list) (fun _ _ m' => Retiring blocks m' ∧
      m.retired.length ≤ m'.retired.length) r m := by
  induction list generalizing m with
  | nil => exact ⟨retiring, le_rfl⟩
  | cons block list ih =>
      have rest : ∀ m₁, Retiring blocks m₁ → m.retired.length ≤ m₁.retired.length →
          twp SeenStep (erasePool list) (fun _ _ m' => Retiring blocks m' ∧
            m.retired.length ≤ m'.retired.length) r m₁ := by
        intro m₁ retiring₁ more
        apply twp_mono _ (ih (fun b hb => pool b (List.mem_cons_of_mem _ hb))
          (fun b hb => inside b (List.mem_cons_of_mem _ hb)) retiring₁)
        exact fun _ _ _ later => ⟨later.1, more.trans later.2⟩
      rw [erasePool]
      apply twp_bind
      apply seen_blockAvailable (pool block List.mem_cons_self).2
      intro available m₁ checked good _
      have retiring₁ := checked.retiring retiring
      cases available with
      | false => exact rest m₁ retiring₁ (checked.retired ▸ le_rfl)
      | true =>
          have out : block ∉ m₁.retired := fun mem =>
            good rfl (retiring.made block (checked.retired ▸ mem))
          rw [if_pos rfl]
          apply twp_bind
          apply seen_erase
          intro erased m₂ spares
          have retiring₂ := retiring₁.spares spares out
          have same : m₂.retired = m.retired := spares.retired.trans checked.retired
          cases erased with
          | true => exact rest m₂ retiring₂ (same ▸ le_rfl)
          | false =>
              rw [if_neg (by simp)]
              apply twp_bind
              apply seen_mark
              apply rest
              · exact retiring₂.mark (spares.retired ▸ out) (inside block List.mem_cons_self)
              · simp [same]

/-- The result of the second loop. -/
structure Scanned (list : List ℕ) (r : Ram) (m : Marks) (block : ℕ) (m' : Marks) : Prop where
  made : m'.made = m.made
  retired : m'.retired = m.retired
  others : ∀ x ∈ m.found, (∀ b ∈ list, x.1 ≠ pageAddr b) → x ∈ m'.found
  good : block ≠ 0 → block ∈ list ∧ ¬ m.Has block
  skipped : block = 0 → ∀ b ∈ list, Skipped r m' b

theorem seen_scanPool (list : List ℕ) (nodup : list.Nodup) (pool : ∀ b ∈ list, g.InPool b) :
    twp SeenStep (scanPool list) (fun block _ m' => Scanned list r m block m') r m := by
  induction list generalizing m with
  | nil => exact ⟨rfl, rfl, fun _ h _ => h, fun ne => absurd rfl ne, by simp⟩
  | cons block list ih =>
      obtain ⟨fresh, nodup⟩ := List.nodup_cons.mp nodup
      have inPool := pool block List.mem_cons_self
      rw [scanPool]
      apply twp_bind
      apply seen_blockAvailable inPool.2
      intro available m₁ checked good skipped
      cases available with
      | true =>
          refine ⟨checked.made, checked.retired, fun x hx other => ?_, fun _ => ?_, fun zero => ?_⟩
          · exact checked.others x hx (other block List.mem_cons_self)
          · exact ⟨List.mem_cons_self, good rfl⟩
          · exact absurd zero inPool.pos
      | false =>
          apply twp_mono _ (ih nodup fun b hb => pool b (List.mem_cons_of_mem _ hb))
          intro found r' m' scanned
          refine ⟨scanned.made.trans checked.made, scanned.retired.trans checked.retired,
            fun x hx other => ?_, fun ne => ?_, fun zero b hb => ?_⟩
          · apply scanned.others x
            · exact checked.others x hx (other block List.mem_cons_self)
            · exact fun b hb => other b (List.mem_cons_of_mem _ hb)
          · obtain ⟨mem, clean⟩ := scanned.good ne
            rw [Marks.Has, checked.made] at clean
            exact ⟨List.mem_cons_of_mem _ mem, clean⟩
          · rcases List.mem_cons.mp hb with rfl | hb
            · apply (skipped rfl).of_found
              intro x hx page
              apply scanned.others x hx
              intro c hc eq
              exact fresh (pageAddr_inj.mp (page.symm.trans eq) ▸ hc)
            · exact scanned.skipped zero b hb

/-- What a search for a block makes of the ledger. -/
structure Found (g : Geometry) (blocks : List ℕ) (r : Ram) (m : Marks) (block : ℕ) (m' : Marks) :
    Prop where
  retiring : Retiring blocks m'
  more : m.retired.length ≤ m'.retired.length
  good : block ≠ 0 → g.InPool block ∧ block ∉ m'.retired
  exhausted : block = 0 → Exhausted g r m'

theorem seen_findAvailableBlock {blocks : List ℕ} (pool : ∀ b, g.InPool b → b ∈ blocks)
    (retiring : Retiring blocks m) (startFromEnd : Bool) :
    twp SeenStep (findAvailableBlock g startFromEnd) (fun block _ m' => Found g blocks r m block m')
      r m := by
  have once : twp SeenStep (erasePoolOnce g) (fun _ r' m' => SameTables r r' ∧ Retiring blocks m' ∧
      m.retired.length ≤ m'.retired.length) r m := by
    rw [erasePoolOnce]
    apply twp_bind
    rw [twp_get]
    split
    · exact ⟨.refl r, retiring, le_rfl⟩
    · apply twp_bind
      apply twp_mono _ (twp_and_ensures (seen_erasePool g.poolBlocks
        (fun b hb => g.mem_poolBlocks.mp hb) (fun b hb => pool b (g.mem_poolBlocks.mp hb)) retiring)
        (erasePool_ensures g.poolBlocks))
      rintro _ r' m' ⟨retiring', rfl⟩
      exact ⟨⟨rfl, rfl, rfl, rfl, rfl, rfl, rfl⟩, retiring'⟩
  rw [findAvailableBlock]
  apply twp_bind
  apply twp_mono _ once
  rintro _ r₁ m₁ ⟨same, retiring₁, more⟩
  have mem : ∀ b, b ∈ (if startFromEnd then g.poolBlocks.reverse else g.poolBlocks) ↔
      g.InPool b := by
    intro b
    cases startFromEnd <;> simp
  have nodup : (if startFromEnd then g.poolBlocks.reverse else g.poolBlocks).Nodup := by
    cases startFromEnd
    · exact List.nodup_range'
    · exact List.nodup_reverse.mpr List.nodup_range'
  apply twp_mono _ (seen_scanPool _ nodup fun b hb => (mem b).mp hb)
  intro block r' m' scanned
  have retiring' : Retiring blocks m' := by
    refine ⟨scanned.retired ▸ retiring₁.nodup, scanned.retired ▸ retiring₁.mem, fun b hb => ?_⟩
    rw [Marks.Has, scanned.made]
    exact retiring₁.made b (scanned.retired ▸ hb)
  refine ⟨retiring', scanned.retired ▸ more, fun ne => ?_, fun zero b hb => ?_⟩
  · obtain ⟨hb, clean⟩ := scanned.good ne
    refine ⟨(mem block).mp hb, fun listed => clean ?_⟩
    exact retiring₁.made block (scanned.retired ▸ listed)
  · exact (scanned.skipped zero b ((mem b).mpr hb)).congr same

end Find

/-! ## Moving a block -/

section Migrate

variable {g : Geometry} {r : Ram} {m : Marks} {toIndex : ℕ}

/-- Writing to a page of a block keeps the marks on the other blocks. -/
theorem seen_writePage {page : ℕ} {dat oob : Bytes} {post : Bool → Ram → Marks → Prop}
    (inside : page < pagePerBlock) (h : ∀ written m', Spares toIndex m m' → post written r m') :
    twp SeenStep (nandWritePageBmt (pageAddr toIndex + page) dat oob) post r m := by
  rw [nandWritePageBmt, twp_perform]
  rintro written m' ⟨-, rfl⟩
  apply h
  refine ⟨rfl, fun b hb has => List.mem_filter.mpr ⟨has, decide_eq_true fun eq => hb ?_⟩⟩
  have block := pageAddr_div toIndex inside
  rw [← eq, pageAddr_div_self] at block
  exact block

theorem seen_readPage {page : ℕ} {post : Bool → Ram → Marks → Prop}
    (h : ∀ done r', post done r' m) : twp SeenStep (nandReadPageBmt page) post r m := by
  rw [nandReadPageBmt]
  apply twp_bind
  rw [twp_perform]
  rintro answer m' ⟨-, rfl⟩
  cases answer with
  | none => exact h false r
  | some content => exact h true _

theorem seen_setIndex {errorBlock : ℕ} {post : Unit → Ram → Marks → Prop}
    (h : ∀ r', post () r' m) : twp SeenStep (setIndexOfSystemBlock g errorBlock) post r m := by
  rw [setIndexOfSystemBlock]
  split
  · exact h _
  · exact h r

theorem seen_copyPages {errorBlock : ℕ} (copied : List ℕ)
    (inside : ∀ p ∈ copied, p < pagePerBlock) :
    twp SeenStep (copyPages g errorBlock toIndex copied)
      (fun _ _ m' => Spares toIndex m m') r m := by
  induction copied generalizing r m with
  | nil => exact .refl _ m
  | cons page copied ih =>
      rw [copyPages]
      apply twp_bind
      apply seen_readPage
      intro _ r₁
      apply twp_bind
      apply seen_setIndex
      intro r₂
      apply twp_bind
      rw [twp_get]
      apply twp_bind
      apply seen_writePage (inside page List.mem_cons_self)
      intro written m₁ spares
      cases written with
      | false => exact spares
      | true =>
          apply twp_mono _ (ih fun p hp => inside p (List.mem_cons_of_mem _ hp))
          exact fun _ _ _ later => spares.trans later

theorem seen_migrateTo {offset : ℕ} {dat oob : Bytes} :
    twp SeenStep (migrateTo g toIndex offset (some dat) (some oob))
      (fun _ _ m' => Spares toIndex m m') r m := by
  have inside : offset / pageSize % pagePerBlock < pagePerBlock := Nat.mod_lt _ (by decide)
  rw [migrateTo]
  apply twp_bind
  apply twp_mono _ (seen_copyPages _ fun p hp => (List.mem_range.mp hp).trans inside)
  intro done r₁ m₁ spares
  cases done with
  | false => exact spares
  | true =>
      rw [if_pos rfl, writeErrorPage]
      apply twp_bind
      rw [twp_modify]
      apply twp_bind
      apply seen_setIndex
      intro r₂
      apply twp_bind
      rw [twp_get]
      apply seen_writePage inside
      exact fun _ _ later => spares.trans later

/-- `migrate_from_bad`, with a level of recursion for each block that is left. -/
theorem seen_migrateFromBad (depth : ℕ) {offset : ℕ} {dat oob : Bytes}
    (enough : g.poolBlocks.length < m.retired.length + depth)
    (retiring : Retiring g.poolBlocks m) :
    twp SeenStep (migrateFromBad g offset (some dat) (some oob) depth)
      (fun block _ m' => Found g g.poolBlocks r m block m') r m := by
  induction depth generalizing r m with
  | zero => exact absurd retiring.length_le (not_le.mpr enough)
  | succ depth ih =>
      rw [migrateFromBad]
      apply twp_bind
      apply twp_mono _ (twp_and_ensures (seen_findAvailableBlock
        (fun b hb => g.mem_poolBlocks.mpr hb) retiring false) (findAvailableBlock_ensures g false))
      rintro toIndex r₁ m₁ ⟨found, rfl, -⟩
      by_cases none : toIndex = 0
      · rw [if_pos none]
        subst none
        exact found
      obtain ⟨pool, out⟩ := found.good none
      rw [if_neg none]
      apply twp_bind
      apply twp_mono _ (twp_and_ensures seen_migrateTo (migrateTo_ensures g toIndex offset _ _))
      rintro written r₂ m₂ ⟨spares, same⟩
      have out₂ : toIndex ∉ m₂.retired := spares.retired ▸ out
      have retiring₂ := found.retiring.spares spares out
      cases written with
      | true =>
          exact ⟨retiring₂, spares.retired ▸ found.more, fun _ => ⟨pool, out₂⟩,
            fun zero => absurd zero none⟩
      | false =>
          rw [if_neg (by simp)]
          apply twp_bind
          apply seen_mark
          have more := found.more
          rw [← spares.retired] at more
          have grown : g.poolBlocks.length < (toIndex :: m₂.retired).length + depth := by
            rw [List.length_cons]
            omega
          apply twp_mono _ (ih grown (retiring₂.mark out₂ (g.mem_poolBlocks.mpr pool)))
          intro block r' m' later
          have tables : SameTables r r₂ := ⟨same.bmt, same.initBbt, same.bmtBlockIndex,
            same.bbtBlockIndex, same.pBbt, same.needBmt, same.needBbt⟩
          exact ⟨later.retiring, more.trans ((Nat.le_succ _).trans later.more), later.good,
            fun zero b hb => (later.exhausted zero b hb).congr tables⟩

end Migrate

/-! ## Writing the tables -/

section Write

variable {g : Geometry} {r : Ram} {m : Marks} {blocks : List ℕ} {dat oob : Bytes}

/-- The end of `write_bmt_to_flash` or `write_bbt_to_flash`: `block` is the one that
has been written. -/
structure Written (g : Geometry) (blocks : List ℕ) (r : Ram) (done : Bool) (block : ℕ)
    (m' : Marks) : Prop where
  retiring : Retiring blocks m'
  good : done = true → block ∈ blocks ∧ block ∉ m'.retired
  exhausted : done = false → Exhausted g r m'

theorem seen_writeFirst {block : ℕ} {post : Bool → Ram → Marks → Prop}
    (h : ∀ written m', Spares block m m' → post written r m') :
    twp SeenStep (nandWritePageBmt (pageAddr block) dat oob) post r m := by
  rw [← Nat.add_zero (pageAddr block)]
  exact seen_writePage (by decide) h

/-- The mark on the block of the table. -/
theorem seen_retireBmtBlock {post : Unit → Ram → Marks → Prop}
    (h : post () { r with bmtBlockIndex := 0 } { m with
      made := (pageAddr r.bmtBlockIndex, .generateLater) :: m.made
      retired := r.bmtBlockIndex :: m.retired }) :
    twp SeenStep retireBmtBlock post r m := by
  rw [retireBmtBlock]
  apply twp_bind
  rw [twp_get]
  apply twp_bind
  apply seen_mark
  exact h

/-- Taking a block for the table. -/
theorem seen_prepareBmtBlock_unplaced {post : BmtBlock → Ram → Marks → Prop}
    (pool : ∀ b, g.InPool b → b ∈ blocks) (zero : r.bmtBlockIndex = 0)
    (retiring : Retiring blocks m)
    (h : ∀ block (r₁ : Ram) m₁, Found g blocks r m block m₁ → r₁.bmt = r.bmt →
      r₁.bbtBlockIndex = r.bbtBlockIndex → r₁.bmtBlockIndex = block →
      post (if block = 0 then .unavailable else .ready) r₁ m₁) :
    twp SeenStep (prepareBmtBlock g) post r m := by
  rw [prepareBmtBlock]
  apply twp_bind
  rw [twp_get, if_pos zero]
  apply twp_bind
  apply twp_mono _ (twp_and_ensures (seen_findAvailableBlock pool retiring true)
    (findAvailableBlock_ensures g true))
  rintro block r₁ m₁ ⟨found, rfl, free⟩
  apply twp_bind
  rw [twp_modify]
  have now := h block { r with poolErased := true, bmtBlockIndex := block } m₁ found rfl rfl rfl
  split
  · next none => simpa only [if_pos none, twp_pure] using now
  · next some => simpa only [if_neg some, twp_pure] using now

/-- Erasing the block the table is in. -/
theorem seen_prepareBmtBlock_placed {post : BmtBlock → Ram → Marks → Prop}
    (ne : r.bmtBlockIndex ≠ 0)
    (h : ∀ (erased : Bool) m₁, Spares r.bmtBlockIndex m m₁ →
      post (if erased then .ready else .eraseFailed) r m₁) :
    twp SeenStep (prepareBmtBlock g) post r m := by
  rw [prepareBmtBlock]
  apply twp_bind
  rw [twp_get, if_neg ne]
  apply twp_bind
  apply seen_erase
  intro erased m₁ spares
  cases erased with
  | true => exact h true m₁ spares
  | false => exact h false m₁ spares

/-- `write_bmt_to_flash` while the table has no block. -/
theorem seen_writeBmtToFlash_unplaced (depth : ℕ) (pool : ∀ b, g.InPool b → b ∈ blocks)
    (zero : r.bmtBlockIndex = 0) (enough : blocks.length < m.retired.length + depth)
    (retiring : Retiring blocks m) :
    twp SeenStep (writeBmtToFlash g dat oob depth)
      (fun done r' m' => Written g blocks r done r'.bmtBlockIndex m') r m := by
  induction depth generalizing r m with
  | zero => exact absurd retiring.length_le (not_le.mpr enough)
  | succ depth ih =>
      rw [writeBmtToFlash]
      apply twp_bind
      apply seen_prepareBmtBlock_unplaced pool zero retiring
      intro block r₁ m₁ found bmt bbt index
      by_cases none : block = 0
      · rw [if_pos none]
        exact ⟨found.retiring, by simp, fun _ => found.exhausted none⟩
      obtain ⟨inPool, out⟩ := found.good none
      rw [if_neg none]
      apply twp_bind
      rw [twp_get, index]
      apply twp_bind
      apply seen_writeFirst
      intro written m₂ spares
      have out₂ : block ∉ m₂.retired := spares.retired ▸ out
      have retiring₂ := found.retiring.spares spares out
      cases written with
      | true => exact ⟨retiring₂, fun _ => index ▸ ⟨pool block inPool, out₂⟩, by simp⟩
      | false =>
          rw [if_neg (by simp)]
          apply twp_bind
          apply seen_retireBmtBlock
          rw [index]
          have more := found.more
          rw [← spares.retired] at more
          have grown : blocks.length < (block :: m₂.retired).length + depth := by
            rw [List.length_cons]
            omega
          apply twp_mono _ (ih rfl grown (retiring₂.mark out₂ (pool block inPool)))
          intro done r' m' later
          refine ⟨later.retiring, later.good, fun failed b hb => ?_⟩
          have skipped := later.exhausted failed b hb
          simp only [Skipped, bmt, bbt] at skipped
          rwa [Skipped, zero]

/-- The block the table is in, if it is in one. -/
def Ram.currentBmt (r : Ram) : List ℕ := if r.bmtBlockIndex = 0 then [] else [r.bmtBlockIndex]

/-- `write_bmt_to_flash`: one level more for the block the table is in. -/
theorem seen_writeBmtToFlash (depth : ℕ)
    (enough : (r.currentBmt ++ g.poolBlocks).length < depth) :
    twp SeenStep (writeBmtToFlash g dat oob depth) (fun done r' m' =>
      Written g (r.currentBmt ++ g.poolBlocks) { r with bmtBlockIndex := 0 } done r'.bmtBlockIndex
        m') r .none := by
  have pool : ∀ b, g.InPool b → b ∈ r.currentBmt ++ g.poolBlocks := fun b hb =>
    List.mem_append_right _ (g.mem_poolBlocks.mpr hb)
  have start : Retiring (r.currentBmt ++ g.poolBlocks) .none :=
    ⟨List.nodup_nil, by simp [Marks.none], by simp [Marks.none]⟩
  by_cases zero : r.bmtBlockIndex = 0
  · apply twp_mono _ (seen_writeBmtToFlash_unplaced depth pool zero
      (by simpa [Marks.none] using enough) start)
    intro done r' m' written
    refine ⟨written.retiring, written.good, fun failed b hb => ?_⟩
    have skipped := written.exhausted failed b hb
    rwa [Skipped, zero] at skipped
  have here : r.bmtBlockIndex ∈ r.currentBmt ++ g.poolBlocks := by
    rw [Ram.currentBmt, if_neg zero]
    exact List.mem_cons_self
  obtain ⟨depth, rfl⟩ : ∃ n, depth = n + 1 := Nat.exists_eq_succ_of_ne_zero (by omega)
  -- the block has failed; from here on the table has no block
  have again : ∀ m₁ : Marks, m₁.retired = [] → Retiring (r.currentBmt ++ g.poolBlocks) m₁ →
      twp SeenStep (retireBmtBlock >>= fun _ => writeBmtToFlash g dat oob depth) (fun done r' m' =>
        Written g (r.currentBmt ++ g.poolBlocks) { r with bmtBlockIndex := 0 } done
          r'.bmtBlockIndex m') r m₁ := by
    intro m₁ empty retiring₁
    have out : r.bmtBlockIndex ∉ m₁.retired := by simp [empty]
    apply twp_bind
    apply seen_retireBmtBlock
    apply seen_writeBmtToFlash_unplaced depth pool rfl _ (retiring₁.mark out here)
    simp only [empty, List.length_cons, List.length_nil]
    omega
  rw [writeBmtToFlash]
  apply twp_bind
  apply seen_prepareBmtBlock_placed zero
  intro erased m₁ spares
  have out : r.bmtBlockIndex ∉ Marks.none.retired := by simp [Marks.none]
  have retiring₁ := start.spares spares out
  cases erased with
  | false => exact again m₁ spares.retired retiring₁
  | true =>
      rw [if_pos rfl]
      apply twp_bind
      rw [twp_get]
      apply twp_bind
      apply seen_writeFirst
      intro written m₂ spares'
      have both := spares.trans spares'
      have retiring₂ := start.spares both out
      cases written with
      | true => exact ⟨retiring₂, fun _ => ⟨here, both.retired ▸ out⟩, by simp⟩
      | false =>
          rw [if_neg (by simp)]
          exact again m₂ both.retired retiring₂

/-- `write_bbt_to_flash`. -/
theorem seen_writeBbtToFlash (depth : ℕ) (enough : g.poolBlocks.length < m.retired.length + depth)
    (retiring : Retiring g.poolBlocks m) :
    twp SeenStep (writeBbtToFlash g dat oob depth)
      (fun done r' m' => Written g g.poolBlocks r done r'.bbtBlockIndex m') r m := by
  induction depth generalizing r m with
  | zero => exact absurd retiring.length_le (not_le.mpr enough)
  | succ depth ih =>
      rw [writeBbtToFlash]
      apply twp_bind
      apply twp_mono _ (twp_and_ensures (seen_findAvailableBlock
        (fun b hb => g.mem_poolBlocks.mpr hb) retiring false) (findAvailableBlock_ensures g false))
      rintro block r₁ m₁ ⟨found, rfl, -⟩
      apply twp_bind
      rw [twp_modify]
      by_cases none : block = 0
      · rw [if_pos none]
        exact ⟨found.retiring, by simp, fun _ => found.exhausted none⟩
      obtain ⟨inPool, out⟩ := found.good none
      have mem := g.mem_poolBlocks.mpr inPool
      rw [if_neg none]
      apply twp_bind
      apply seen_writeFirst
      intro written m₂ spares
      have out₂ : block ∉ m₂.retired := spares.retired ▸ out
      have retiring₂ := found.retiring.spares spares out
      cases written with
      | true => exact ⟨retiring₂, fun _ => ⟨mem, out₂⟩, by simp⟩
      | false =>
          rw [if_neg (by simp)]
          apply twp_bind
          apply seen_mark
          apply twp_bind
          rw [twp_modify]
          have more := found.more
          rw [← spares.retired] at more
          have grown : g.poolBlocks.length < (block :: m₂.retired).length + depth := by
            rw [List.length_cons]
            omega
          apply twp_mono _ (ih grown (retiring₂.mark out₂ mem))
          intro done r' m' later
          refine ⟨later.retiring, later.good, fun failed b hb => ?_⟩
          -- without a block of its own the table keeps no block of the pool from being found
          rcases later.exhausted failed b hb with bmt | bbt | rest
          · exact .inl bmt
          · exact absurd bbt hb.pos
          · exact .inr (.inr rest)

end Write

/-! ## All three -/

/-- With a level of recursion for each of the blocks and one more, the function
returns. Each level that fails has marked a block of its own; when the function
succeeds, one of the blocks is left that has not been marked, and when it gives up,
no block of the pool is. -/
def EndsWithin {α : Type} (g : Geometry) (env : Env) (f : ℕ → Drv α) (gaveUp : α → Prop)
    (blocks : List ℕ) (looking : Ram) (r : Ram) (s : Spi) : Prop :=
  ∀ depth, blocks.length < depth → MarksSeen env (f depth) r s →
    ∃ a r' s' marks, exec (marksMachine env) (f depth) r (s, .none) = some (a, r', s', marks) ∧
      marks.retired.Nodup ∧ (∀ b ∈ marks.retired, b ∈ blocks) ∧
      (¬ gaveUp a → marks.retired.length < blocks.length) ∧ (gaveUp a → Exhausted g looking marks)

/-- The three recursions end, whatever the flash answers, if only the marks are
seen: after one attempt for each block of the pool, and one for the block the
table is in. -/
theorem recoveries_end (g : Geometry) (env : Env) (r : Ram) (s : Spi) :
    (∀ offset dat oob, EndsWithin g env (migrateFromBad g offset (some dat) (some oob)) (· = 0)
      g.poolBlocks r r s) ∧
    (∀ dat oob, EndsWithin g env (writeBmtToFlash g dat oob) (· = false)
      (r.currentBmt ++ g.poolBlocks) { r with bmtBlockIndex := 0 } r s) ∧
    ∀ dat oob, EndsWithin g env (writeBbtToFlash g dat oob) (· = false) g.poolBlocks r r s := by
  have start : Retiring g.poolBlocks .none := ⟨List.nodup_nil, by simp [Marks.none],
    by simp [Marks.none]⟩
  refine ⟨fun offset dat oob depth enough seen => ?_, fun dat oob depth enough seen => ?_,
    fun dat oob depth enough seen => ?_⟩
  · obtain ⟨block, r', s', marks, run, found⟩ :=
      seen_exec (seen_migrateFromBad depth (by simpa [Marks.none] using enough) start) seen
    refine ⟨block, r', s', marks, run, found.retiring.nodup, found.retiring.mem, fun ne => ?_,
      found.exhausted⟩
    obtain ⟨pool, out⟩ := found.good ne
    exact found.retiring.length_lt (g.mem_poolBlocks.mpr pool) out
  · obtain ⟨done, r', s', marks, run, written⟩ := seen_exec (seen_writeBmtToFlash depth enough) seen
    refine ⟨done, r', s', marks, run, written.retiring.nodup, written.retiring.mem, fun ne => ?_,
      written.exhausted⟩
    obtain ⟨mem, out⟩ := written.good (by simpa using ne)
    exact written.retiring.length_lt mem out
  · obtain ⟨done, r', s', marks, run, written⟩ :=
      seen_exec (seen_writeBbtToFlash depth (by simpa [Marks.none] using enough) start) seen
    refine ⟨done, r', s', marks, run, written.retiring.nodup, written.retiring.mem, fun ne => ?_,
      written.exhausted⟩
    obtain ⟨mem, out⟩ := written.good (by simpa using ne)
    exact written.retiring.length_lt mem out

/-- The first program fails, after the three blocks that are not marked have been
erased. -/
def firstProgramFails : Env :=
  { faultless with outcome := fun t => if t = 3 then .fail fun _ => .erased else .done }

/-- An erased flash on which block 4 has a factory mark. -/
def markedSpi : Spi :=
  ⟨⟨Function.update (fun _ => .erased) (pageAddr 4) ⟨allOnes, fun _ => 0⟩, 0⟩, .initial⟩

/-- The first page of block 0 is moved, at the second attempt. -/
theorem recoveries_end_second_attempt : ∃ block r' s' marks,
    exec (marksMachine firstProgramFails)
        (migrateFromBad eightBlocks 0 (some allOnes) (some allOnes) 5) Ram.initial
        (markedSpi, .none) = some (block, r', s', marks) ∧
      marks.retired.Nodup ∧ (block ≠ 0 → marks.retired.length < 4) := by
  obtain ⟨block, r', s', marks, run, nodup, -, left, -⟩ :=
    (recoveries_end eightBlocks firstProgramFails Ram.initial markedSpi).1 0 allOnes allOnes 5
      (by decide) (by unfold MarksSeen; decide +kernel)
  exact ⟨block, r', s', marks, run, nodup, left⟩

end En7512.Bmt
