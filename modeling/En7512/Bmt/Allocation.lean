/-
# Only erased blocks are given out

The free blocks of the pool are erased once after each start. From then on
`find_available_block` gives out blocks without looking at what is in them, so a block
that becomes free must be erased or carry a mark.

The flash is `FaultStep`: checks tell the truth and marks take effect, and any program
or erase may fail.
-/

import En7512.Bmt.Atomicity

namespace En7512.Bmt

open En7512.Logic En7512.Nand En7512.Logic.Routine

/-- Once the pool has been erased, the free blocks are blank, but for those of `out`. -/
def CleanBut (g : Geometry) (L : OobLayout) (out : Set ℕ) (r : Ram) (pages : ℕ → Page) : Prop :=
  r.poolErased = true → ∀ b ∉ out, Free g L r pages b → Blank pages b

/-- Once the pool has been erased, the free blocks are blank. -/
abbrev Clean (g : Geometry) (L : OobLayout) (r : Ram) (pages : ℕ → Page) : Prop :=
  CleanBut g L ∅ r pages

section Clean

variable {g : Geometry} {L : OobLayout} {out out' : Set ℕ} {r r' : Ram} {pages pages' : ℕ → Page}
  {w w' : Faults} {block : ℕ}

theorem CleanBut.mono (h : CleanBut g L out r pages) (sub : out ⊆ out') :
    CleanBut g L out' r pages :=
  fun erased b hb => h erased b fun mem => hb (sub mem)

/-- Blocks that stay as they are stay clean. -/
theorem CleanBut.frame (h : CleanBut g L out r pages)
    (same : ∀ b, g.InPool b → b ∉ out → SameBlock pages pages' b) : CleanBut g L out r pages' := by
  intro erased b hb free
  have unchanged := same b free.unused.pool hb
  exact unchanged.blank (h erased b hb (free.of_same unchanged))

/-- Work on a block spoils that block only. -/
theorem CleanBut.attempt {ok : Bool} (h : CleanBut g L out r w.pages)
    (attempt : Attempt block w ok w') : CleanBut g L (insert block out) r w'.pages := by
  apply (h.mono (Set.subset_insert block out)).frame
  intro b _ hb
  apply attempt.others
  rintro rfl
  exact hb (Set.mem_insert b out)

/-- A block that gets a mark is free no more. -/
theorem CleanBut.mark (h : CleanBut g L (insert block out) r pages) {page : Page} {kind : BadKind}
    (marked : page.Marked L kind) :
    CleanBut g L out r (Function.update pages (pageAddr block) page) := by
  intro erased b hb free
  by_cases eq : b = block
  · subst eq
    exact absurd (blockBad_update marked) free.good
  · have same : SameBlock pages (Function.update pages (pageAddr block) page) b := by
      apply sameBlock_update
      rw [pageAddr_div_self]
      exact Ne.symm eq
    apply same.blank
    apply h erased b _ (free.of_same same)
    exact fun mem => mem.elim eq hb

/-- The tables may take blocks, and may give up those that are left out. -/
theorem CleanBut.tables (h : CleanBut g L out r pages)
    (erased : r'.poolErased = true → r.poolErased = true)
    (unused : ∀ b ∉ out', Unused g r' b → Unused g r b ∧ b ∉ out) : CleanBut g L out' r' pages := by
  intro now b hb free
  obtain ⟨before, spared⟩ := unused b hb free.unused
  exact h (erased now) b spared ⟨before, free.good⟩

theorem CleanBut.congr (h : CleanBut g L out r pages)
    (erased : r'.poolErased = true → r.poolErased = true)
    (same : ∀ b, Unused g r' b ↔ Unused g r b) : CleanBut g L out r' pages :=
  h.tables erased fun b hb unused => ⟨(same b).mp unused, hb⟩

theorem SameTables.clean (same : SameTables r r') (h : CleanBut g L out r pages)
    (erased : r'.poolErased = true → r.poolErased = true) : CleanBut g L out r' pages :=
  h.congr erased same.unused_iff

end Clean

/-! ## The search -/

/-- A search makes no block free, and leaves the free ones alone or blank. -/
def Wiped (g : Geometry) (L : OobLayout) (r : Ram) (w w' : Faults) : Prop :=
  ∀ b, Free g L r w'.pages b → Free g L r w.pages b ∧
    (SameBlock w.pages w'.pages b ∨ Blank w'.pages b)

section Find

variable {g : Geometry} {L : OobLayout} {r : Ram} {w w' w'' : Faults} {block : ℕ}

theorem Wiped.refl (w : Faults) : Wiped g L r w w := fun _ free => ⟨free, .inl (.refl _ _)⟩

theorem Wiped.trans (h : Wiped g L r w w') (h' : Wiped g L r w' w'') : Wiped g L r w w'' := by
  intro b free
  obtain ⟨free', now⟩ := h' b free
  obtain ⟨free₀, before⟩ := h b free'
  refine ⟨free₀, ?_⟩
  rcases now with same | blank
  · exact before.imp (fun same₀ => same₀.trans same) fun blank => same.blank blank
  · exact .inr blank

/-- A block is blank after the search, if it was or has been wiped. -/
theorem Wiped.blank (h : Wiped g L r w w') {b : ℕ} (free : Free g L r w'.pages b)
    (before : Free g L r w.pages b → Blank w.pages b) : Blank w'.pages b := by
  obtain ⟨free₀, same | blank⟩ := h b free
  · exact same.blank (before free₀)
  · exact blank

/-- Work on a free block, after which the block is blank or marked. -/
theorem wiped_of_attempt {ok : Bool} (free : Free g L r w.pages block)
    (attempt : Attempt block w ok w') (done : Free g L r w'.pages block → Blank w'.pages block) :
    Wiped g L r w w' := by
  intro b free'
  by_cases eq : b = block
  · subst eq
    exact ⟨free, .inr (done free')⟩
  · have same := attempt.others b eq
    exact ⟨free'.of_same same, .inl same⟩

theorem clean_erasePool (blocks : List ℕ) (pool : ∀ b ∈ blocks, g.InPool b) :
    wp (FaultStep L) (erasePool blocks) (fun _ _ w' => Wiped g L r w w' ∧
      ∀ b ∈ blocks, Free g L r w'.pages b → Blank w'.pages b) r w := by
  induction blocks generalizing w with
  | nil => exact ⟨.refl w, by simp⟩
  | cons block blocks ih =>
      -- the rest of the list, once this block is blank or not free
      have rest : ∀ w₁, Wiped g L r w w₁ → (Free g L r w₁.pages block → Blank w₁.pages block) →
          wp (FaultStep L) (erasePool blocks) (fun _ _ w' => Wiped g L r w w' ∧
            ∀ b ∈ block :: blocks, Free g L r w'.pages b → Blank w'.pages b) r w₁ := by
        intro w₁ wiped done
        apply wp_mono _ (ih fun b hb => pool b (List.mem_cons_of_mem block hb))
        rintro _ _ w' ⟨later, blank⟩
        refine ⟨wiped.trans later, fun b hb free => ?_⟩
        rcases List.mem_cons.mp hb with rfl | hb
        · exact later.blank free done
        · exact blank b hb free
      rw [erasePool, wp_bind]
      apply fault_blockAvailable (pool block List.mem_cons_self)
      intro available hfree
      cases available with
      | false => exact rest w (.refl w) fun free => by simpa using hfree.mpr free
      | true =>
          have free := hfree.mp rfl
          rw [if_pos rfl, wp_bind]
          apply fault_eraseBlock
          intro ok w₁ attempt erased
          cases ok with
          | true =>
              have blank : Blank w₁.pages block := by
                rw [erased rfl]
                exact fun p hp => if_pos hp
              rw [if_pos rfl]
              exact rest w₁ (wiped_of_attempt free attempt fun _ => blank) fun _ => blank
          | false =>
              rw [if_neg (by simp), wp_bind]
              apply fault_markBlock
              intro page marked
              have bad : BlockBad L (Function.update w₁.pages (pageAddr block) page) block :=
                blockBad_update marked
              apply rest
              · intro b free'
                have eq : b ≠ block := by
                  rintro rfl
                  exact free'.good bad
                have same :
                    SameBlock w.pages (Function.update w₁.pages (pageAddr block) page) b := by
                  apply (attempt.others b eq).trans
                  apply sameBlock_update
                  rw [pageAddr_div_self]
                  exact eq.symm
                exact ⟨free'.of_same same, .inl same⟩
              · exact fun free => absurd bad free.good

/-- What a search gives out: a free block. Afterwards all free blocks are blank. -/
structure FoundClean (g : Geometry) (L : OobLayout) (r : Ram) (block : ℕ) (r' : Ram)
    (pages' : ℕ → Page) : Prop where
  ram : r' = { r with poolErased := true }
  blank : ∀ b, Free g L r' pages' b → Blank pages' b
  free : block ≠ 0 → Free g L r' pages' block

/-- `find_available_block`. -/
theorem clean_findAvailableBlock (startFromEnd : Bool) (clean : Clean g L r w.pages) :
    wp (FaultStep L) (findAvailableBlock g startFromEnd)
      (fun block r' w' => FoundClean g L r block r' w'.pages) r w := by
  have once : wp (FaultStep L) (erasePoolOnce g) (fun _ r' w' =>
      r' = { r with poolErased := true } ∧ ∀ b, Free g L r w'.pages b → Blank w'.pages b) r w := by
    rw [erasePoolOnce, wp_bind, wp_get]
    cases erased : r.poolErased with
    | true =>
        rw [if_pos rfl, ← erased]
        exact ⟨rfl, fun b free => clean erased b (Set.notMem_empty b) free⟩
    | false =>
        have all := clean_erasePool (L := L) (r := r) (w := w) g.poolBlocks
          fun b hb => g.mem_poolBlocks.mp hb
        rw [if_neg (by simp), wp_bind]
        apply wp_mono _ (wp_and all (wp_of_ensures (erasePool_ensures g.poolBlocks)))
        rintro _ r₁ w₁ ⟨⟨-, blank⟩, rfl⟩
        exact ⟨rfl, fun b free => blank b (g.mem_poolBlocks.mpr free.unused.pool) free⟩
  rw [findAvailableBlock, wp_bind]
  apply wp_mono _ once
  rintro _ r₁ w₁ ⟨rfl, blank⟩
  have mem : ∀ b ∈ (if startFromEnd then g.poolBlocks.reverse else g.poolBlocks), g.InPool b := by
    intro b hb
    cases startFromEnd <;> simpa using hb
  have same : ∀ b, Unused g { r with poolErased := true } b ↔ Unused g r b := by
    intro b
    apply unused_congr <;> rfl
  apply wp_mono _ (wp_and (fault_scanPool _ mem) (wp_of_ensures (scanPool_ensures _)))
  rintro block r' w' ⟨⟨rfl, free, -⟩, rfl, -⟩
  exact ⟨rfl, fun b now => blank b ((free_congr same b).mp now), free⟩

theorem FoundClean.clean {r' : Ram} {pages' : ℕ → Page} (h : FoundClean g L r block r' pages') :
    Clean g L r' pages' := fun _ b _ free => h.blank b free

/-- Beginning to use the block. -/
theorem FoundClean.attempt {r' : Ram} {ok : Bool} (h : FoundClean g L r block r' w.pages)
    (attempt : Attempt block w ok w') : CleanBut g L {block} r' w'.pages := by
  rw [← insert_empty_eq]
  exact h.clean.attempt attempt

end Find

/-! ## Replacing a block -/

section Replace

variable {g : Geometry} {L : OobLayout} {r r' : Ram} {w w' : Faults} {block : ℕ}

/-- The later mark on the block that was being written to. -/
theorem clean_markBlock {kind : BadKind} {post : Unit → Ram → Faults → Prop}
    (clean : CleanBut g L {block} r w.pages)
    (h : ∀ w', Clean g L r w'.pages → post () r w') :
    wp (FaultStep L) (markBlockBadBmt (blockOffset block) kind) post r w := by
  apply fault_markBlock
  intro page marked
  rw [← insert_empty_eq] at clean
  exact h _ (clean.mark marked)

/-- A failed attempt to move the block. -/
theorem clean_migrateTo {offset : ℕ} (dat oob : Option Bytes)
    (found : FoundClean g L r block r' w.pages) :
    wp (FaultStep L) (migrateTo g block offset dat oob)
      (fun _ r₂ w' => SameTables r' r₂ ∧ CleanBut g L {block} r₂ w'.pages) r' w := by
  apply wp_mono _ (wp_and (fault_migrateTo dat oob)
    (wp_of_ensures (migrateTo_ensures g block offset dat oob)))
  rintro written r₂ w₂ ⟨attempt, same⟩
  refine ⟨same, same.clean (found.attempt attempt) fun _ => ?_⟩
  rw [found.ram]

/-- The block that stands in may carry data by now. -/
theorem clean_migrateFromBad (depth : ℕ) {offset : ℕ} {dat oob : Option Bytes}
    (clean : Clean g L r w.pages) :
    wp (FaultStep L) (migrateFromBad g offset dat oob depth)
      (fun block r' w' => CleanBut g L {block} r' w'.pages) r w := by
  induction depth generalizing r w with
  | zero => exact trivial
  | succ depth ih =>
      rw [migrateFromBad, wp_bind]
      apply wp_mono _ (clean_findAvailableBlock false clean)
      intro toIndex r₁ w₁ found
      split
      · exact found.clean.mono (Set.empty_subset _)
      rw [wp_bind]
      apply wp_mono _ (clean_migrateTo dat oob found)
      rintro written r₂ w₂ ⟨-, clean₂⟩
      cases written with
      | true => exact clean₂
      | false =>
          rw [if_neg (by simp), wp_bind]
          apply clean_markBlock clean₂
          exact fun w₃ clean₃ => ih clean₃

theorem clean_replacementBlock (depth : ℕ) {offset : ℕ} {reason : UpdateReason}
    {dat oob : Option Bytes} (clean : Clean g L r w.pages) :
    wp (FaultStep L) (replacementBlock g depth offset reason dat oob) (fun block r' w' =>
      SameTables r r' ∧ (block ≠ 0 → Unused g r block) ∧ CleanBut g L {block} r' w'.pages) r w := by
  have replaced : wp (FaultStep L) (replacementBlock g depth offset reason dat oob)
      (fun block r' w' => CleanBut g L {block} r' w'.pages) r w := by
    rw [replacementBlock]
    split
    · exact clean_migrateFromBad depth clean
    · apply wp_mono _ (clean_findAvailableBlock false clean)
      exact fun block r' w' found => found.clean.mono (Set.empty_subset _)
  apply wp_mono _ (wp_and replaced
    (wp_of_ensures (replacementBlock_ensures g depth offset reason dat oob)))
  exact fun block r' w' h => ⟨h.2.1, h.2.2, h.1⟩

end Replace

/-! ## Writing the tables -/

section Write

variable {g : Geometry} {L : OobLayout} {r : Ram} {w : Faults}

/-- Nothing that has failed is forgotten. -/
theorem fault_broken {α : Type} (m : Drv α) {b : ℕ} (broken : b ∈ w.broken) :
    wp (FaultStep L) m (fun _ _ w' => b ∈ w'.broken) r w := by
  have step : ∀ (op : NandOp) (w : Faults) (answer : NandResp op) (w' : Faults),
      FaultStep L op w answer w' → b ∈ w.broken → b ∈ w'.broken := by
    intro op w answer w' step mem
    cases op with
    | readPage page => exact step ▸ mem
    | checkBlockBad offset kind => exact step.1 ▸ mem
    | markBadblock offset kind =>
        obtain ⟨page, -, rfl⟩ := step
        exact mem
    | eraseBlock block =>
        obtain ⟨left, -, rfl⟩ := step
        exact mem_noteBroken (.eraseBlock block) answer mem
    | writePage page dataOffset dat dataLen oob oobLen =>
        obtain ⟨new, rfl⟩ := step
        exact mem_noteBroken (.writePage page dataOffset dat dataLen oob oobLen) answer mem
    | clearCache => exact step ▸ mem
  exact wp_kept step m broken

/-- `write_bmt_to_flash` begins: it has found a block, or erased its own. -/
inductive Begun (g : Geometry) (L : OobLayout) (r : Ram) (w : Faults) :
    BmtBlock → Ram → Faults → Prop
  | unavailable {r' : Ram} {w' : Faults} (index : r'.bmtBlockIndex = 0)
      (clean : Clean g L r' w'.pages) : Begun g L r w .unavailable r' w'
  | ready {r' : Ram} {w' : Faults} (ne : r'.bmtBlockIndex ≠ 0) (clean : Clean g L r' w'.pages) :
      Begun g L r w .ready r' w'
  | eraseFailed {w' : Faults} (ne : r.bmtBlockIndex ≠ 0) (broken : r.bmtBlockIndex ∈ w'.broken)
      (clean : Clean g L r w'.pages) : Begun g L r w .eraseFailed r w'

/-- The block of the table is not free, whatever is in it. -/
theorem CleanBut.bmtBlock {pages : ℕ → Page}
    (h : CleanBut g L {r.bmtBlockIndex} r pages) : Clean g L r pages :=
  h.tables id fun _ _ unused => ⟨unused, unused.ne_bmt⟩

theorem CleanBut.bbtBlock {pages : ℕ → Page}
    (h : CleanBut g L {r.bbtBlockIndex} r pages) : Clean g L r pages :=
  h.tables id fun _ _ unused => ⟨unused, unused.ne_bbt⟩

theorem clean_prepareBmtBlock (clean : Clean g L r w.pages) :
    wp (FaultStep L) (prepareBmtBlock g) (Begun g L r w) r w := by
  rw [prepareBmtBlock, wp_bind, wp_get]
  by_cases zero : r.bmtBlockIndex = 0
  · rw [if_pos zero, wp_bind]
    apply wp_mono _ (clean_findAvailableBlock true clean)
    intro block r₁ w₁ found
    have taken : Clean g L { r₁ with bmtBlockIndex := block } w₁.pages := by
      apply found.clean.tables
      · exact fun erased => erased
      · intro b hb unused
        refine ⟨⟨unused.pool, ?_, unused.ne_bbt, unused.unmapped⟩, hb⟩
        rw [found.ram]
        exact fun eq => unused.pool.pos (eq.trans zero)
    rw [wp_bind, wp_modify]
    split
    · next none => exact .unavailable none taken
    · next some => exact .ready some taken
  · rw [if_neg zero, wp_bind]
    apply fault_eraseBlock
    intro ok w₁ attempt _
    have clean₁ : Clean g L r w₁.pages := by
      apply CleanBut.bmtBlock
      rw [← insert_empty_eq]
      exact clean.attempt attempt
    cases ok with
    | true => exact .ready zero clean₁
    | false => exact .eraseFailed zero ((attempt.broken _).mpr (.inr ⟨rfl, rfl⟩)) clean₁

theorem clean_retireBmtBlock (clean : Clean g L r w.pages) :
    wp (FaultStep L) retireBmtBlock (fun _ r' w' => r' = r.withoutBmt ∧
      Clean g L r' w'.pages) r w := by
  apply fault_retireBmtBlock
  intro page marked
  refine ⟨rfl, fun erased b hb free => ?_⟩
  have other : b ≠ r.bmtBlockIndex := by
    rintro rfl
    exact free.good (blockBad_update marked)
  have same : SameBlock w.pages (Function.update w.pages (pageAddr r.bmtBlockIndex) page) b := by
    apply sameBlock_update
    rw [pageAddr_div_self]
    exact other.symm
  have before := free.of_same same
  apply same.blank
  apply clean erased b hb
  exact ⟨unused_withoutBmt.mpr ⟨before.unused, other⟩, before.good⟩

theorem clean_writeImage {dat oob : Bytes} (clean : Clean g L r w.pages) :
    wp (FaultStep L) (nandWritePageBmt (pageAddr r.bmtBlockIndex) dat oob) (fun ok r' w' =>
      r' = r ∧ Clean g L r w'.pages ∧ (ok = false → r.bmtBlockIndex ∈ w'.broken)) r w := by
  apply fault_writeFirst
  intro ok w₁ attempt
  refine ⟨rfl, ?_, fun failed => (attempt.broken _).mpr (.inr ⟨failed, rfl⟩)⟩
  apply CleanBut.bmtBlock
  rw [← insert_empty_eq]
  exact clean.attempt attempt

theorem clean_writeBmtToFlash (depth : ℕ) {dat oob : Bytes} (clean : Clean g L r w.pages) :
    wp (FaultStep L) (writeBmtToFlash g dat oob depth)
      (fun _ r' w' => Clean g L r' w'.pages) r w := by
  induction depth generalizing r w with
  | zero => exact trivial
  | succ depth ih =>
      have again : ∀ {r₁ : Ram} {w₁ : Faults}, Clean g L r₁ w₁.pages →
          wp (FaultStep L) (retireBmtBlock >>= fun _ => writeBmtToFlash g dat oob depth)
            (fun _ r' w' => Clean g L r' w'.pages) r₁ w₁ := by
        intro r₁ w₁ clean₁
        rw [wp_bind]
        apply wp_mono _ (clean_retireBmtBlock clean₁)
        exact fun _ _ _ h => ih h.2
      rw [writeBmtToFlash, wp_bind]
      apply wp_mono _ (clean_prepareBmtBlock clean)
      intro state r₁ w₁ begun
      cases begun with
      | unavailable index clean₁ => exact clean₁
      | eraseFailed ne broken clean₁ => exact again clean₁
      | ready ne clean₁ =>
          show wp _ (_ >>= _) _ _ _
          rw [wp_bind, wp_get, wp_bind]
          apply wp_mono _ (clean_writeImage clean₁)
          rintro written r₂ w₂ ⟨rfl, clean₂, -⟩
          cases written with
          | true => exact clean₂
          | false => exact again clean₂

/-- If nothing fails in the block of the table, no other block is looked for. -/
theorem clean_writeBmt_inPlace (depth : ℕ) {dat oob : Bytes} {out : Set ℕ}
    (ne : r.bmtBlockIndex ≠ 0) (clean : CleanBut g L out r w.pages) :
    wp (FaultStep L) (writeBmtToFlash g dat oob depth) (fun done r' w' =>
      r.bmtBlockIndex ∉ w'.broken → done = true ∧ r' = r ∧ CleanBut g L out r w'.pages) r w := by
  cases depth with
  | zero => exact trivial
  | succ depth =>
      have lost : ∀ {w₁ : Faults}, Attempt r.bmtBlockIndex w false w₁ →
          wp (FaultStep L) (retireBmtBlock >>= fun _ => writeBmtToFlash g dat oob depth)
            (fun done r' w' => r.bmtBlockIndex ∉ w'.broken →
              done = true ∧ r' = r ∧ CleanBut g L out r w'.pages) r w₁ := by
        intro w₁ attempt
        apply wp_mono _ (fault_broken _ ((attempt.broken _).mpr (.inr ⟨rfl, rfl⟩)))
        exact fun _ _ _ broken whole => absurd broken whole
      rw [writeBmtToFlash, wp_bind, prepareBmtBlock, wp_bind, wp_get, if_neg ne, wp_bind]
      apply fault_eraseBlock
      intro ok w₁ attempt _
      cases ok with
      | false => exact lost attempt
      | true =>
          rw [if_pos rfl, wp_pure]
          show wp _ (_ >>= _) _ _ _
          rw [wp_bind, wp_get, wp_bind]
          apply fault_writeFirst
          intro written w₂ attempt'
          cases written with
          | false => exact lost (attempt.trans attempt')
          | true =>
              refine fun _ => ⟨rfl, rfl, ?_⟩
              apply (clean.attempt (attempt.trans attempt')).tables
              · exact fun erased => erased
              · intro b hb unused
                exact ⟨unused, fun mem => mem.elim unused.ne_bmt hb⟩

/-- A block has been taken for the bad-block table. -/
theorem FoundClean.bbtBlock {block : ℕ} {r' : Ram} {pages' : ℕ → Page}
    (found : FoundClean g L r block r' pages')
    (zero : r.bbtBlockIndex = 0) {out : Set ℕ} {pages : ℕ → Page}
    (clean : CleanBut g L out r' pages) :
    CleanBut g L out { r' with bbtBlockIndex := block } pages := by
  apply clean.tables
  · exact fun erased => erased
  · intro b hb unused
    refine ⟨⟨unused.pool, unused.ne_bmt, ?_, unused.unmapped⟩, hb⟩
    rw [found.ram]
    exact fun eq => unused.pool.pos (eq.trans zero)

/-- Writing the bad-block table to a block that has been found. -/
theorem clean_writeTable {block : ℕ} {r' : Ram} {dat oob : Bytes}
    (found : FoundClean g L r block r' w.pages) (zero : r.bbtBlockIndex = 0) :
    wp (FaultStep L) (nandWritePageBmt (pageAddr block) dat oob) (fun _ r₂ w' =>
      r₂ = { r' with bbtBlockIndex := block } ∧ CleanBut g L {block} r' w'.pages ∧
        Clean g L { r' with bbtBlockIndex := block } w'.pages)
      { r' with bbtBlockIndex := block } w := by
  apply fault_writeFirst
  intro ok w₁ attempt
  have spoiled := found.attempt attempt
  exact ⟨rfl, spoiled, CleanBut.bbtBlock (found.bbtBlock zero spoiled)⟩

/-- The block has failed, and there is none for the bad-block table. -/
theorem clean_retireTable {block : ℕ} {r' : Ram}
    (ram : r' = { r with poolErased := true }) (zero : r.bbtBlockIndex = 0)
    (clean : CleanBut g L {block} r' w.pages) :
    wp (FaultStep L) (markBlockBadBmt (blockOffset block) .generateLater) (fun _ r₂ w' =>
      r₂ = { r' with bbtBlockIndex := block } ∧ Clean g L { r₂ with bbtBlockIndex := 0 } w'.pages)
      { r' with bbtBlockIndex := block } w := by
  apply fault_markBlock
  intro page marked
  refine ⟨rfl, ?_⟩
  rw [← insert_empty_eq] at clean
  apply (clean.mark marked).congr
  · exact fun erased => erased
  · intro b
    apply unused_congr
    · rfl
    · rfl
    · rw [ram]
      exact zero.symm

theorem clean_writeBbtToFlash (depth : ℕ) {dat oob : Bytes} (zero : r.bbtBlockIndex = 0)
    (clean : Clean g L r w.pages) :
    wp (FaultStep L) (writeBbtToFlash g dat oob depth)
      (fun _ r' w' => Clean g L r' w'.pages) r w := by
  induction depth generalizing r w with
  | zero => exact trivial
  | succ depth ih =>
      rw [writeBbtToFlash, wp_bind]
      apply wp_mono _ (clean_findAvailableBlock false clean)
      intro block r₁ w₁ found
      rw [wp_bind, wp_modify]
      split
      · exact found.bbtBlock zero found.clean
      rw [wp_bind]
      apply wp_mono _ (clean_writeTable found zero)
      rintro written r₂ w₂ ⟨rfl, spoiled, clean₂⟩
      cases written with
      | true => exact clean₂
      | false =>
          rw [if_neg (by simp), wp_bind]
          apply wp_mono _ (clean_retireTable found.ram zero spoiled)
          rintro _ r₃ w₃ ⟨rfl, clean₃⟩
          rw [wp_bind, wp_modify]
          exact ih rfl clean₃

/-- The buffers hold no table. -/
theorem CleanBut.buffers {out : Set ℕ} {pages : ℕ → Page} (h : CleanBut g L out r pages)
    (dat oob : Bytes) : CleanBut g L out { r with datBuf := dat, oobBuf := oob } pages := by
  apply h.congr
  · exact fun erased => erased
  · intro b
    apply unused_congr <;> rfl

theorem clean_writeBmtIfNeeded (depth : ℕ) (clean : Clean g L r w.pages) :
    wp (FaultStep L) (writeBmtIfNeeded g depth) (fun _ r' w' => BmtMoved g r r' ∧
      Clean g L r' w'.pages) r w := by
  rw [writeBmtIfNeeded, wp_bind, wp_get]
  split
  · rw [wp_bind, fillBmtBuffers, wp_modify, wp_bind, wp_get]
    apply wp_mono _ (wp_and (clean_writeBmtToFlash depth (clean.buffers _ _))
      (wp_of_ensures (writeBmtToFlash_ensures g depth _ _)))
    rintro _ r' w' ⟨clean', moved⟩
    exact ⟨⟨moved.bmt, moved.initBbt, moved.bbtBlockIndex, moved.pBbt, moved.needBmt, moved.needBbt,
      moved.moved⟩, clean'⟩
  · exact ⟨.refl r, clean⟩

theorem clean_writeBbtOrBmtToFlash (depth : ℕ)
    (unwritten : r.needWriteBbtToNand = true → r.bbtBlockIndex = 0) (clean : Clean g L r w.pages) :
    wp (FaultStep L) (writeBbtOrBmtToFlash g depth) (fun _ r' w' => Clean g L r' w'.pages) r w := by
  rw [writeBbtOrBmtToFlash, wp_bind]
  apply wp_mono _ (clean_writeBmtIfNeeded depth clean)
  rintro written r₁ w₁ ⟨moved, clean₁⟩
  cases written with
  | false => exact clean₁
  | true =>
      rw [if_pos rfl, writeBbtIfNeeded, wp_bind, wp_get]
      split
      · next need =>
        rw [wp_bind, fillBbtBuffers, wp_modify, wp_bind, wp_get]
        apply clean_writeBbtToFlash depth _ (clean₁.buffers _ _)
        exact moved.bbtBlockIndex.trans (unwritten (moved.needBbt.symm.trans need))
      · exact clean₁

end Write

/-! ## `update_bmt` -/

/-- The table takes the replacement: the counter has room for the entry of a system block,
and the entry of a pool block is one that `update_bmt` searches. -/
inductive Replaceable (g : Geometry) (bmt : BmtStruct) (block : ℕ) : Prop
  | system (inside : block < g.systemBlockCount) (room : bmt.mappedCount < 255)
  | pool (inside : g.InPool block) (listed : ∃ i < bmt.mappedCount, i < g.bmtBlockCount ∧
      (bmt.table i).mappedIndex = block)

/-- When the update of a block leaves the free blocks clean. A pool block must fail on its
first page, where the mark is looked for, and the table must have a block by then. -/
structure KeepsClean (g : Geometry) (r : Ram) (offset : ℕ) : Prop where
  replaceable : Replaceable g r.bmt (offset / eraseSize)
  first : g.InPool (offset / eraseSize) → offset / pageSize % pagePerBlock = 0
  placed : g.InPool (offset / eraseSize) → r.bmtBlockIndex ≠ 0

/-- Until a pool block is marked no other block may be looked for, so the block of the
table must take the image. -/
def sparedBlocks (g : Geometry) (r : Ram) (offset : ℕ) : Set ℕ :=
  {b | g.InPool (offset / eraseSize) ∧ b = r.bmtBlockIndex}

section Update

variable {g : Geometry} {L : OobLayout} {r r₁ : Ram} {w : Faults} {badIndex mapIndex : ℕ}

/-- The search of `update_bmt` ends at the first entry. -/
theorem indexOfMapped_le {bmt : BmtStruct} {i : ℕ} (inside : i < g.bmtBlockCount)
    (mapped : (bmt.table i).mappedIndex = badIndex) :
    bmt.indexOfMapped g badIndex ≤ i ∧
      (bmt.table (bmt.indexOfMapped g badIndex)).mappedIndex = badIndex := by
  refine ⟨?_, (indexOfMapped_spec bmt badIndex ⟨i, inside, mapped⟩).2⟩
  rw [BmtStruct.indexOfMapped]
  cases found : (List.range g.bmtBlockCount).find? fun i =>
      (bmt.table i).mappedIndex = badIndex with
  | none =>
      rw [List.find?_eq_none] at found
      exact absurd mapped (by simpa using found i (List.mem_range.mpr inside))
  | some j =>
      by_contra later
      have earlier := (List.find?_range_eq_some.mp found).2.2 i (not_le.mp later)
      simp [mapped] at earlier

/-- The block that becomes unused is the one that has been replaced. -/
theorem unused_of_remapped (replaceable : Replaceable g r.bmt badIndex) {b : ℕ}
    (unused : Unused g (r.remapped g badIndex mapIndex) b) :
    b ≠ mapIndex ∧ (Unused g r b ∨ b = badIndex ∧ g.InPool badIndex) := by
  have unmapped := (isBlockMapped_eq_false_iff _ _).mp unused.unmapped
  have before : (∀ i < r.bmt.mappedCount, (r.bmt.table i).mappedIndex ≠ b) → Unused g r b :=
    fun none => ⟨unused.pool, unused.ne_bmt, unused.ne_bbt,
      (isBlockMapped_eq_false_iff _ _).mpr none⟩
  simp only [Ram.remapped] at unmapped
  cases replaceable with
  | system inside room =>
      obtain ⟨count, entry⟩ := remap_system r.bmt mapIndex inside fun _ => room
      rw [count] at unmapped
      constructor
      · have last := unmapped r.bmt.mappedCount (Nat.lt_succ_self _)
        rw [entry, if_pos rfl] at last
        exact last.symm
      · refine .inl (before fun i hi => ?_)
        have old := unmapped i (hi.trans (Nat.lt_succ_self _))
        rwa [entry, if_neg hi.ne] at old
  | pool inside listed =>
      obtain ⟨i, hi, searched, mapped⟩ := listed
      obtain ⟨first, found⟩ := indexOfMapped_le searched mapped
      obtain ⟨count, entry⟩ := remap_pool r.bmt mapIndex inside
      rw [count] at unmapped
      constructor
      · have changed := unmapped _ (first.trans_lt hi)
        rw [entry, if_pos rfl] at changed
        exact changed.symm
      · by_cases replaced : b = badIndex
        · exact .inr ⟨replaced, inside⟩
        · refine .inl (before fun j hj => ?_)
          by_cases here : j = r.bmt.indexOfMapped g badIndex
          · rw [here, found]
            exact Ne.symm replaced
          · have old := unmapped j hj
            rwa [entry, if_neg here] at old

/-- The replacement stands in the table, and what was replaced does no more. -/
theorem clean_remapped (same : SameTables r r₁) (replaceable : Replaceable g r.bmt badIndex)
    (clean : CleanBut g L {mapIndex} r₁ w.pages) :
    CleanBut g L {b | b = badIndex ∧ g.InPool badIndex}
      { r₁ with bmt := r₁.bmt.remap g badIndex mapIndex } w.pages := by
  rw [← same.bmt] at replaceable
  apply clean.tables
  · exact fun erased => erased
  · intro b hb unused
    obtain ⟨other, before⟩ := unused_of_remapped replaceable unused
    exact ⟨before.resolve_right hb, other⟩

theorem clean_updateBmt (depth : ℕ) {offset : ℕ} {reason : UpdateReason} {dat oob : Option Bytes}
    (keeps : KeepsClean g r offset) (clean : Clean g L r w.pages) :
    wp (FaultStep L) (updateBmt g depth offset reason dat oob) (fun _ r' w' =>
      (∀ b ∈ sparedBlocks g r offset, b ∉ w'.broken) → Clean g L r' w'.pages) r w := by
  rw [updateBmt, wp_bind]
  apply wp_mono _ (clean_replacementBlock depth clean)
  rintro mapIndex r₁ w₁ ⟨same, -, clean₁⟩
  by_cases none : mapIndex = 0
  · rw [if_pos none]
    intro _
    apply clean₁.tables
    · exact fun erased => erased
    · exact fun b _ unused => ⟨unused, fun eq => unused.pool.pos (eq.trans none)⟩
  rw [if_neg none, wp_bind, wp_modify, wp_bind, fillBmtBuffers, wp_modify, wp_bind, wp_get, wp_bind]
  have clean₂ := (clean_remapped same keeps.replaceable clean₁).buffers
    (fillNandBmtBuffer g (r₁.bmt.remap g (offset / eraseSize) mapIndex) allOnes) allOnes
  by_cases inside : g.InPool (offset / eraseSize)
  · have index : r₁.bmtBlockIndex = r.bmtBlockIndex := same.bmtBlockIndex
    have spare : r₁.bmtBlockIndex ∈ sparedBlocks g r offset := ⟨inside, index⟩
    apply wp_mono _ (clean_writeBmt_inPlace depth _ clean₂)
    · intro written r₂ w₂ placed
      cases written with
      | false => exact fun whole => Bool.noConfusion (placed (whole _ spare)).1
      | true =>
          rw [if_pos rfl, wp_bind, markBlockBadBmt, wp_bind, wp_perform]
          rintro answer w₃ ⟨page, marked, rfl⟩ whole
          obtain ⟨-, rfl, clean₃⟩ := placed (whole _ spare)
          have only : {b | b = offset / eraseSize ∧ g.InPool (offset / eraseSize)} =
              insert (offset / eraseSize) ∅ := by
            ext b
            simp [inside]
          rw [only] at clean₃
          rw [page_eq_pageAddr (keeps.first inside)]
          exact clean₃.mark marked
    · exact index ▸ keeps.placed inside
  · have nothing : {b | b = offset / eraseSize ∧ g.InPool (offset / eraseSize)} = ∅ := by
      ext b
      simp [inside]
    rw [nothing] at clean₂
    apply wp_mono _ (clean_writeBmtToFlash depth clean₂)
    intro written r₂ w₂ clean₃
    cases written with
    | false => exact fun _ => clean₃
    | true =>
        rw [if_pos rfl, wp_bind, markBlockBadBmt, wp_bind, wp_perform]
        rintro answer w₃ ⟨page, marked, rfl⟩ _
        apply clean₃.frame
        intro b pool _
        apply sameBlock_mark
        rintro rfl
        exact inside pool

end Update

/-! ## Starting -/

section Start

variable {g : Geometry} {r : Ram}

/-- Reading a page sets no flag. -/
theorem readPage_poolErased (page : ℕ) :
    Ensures (nandReadPageBmt page) r fun _ r' => r'.poolErased = r.poolErased := by
  rw [nandReadPageBmt, ensures_bind, ensures_perform]
  intro answer
  cases answer <;> rfl

theorem loadBmtFrom_poolErased (blocks : List ℕ) :
    Ensures (loadBmtFrom g blocks) r fun _ r' => r'.poolErased = r.poolErased := by
  induction blocks generalizing r with
  | nil => exact rfl
  | cons block blocks ih =>
      rw [loadBmtFrom, ensures_bind]
      apply ensures_mono _ (blockMarkedBad_ensures block)
      rintro marked _ rfl
      split
      · exact ih
      rw [ensures_bind]
      apply ensures_mono _ (readPage_poolErased _)
      intro read r₁ same
      rw [ensures_bind, ensures_get]
      split
      · rw [ensures_bind, ensures_modify, ensures_bind, ensures_get, ensures_bind]
        apply ensures_mono _ (markUnmarked_ensures _)
        rintro _ _ rfl
        exact same
      · exact ensures_mono (fun _ _ later => later.trans same) ih

theorem loadBbtFrom_poolErased (blocks : List ℕ) :
    Ensures (loadBbtFrom g blocks) r fun _ r' => r'.poolErased = r.poolErased := by
  induction blocks generalizing r with
  | nil => exact rfl
  | cons block blocks ih =>
      rw [loadBbtFrom, ensures_bind]
      apply ensures_mono _ (blockMarkedBad_ensures block)
      rintro marked _ rfl
      split
      · exact ih
      rw [ensures_bind]
      apply ensures_mono _ (readPage_poolErased _)
      intro read r₁ same
      rw [ensures_bind, ensures_get]
      split
      · exact same
      · exact ensures_mono (fun _ _ later => later.trans same) ih

theorem reconstructFrom_poolErased (blocks : List ℕ) :
    Ensures (reconstructFrom g blocks) r fun _ r' => r'.poolErased = r.poolErased := by
  induction blocks generalizing r with
  | nil => exact rfl
  | cons block blocks ih =>
      rw [reconstructFrom, ensures_bind]
      apply ensures_mono _ (blockMarkedBad_ensures block)
      rintro marked _ rfl
      split
      · exact ih
      rw [ensures_bind]
      apply ensures_mono _ (readPage_poolErased _)
      intro read r₁ same
      rw [ensures_bind, ensures_get]
      show Ensures (if _ then _ else _) _ _
      split
      · exact ensures_mono (fun _ _ later => later.trans same) ih
      · rw [ensures_bind]
        apply ensures_mono _ (markUnmarked_ensures _)
        rintro _ _ rfl
        rw [ensures_bind, ensures_modify]
        exact ensures_mono (fun _ _ later => later.trans same) ih

theorem scanBadblockRawFrom_poolErased (blocks : List ℕ) (count : ℕ) :
    Ensures (scanBadblockRawFrom blocks count) r fun _ r' => r'.poolErased = r.poolErased := by
  induction blocks generalizing r count with
  | nil => exact rfl
  | cons block blocks ih =>
      rw [scanBadblockRawFrom, ensures_bind, nandBlockBadBmt, ensures_perform]
      intro marked
      rw [ensures_bind, ensures_get]
      split
      · split
        · exact rfl
        · rw [ensures_bind, ensures_modify]
          exact ih _
      · exact ih _

/-- After `init_bmt` the pool is still to be erased. -/
theorem initBmt_poolErased : Ensures (initBmt g) r fun _ r' => r'.poolErased = false := by
  rw [initBmt, ensures_bind, ensures_modify, ensures_bind, loadBmtData]
  apply ensures_mono _ (loadBmtFrom_poolErased _)
  intro block r₁ same
  rw [ensures_bind, ensures_modify]
  split
  · rw [ensures_bind, reconstructBmt, ensures_bind, ensures_modify]
    apply ensures_mono _ (reconstructFrom_poolErased _)
    exact fun _ _ later => later.trans same
  · exact same

theorem startTables_poolErased : Ensures (startTables g) r fun _ r' => r'.poolErased = false := by
  rw [startTables, ensures_bind]
  apply ensures_mono _ initBmt_poolErased
  intro _ r₁ erased
  rw [startInitBbt, ensures_bind, loadBbtData]
  apply ensures_mono _ (loadBbtFrom_poolErased _)
  intro block r₂ same
  rw [ensures_bind, ensures_modify]
  split
  · rw [ensures_bind, reconstructBbt, ensures_bind, ensures_modify, scanBadblockRaw]
    apply ensures_mono _ (scanBadblockRawFrom_poolErased _ _)
    intro rebuilt r₃ later
    have done : r₃.poolErased = false := later.trans (same.trans erased)
    cases rebuilt <;> exact done
  · exact same.trans erased

end Start

/-! ## Calls within calls -/

/-- A run in which checks tell the truth and marks take effect, and in which nothing
fails in the blocks of `spared`. -/
structure Ran (env : Env) (spared : Set ℕ) {α : Type} (m : Drv α) (r : Ram) (s : Spi) (a : α)
    (r' : Ram) (s' : Spi) : Prop where
  candid : Keeps (nandMachine env) (Candid env) m r s
  run : exec (nandMachine env) m r s = some (a, r', s')
  whole : ∀ b ∈ spared, b ∉ brokenBlocks env m r s

/-- A call of one of the functions that look for a block, or lead to one. -/
inductive Call
  | find (startFromEnd : Bool)
  | migrate (offset : ℕ) (dat oob : Option Bytes)
  | writeBmt (dat oob : Bytes)
  | writeBbt (dat oob : Bytes)
  | update (offset : ℕ) (reason : UpdateReason) (dat oob : Option Bytes)
  | save

/-- A call, and the state in which it begins. -/
structure Activation where
  call : Call
  ram : Ram
  spi : Spi

/-- The functions call each other. `migrate_from_bad`, `write_bbt_to_flash`, and
`write_bmt_to_flash` when it has no block, begin to program the block that they have
looked for, and call themselves when it fails. -/
inductive Enters (g : Geometry) (env : Env) (depth : ℕ) (spared : Set ℕ) :
    Activation → Activation → Prop
  | migrateFind {offset : ℕ} {dat oob : Option Bytes} {r : Ram} {s : Spi} :
      Enters g env depth spared ⟨.migrate offset dat oob, r, s⟩ ⟨.find false, r, s⟩
  | migrateAgain {offset block : ℕ} {dat oob : Option Bytes} {r r₁ r₂ r₃ : Ram} {s s₁ s₂ s₃ : Spi}
      (found : Ran env spared (findAvailableBlock g false) r s block r₁ s₁) (ne : block ≠ 0)
      (failed : Ran env spared (migrateTo g block offset dat oob) r₁ s₁ false r₂ s₂)
      (marked : Ran env spared (markBlockBadBmt (blockOffset block) .generateLater) r₂ s₂ ()
        r₃ s₃) :
      Enters g env depth spared ⟨.migrate offset dat oob, r, s⟩ ⟨.migrate offset dat oob, r₃, s₃⟩
  | bmtFind {dat oob : Bytes} {r : Ram} {s : Spi} (none : r.bmtBlockIndex = 0) :
      Enters g env depth spared ⟨.writeBmt dat oob, r, s⟩ ⟨.find true, r, s⟩
  | bmtErase {dat oob : Bytes} {r r₁ r₂ : Ram} {s s₁ s₂ : Spi}
      (failed : Ran env spared (prepareBmtBlock g) r s .eraseFailed r₁ s₁)
      (retired : Ran env spared retireBmtBlock r₁ s₁ () r₂ s₂) :
      Enters g env depth spared ⟨.writeBmt dat oob, r, s⟩ ⟨.writeBmt dat oob, r₂, s₂⟩
  | bmtWrite {dat oob : Bytes} {r r₁ r₂ r₃ : Ram} {s s₁ s₂ s₃ : Spi}
      (ready : Ran env spared (prepareBmtBlock g) r s .ready r₁ s₁)
      (failed : Ran env spared (nandWritePageBmt (pageAddr r₁.bmtBlockIndex) dat oob) r₁ s₁ false
        r₂ s₂)
      (retired : Ran env spared retireBmtBlock r₂ s₂ () r₃ s₃) :
      Enters g env depth spared ⟨.writeBmt dat oob, r, s⟩ ⟨.writeBmt dat oob, r₃, s₃⟩
  | bbtFind {dat oob : Bytes} {r : Ram} {s : Spi} :
      Enters g env depth spared ⟨.writeBbt dat oob, r, s⟩ ⟨.find false, r, s⟩
  | bbtAgain {dat oob : Bytes} {block : ℕ} {r r₁ r₂ r₃ : Ram} {s s₁ s₂ s₃ : Spi}
      (found : Ran env spared (findAvailableBlock g false) r s block r₁ s₁) (ne : block ≠ 0)
      (failed : Ran env spared (nandWritePageBmt (pageAddr block) dat oob)
        { r₁ with bbtBlockIndex := block } s₁ false r₂ s₂)
      (marked : Ran env spared (markBlockBadBmt (blockOffset block) .generateLater) r₂ s₂ ()
        r₃ s₃) :
      Enters g env depth spared ⟨.writeBbt dat oob, r, s⟩
        ⟨.writeBbt dat oob, { r₃ with bbtBlockIndex := 0 }, s₃⟩
  | updateMigrate {offset : ℕ} {dat oob : Option Bytes} {r : Ram} {s : Spi} :
      Enters g env depth spared ⟨.update offset .writeFail dat oob, r, s⟩
        ⟨.migrate offset dat oob, r, s⟩
  | updateFind {offset : ℕ} {reason : UpdateReason} {dat oob : Option Bytes} {r : Ram} {s : Spi}
      (ne : reason ≠ .writeFail) :
      Enters g env depth spared ⟨.update offset reason dat oob, r, s⟩ ⟨.find false, r, s⟩
  | updateWrite {offset block : ℕ} {reason : UpdateReason} {dat oob : Option Bytes}
      {r r₁ r₂ : Ram} {s s₁ s₂ : Spi}
      (found : Ran env spared (replacementBlock g depth offset reason dat oob) r s block r₁ s₁)
      (ne : block ≠ 0)
      (filled : Ran env spared (fillBmtBuffers g)
        { r₁ with bmt := r₁.bmt.remap g (offset / eraseSize) block } s₁ () r₂ s₂) :
      Enters g env depth spared ⟨.update offset reason dat oob, r, s⟩
        ⟨.writeBmt r₂.datBuf r₂.oobBuf, r₂, s₂⟩
  | saveBmt {r r₁ : Ram} {s s₁ : Spi} (need : r.needWriteBmtToNand = true)
      (filled : Ran env spared (fillBmtBuffers g) r s () r₁ s₁) :
      Enters g env depth spared ⟨.save, r, s⟩ ⟨.writeBmt r₁.datBuf r₁.oobBuf, r₁, s₁⟩
  | saveBbt {r r₁ r₂ : Ram} {s s₁ s₂ : Spi}
      (written : Ran env spared (writeBmtIfNeeded g depth) r s true r₁ s₁)
      (need : r₁.needWriteBbtToNand = true)
      (filled : Ran env spared fillBbtBuffers r₁ s₁ () r₂ s₂) :
      Enters g env depth spared ⟨.save, r, s⟩ ⟨.writeBbt r₂.datBuf r₂.oobBuf, r₂, s₂⟩

/-- What holds when a call begins. -/
def Fit (g : Geometry) (L : OobLayout) (spared : Set ℕ) : Activation → Prop
  | ⟨.find _, r, s⟩ => Clean g L r s.chip.pages
  | ⟨.migrate _ _ _, r, s⟩ => Clean g L r s.chip.pages
  | ⟨.writeBmt _ _, r, s⟩ =>
      Clean g L r s.chip.pages ∨ r.bmtBlockIndex ≠ 0 ∧ r.bmtBlockIndex ∈ spared
  | ⟨.writeBbt _ _, r, s⟩ => Clean g L r s.chip.pages ∧ r.bbtBlockIndex = 0
  | ⟨.update offset _ _ _, r, s⟩ =>
      Clean g L r s.chip.pages ∧ KeepsClean g r offset ∧ sparedBlocks g r offset ⊆ spared
  | ⟨.save, r, s⟩ =>
      Clean g L r s.chip.pages ∧ (r.needWriteBbtToNand = true → r.bbtBlockIndex = 0)

section Enters

variable {g : Geometry} {env : Env} {depth : ℕ} {spared : Set ℕ} {r r' : Ram} {s s' : Spi}

/-- What is proved over `FaultStep` holds of the run. -/
theorem Ran.post {α : Type} {m : Drv α} {a : α} (ran : Ran env spared m r s a r' s')
    {post : α → Ram → Faults → Prop}
    (h : wp (FaultStep env.layout) m post r ⟨s.chip.pages, []⟩) :
    post a r' ⟨s'.chip.pages, brokenBlocks env m r s⟩ :=
  fault_exec h ran.candid ran.run

/-- The block of the table is spared: no other is looked for. -/
theorem spared_prepareBmtBlock (ne : r.bmtBlockIndex ≠ 0) (spare : r.bmtBlockIndex ∈ spared)
    {state : BmtBlock} (ran : Ran env spared (prepareBmtBlock g) r s state r' s') :
    state = .ready ∧ r' = r := by
  have told : wp (FaultStep env.layout) (prepareBmtBlock g) (fun state r' w' =>
      r.bmtBlockIndex ∉ w'.broken → state = .ready ∧ r' = r) r ⟨s.chip.pages, []⟩ := by
    rw [prepareBmtBlock, wp_bind, wp_get, if_neg ne, wp_bind]
    apply fault_eraseBlock
    intro ok w₁ attempt _
    cases ok with
    | true => exact fun _ => ⟨rfl, rfl⟩
    | false => exact fun whole => absurd ((attempt.broken _).mpr (.inr ⟨rfl, rfl⟩)) whole
  exact ran.post told (ran.whole _ spare)

theorem notMem_of_lost {block : ℕ} {dat oob : Bytes}
    (failed : Ran env spared (nandWritePageBmt (pageAddr block) dat oob) r s false r' s') :
    block ∉ spared := by
  have told : wp (FaultStep env.layout) (nandWritePageBmt (pageAddr block) dat oob)
      (fun ok _ w' => ok = false → block ∈ w'.broken) r ⟨s.chip.pages, []⟩ := by
    apply fault_writeFirst
    exact fun ok w' attempt lost => (attempt.broken block).mpr (.inr ⟨lost, rfl⟩)
  exact fun spare => failed.whole block spare (failed.post told rfl)

theorem fit_fillBmtBuffers {pages : ℕ → Page}
    (fit : Clean g env.layout r pages ∨ r.bmtBlockIndex ≠ 0 ∧ r.bmtBlockIndex ∈ spared)
    (same : s.chip.pages = pages) (filled : Ran env spared (fillBmtBuffers g) r s () r' s') :
    Fit g env.layout spared ⟨.writeBmt r'.datBuf r'.oobBuf, r', s'⟩ := by
  have told : wp (FaultStep env.layout) (fillBmtBuffers g) (fun _ r' w' =>
      (Clean g env.layout r' w'.pages ∨ r'.bmtBlockIndex ≠ 0 ∧ r'.bmtBlockIndex ∈ spared)) r
      ⟨s.chip.pages, []⟩ := by
    rw [fillBmtBuffers, wp_modify]
    exact fit.imp_left fun clean => same ▸ clean.buffers _ _
  exact filled.post told

/-- One call leads to the next. -/
theorem Enters.fit {a a' : Activation} (enters : Enters g env depth spared a a')
    (fit : Fit g env.layout spared a) : Fit g env.layout spared a' := by
  cases enters with
  | migrateFind => exact fit
  | @migrateAgain offset block dat oob r r₁ r₂ r₃ s s₁ s₂ s₃ found ne failed marked =>
      have found' := found.post (clean_findAvailableBlock false fit)
      obtain ⟨-, clean⟩ := failed.post (clean_migrateTo _ _ found')
      have told : wp (FaultStep env.layout) (markBlockBadBmt (blockOffset block) .generateLater)
          (fun _ r' w' => Clean g env.layout r' w'.pages) r₂ ⟨s₂.chip.pages, []⟩ :=
        clean_markBlock clean fun _ clean => clean
      exact marked.post told
  | bmtFind none => exact fit.resolve_right fun placed => placed.1 none
  | bmtErase failed retired =>
      rcases fit with clean | ⟨ne, spare⟩
      · have begun := failed.post (clean_prepareBmtBlock clean)
        cases begun with
        | eraseFailed _ _ clean₁ => exact .inl (retired.post (clean_retireBmtBlock clean₁)).2
      · exact BmtBlock.noConfusion (spared_prepareBmtBlock ne spare failed).1
  | bmtWrite ready failed retired =>
      rcases fit with clean | ⟨ne, spare⟩
      · have begun := ready.post (clean_prepareBmtBlock clean)
        cases begun with
        | ready _ clean₁ =>
            obtain ⟨rfl, clean₂, -⟩ := failed.post (clean_writeImage clean₁)
            exact .inl (retired.post (clean_retireBmtBlock clean₂)).2
      · obtain ⟨-, rfl⟩ := spared_prepareBmtBlock ne spare ready
        exact absurd spare (notMem_of_lost failed)
  | bbtFind => exact fit.1
  | bbtAgain found ne failed marked =>
      obtain ⟨clean, zero⟩ := fit
      have found' := found.post (clean_findAvailableBlock false clean)
      obtain ⟨rfl, spoiled, -⟩ := failed.post (clean_writeTable found' zero)
      obtain ⟨rfl, clean'⟩ := marked.post (clean_retireTable found'.ram zero spoiled)
      exact ⟨clean', rfl⟩
  | updateMigrate => exact fit.1
  | updateFind ne => exact fit.1
  | @updateWrite offset block reason dat oob r r₁ r₂ s s₁ s₂ found ne filled =>
      obtain ⟨clean, keeps, spares⟩ := fit
      obtain ⟨same, -, clean₁⟩ := found.post (clean_replacementBlock depth clean)
      apply fit_fillBmtBuffers _ rfl filled
      have clean₂ := clean_remapped same keeps.replaceable clean₁
      by_cases inside : g.InPool (offset / eraseSize)
      · have index : r₁.bmtBlockIndex = r.bmtBlockIndex := same.bmtBlockIndex
        exact .inr ⟨index ▸ keeps.placed inside, spares ⟨inside, index⟩⟩
      · refine .inl (clean₂.tables (fun erased => erased) fun b _ unused => ⟨unused, ?_⟩)
        exact fun replaced => inside replaced.2
  | saveBmt need filled => exact fit_fillBmtBuffers (.inl fit.1) rfl filled
  | @saveBbt r r₁ r₂ s s₁ s₂ written need filled =>
      obtain ⟨clean, unwritten⟩ := fit
      obtain ⟨moved, clean₁⟩ := written.post (clean_writeBmtIfNeeded depth clean)
      have zero := moved.bbtBlockIndex.trans (unwritten (moved.needBbt.symm.trans need))
      have told : wp (FaultStep env.layout) fillBbtBuffers (fun _ r' w' =>
          Clean g env.layout r' w'.pages ∧ r'.bbtBlockIndex = 0) r₁ ⟨s₁.chip.pages, []⟩ := by
        rw [fillBbtBuffers, wp_modify]
        exact ⟨clean₁.buffers _ _, zero⟩
      exact filled.post told

end Enters

/-! ## Runs of the layer -/

/-- Which updates a run makes: the states in which they are called, and the blocks in
which nothing fails during the call. -/
structure Care where
  allowed : Ram → ℕ → Prop
  spared : Ram → ℕ → Set ℕ

/-- Any block that carries data may fail at any page, whatever else fails. -/
def anyUpdate (g : Geometry) : Care :=
  ⟨fun r offset => Updatable g r (offset / eraseSize), fun _ _ => ∅⟩

/-- The updates that leave the free blocks clean. -/
def cleanUpdate (g : Geometry) : Care := ⟨KeepsClean g, sparedBlocks g⟩

/-- The calls from outside. The bad-block table is written while it has no block. -/
def Care.Allows (care : Care) : Call → Ram → Prop
  | .find _, _ => True
  | .save, r => r.needWriteBbtToNand = true → r.bbtBlockIndex = 0
  | .update offset _ _ _, r => care.allowed r offset
  | _, _ => False

def Care.blocks (care : Care) : Call → Ram → Set ℕ
  | .update offset _ _ _, r => care.spared r offset
  | _, _ => ∅

/-- The function that is called, without its result. -/
def Call.code (g : Geometry) (depth : ℕ) : Call → Drv Unit
  | .find startFromEnd => do let _ ← findAvailableBlock g startFromEnd
  | .migrate offset dat oob => do let _ ← migrateFromBad g offset dat oob depth
  | .writeBmt dat oob => do let _ ← writeBmtToFlash g dat oob depth
  | .writeBbt dat oob => do let _ ← writeBbtToFlash g dat oob depth
  | .update offset reason dat oob => do let _ ← updateBmt g depth offset reason dat oob
  | .save => do let _ ← writeBbtOrBmtToFlash g depth

/-- The states between the calls, from a start on any flash. The layers above change
blocks that carry data. -/
inductive Running (g : Geometry) (env : Env) (care : Care) : Ram → Spi → Prop
  | start {s₀ s : Spi} {r : Ram} {done : Bool}
      (run : Ran env ∅ (startTables g) Ram.initial s₀ done r s) : Running g env care r s
  | call {r r' : Ram} {s s' : Spi} {depth : ℕ} {call : Call} (before : Running g env care r s)
      (allowed : care.Allows call r)
      (run : Ran env (care.blocks call r) (call.code g depth) r s () r' s') :
      Running g env care r' s'
  | client {r r' : Ram} {s s' : Spi} {op : NandOp} {answer : NandResp op}
      (before : Running g env care r s) (onData : ∀ b, Changes op b → Updatable g r b)
      (run : Ran env ∅ (Routine.perform op) r s answer r' s') : Running g env care r' s'

/-- A call that is under way, within a call from outside. -/
inductive Underway (g : Geometry) (env : Env) (care : Care) : Activation → Prop
  | intro {outer : Call} {r : Ram} {s : Spi} {a : Activation} (depth : ℕ)
      (running : Running g env care r s) (allowed : care.Allows outer r)
      (path : Relation.ReflTransGen (Enters g env depth (care.blocks outer r)) ⟨outer, r, s⟩ a) :
      Underway g env care a

/-- What the function returns. -/
def Call.Result : Call → Type
  | .find _ => ℕ
  | .migrate _ _ _ => ℕ
  | _ => Bool

/-- The function that is called. -/
def Call.body (g : Geometry) (depth : ℕ) : (call : Call) → Drv call.Result
  | .find startFromEnd => findAvailableBlock g startFromEnd
  | .migrate offset dat oob => migrateFromBad g offset dat oob depth
  | .writeBmt dat oob => writeBmtToFlash g dat oob depth
  | .writeBbt dat oob => writeBbtToFlash g dat oob depth
  | .update offset reason dat oob => updateBmt g depth offset reason dat oob
  | .save => writeBbtOrBmtToFlash g depth

/-- The call is not made by another one. -/
def Call.Outer : Call → Prop
  | .update _ _ _ _ => True
  | .save => True
  | _ => False

section Called

variable {g : Geometry} {env : Env} {depth : ℕ} {spared : Set ℕ}

/-- The functions do call each other like that. -/
theorem Enters.leadsTo {a a' : Activation} (enters : Enters g env depth spared a a') (n : ℕ)
    (outer : a.call.Outer → n = depth) (more : ¬ a.call.Outer → n ≠ 0) :
    ¬ a'.call.Outer ∧ ∃ n', LeadsTo (nandMachine env) (a.call.body g n) a.ram a.spi
      (a'.call.body g n') a'.ram a'.spi := by
  cases enters with
  | migrateFind =>
      obtain ⟨n, rfl⟩ := Nat.exists_eq_succ_of_ne_zero (more id)
      exact ⟨id, 0, .bind .refl _⟩
  | migrateAgain found ne failed marked =>
      obtain ⟨n, rfl⟩ := Nat.exists_eq_succ_of_ne_zero (more id)
      refine ⟨id, n, .after found.run ?_⟩
      rw [if_neg ne]
      exact .after failed.run (.after marked.run .refl)
  | @bmtFind dat oob r s none =>
      obtain ⟨n, rfl⟩ := Nat.exists_eq_succ_of_ne_zero (more id)
      have find : LeadsTo (nandMachine env) (prepareBmtBlock g) r s (findAvailableBlock g true)
          r s := by
        rw [prepareBmtBlock]
        apply LeadsTo.after (exec_get _)
        rw [if_pos none]
        exact .bind .refl _
      exact ⟨id, 0, .bind find _⟩
  | bmtErase failed retired =>
      obtain ⟨n, rfl⟩ := Nat.exists_eq_succ_of_ne_zero (more id)
      exact ⟨id, n, .after failed.run (.after retired.run .refl)⟩
  | bmtWrite ready failed retired =>
      obtain ⟨n, rfl⟩ := Nat.exists_eq_succ_of_ne_zero (more id)
      exact ⟨id, n, .after ready.run (.after rfl (.after failed.run (.after retired.run .refl)))⟩
  | bbtFind =>
      obtain ⟨n, rfl⟩ := Nat.exists_eq_succ_of_ne_zero (more id)
      exact ⟨id, 0, .bind .refl _⟩
  | bbtAgain found ne failed marked =>
      obtain ⟨n, rfl⟩ := Nat.exists_eq_succ_of_ne_zero (more id)
      refine ⟨id, n, .after found.run (.after rfl ?_)⟩
      rw [if_neg ne]
      exact .after failed.run (.after marked.run (.after rfl .refl))
  | updateMigrate =>
      obtain rfl := outer trivial
      exact ⟨id, n, .bind .refl _⟩
  | updateFind ne =>
      obtain rfl := outer trivial
      refine ⟨id, 0, .bind ?_ _⟩
      rw [replacementBlock, if_neg ne]
      exact .refl
  | updateWrite found ne filled =>
      obtain rfl := outer trivial
      refine ⟨id, n, .after found.run ?_⟩
      rw [if_neg ne]
      exact .after rfl (.after filled.run (.after rfl (.bind .refl _)))
  | saveBmt need filled =>
      obtain rfl := outer trivial
      refine ⟨id, n, .bind (.after rfl ?_) _⟩
      rw [if_pos need]
      exact .after filled.run (.after rfl .refl)
  | saveBbt written need filled =>
      obtain rfl := outer trivial
      refine ⟨id, n, .after written.run (.after rfl ?_)⟩
      rw [if_pos need]
      exact .after filled.run (.after rfl .refl)

/-- A function that may go no deeper does not come to the end of a call. -/
theorem Enters.stuck {a a' : Activation} (enters : Enters g env depth spared a a') {n : ℕ}
    (inner : ¬ a.call.Outer) (zero : n = 0) :
    exec (nandMachine env) (a.call.body g n) a.ram a.spi = none := by
  subst zero
  cases enters with
  | migrateFind => rfl
  | migrateAgain => rfl
  | bmtFind => rfl
  | bmtErase => rfl
  | bmtWrite => rfl
  | bbtFind => rfl
  | bbtAgain => rfl
  | updateMigrate => exact absurd trivial inner
  | updateFind => exact absurd trivial inner
  | updateWrite => exact absurd trivial inner
  | saveBmt => exact absurd trivial inner
  | saveBbt => exact absurd trivial inner

/-- What the calls of `Underway` are calls of: the programs come to them, unless they go deeper
than they may. -/
theorem Underway.called {care : Care} {a : Activation} (underway : Underway g env care a) :
    ∃ (outer : Call) (r : Ram) (s : Spi) (depth : ℕ), Running g env care r s ∧
      care.Allows outer r ∧ (exec (nandMachine env) (outer.body g depth) r s = none ∨
        ∃ n, LeadsTo (nandMachine env) (outer.body g depth) r s (a.call.body g n) a.ram a.spi) := by
  obtain ⟨depth, running, allowed, path⟩ := underway
  rename_i outer r s
  refine ⟨outer, r, s, depth, running, allowed, ?_⟩
  have come : exec (nandMachine env) (outer.body g depth) r s = none ∨
      ∃ n, (a.call.Outer → n = depth) ∧
        LeadsTo (nandMachine env) (outer.body g depth) r s (a.call.body g n) a.ram a.spi := by
    induction path with
    | refl => exact .inr ⟨depth, fun _ => rfl, .refl⟩
    | @tail a a' _ enters ih =>
        obtain never | ⟨n, outermost, come⟩ := ih
        · exact .inl never
        by_cases deeper : ¬ a.call.Outer ∧ n = 0
        · exact .inl (come.stuck (enters.stuck deeper.1 deeper.2))
        · obtain ⟨inner, n', next⟩ := enters.leadsTo n outermost fun h zero => deeper ⟨h, zero⟩
          exact .inr ⟨n', fun h => absurd h inner, come.trans next⟩
  exact come.imp_right fun ⟨n, _, come⟩ => ⟨n, come⟩

end Called

section Running

variable {g : Geometry} {env : Env} {r r' : Ram} {s s' : Spi}

/-- An operation leaves alone the blocks it does not change. -/
theorem faultStep_frame {L : OobLayout} {op : NandOp} {w w' : Faults} {answer : NandResp op}
    (step : FaultStep L op w answer w') {b : ℕ} (other : ¬ Changes op b) :
    SameBlock w.pages w'.pages b := by
  cases op with
  | readPage page => exact step ▸ .refl _ _
  | checkBlockBad offset kind => exact step.1 ▸ .refl _ _
  | clearCache => exact step ▸ .refl _ _
  | markBadblock offset kind =>
      obtain ⟨page, -, rfl⟩ := step
      exact sameBlock_update other page
  | eraseBlock block =>
      obtain ⟨left, -, rfl⟩ := step
      exact fun p hp => if_neg fun eq => other (eq.symm.trans hp)
  | writePage page dataOffset dat dataLen oob oobLen =>
      obtain ⟨new, rfl⟩ := step
      exact sameBlock_update other new

/-- Calls that are allowed leave the free blocks clean. -/
theorem clean_call (depth : ℕ) {call : Call} {w : Faults} (clean : Clean g env.layout r w.pages)
    (allowed : (cleanUpdate g).Allows call r) :
    wp (FaultStep env.layout) (call.code g depth) (fun _ r' w' =>
      (∀ b ∈ (cleanUpdate g).blocks call r, b ∉ w'.broken) → Clean g env.layout r' w'.pages)
      r w := by
  cases call with
  | find startFromEnd =>
      rw [Call.code, wp_bind]
      apply wp_mono _ (clean_findAvailableBlock startFromEnd clean)
      exact fun _ _ _ found _ => found.clean
  | save =>
      rw [Call.code, wp_bind]
      apply wp_mono _ (clean_writeBbtOrBmtToFlash depth allowed clean)
      exact fun _ _ _ clean' _ => clean'
  | update offset reason dat oob =>
      rw [Call.code, wp_bind]
      exact clean_updateBmt depth allowed clean
  | migrate offset dat oob => exact allowed.elim
  | writeBmt dat oob => exact allowed.elim
  | writeBbt dat oob => exact allowed.elim

/-- After every call, the free blocks are blank once the pool has been erased. -/
theorem Running.clean (running : Running g env (cleanUpdate g) r s) :
    Clean g env.layout r s.chip.pages := by
  induction running with
  | start run =>
      intro erased
      rw [ensures_exec startTables_poolErased run.run] at erased
      exact Bool.noConfusion erased
  | call before allowed run ih => exact run.post (clean_call _ ih allowed) run.whole
  | @client r r' s s' op answer before onData run ih =>
      have told : wp (FaultStep env.layout) (Routine.perform op : Drv (NandResp op))
          (fun _ r' w' => Clean g env.layout r' w'.pages) r ⟨s.chip.pages, []⟩ := by
        rw [wp_perform]
        intro answer w' step erased b out free
        have same := faultStep_frame step fun changes =>
          updatable_used (onData b changes) free.unused
        exact same.blank (ih erased b out (free.of_same same))
      exact run.post told

/-- A call from outside begins as it should. -/
theorem Running.fit {call : Call} (running : Running g env (cleanUpdate g) r s)
    (allowed : (cleanUpdate g).Allows call r) :
    Fit g env.layout ((cleanUpdate g).blocks call r) ⟨call, r, s⟩ := by
  have clean := running.clean
  cases call with
  | find startFromEnd => exact clean
  | save => exact ⟨clean, allowed⟩
  | update offset reason dat oob => exact ⟨clean, allowed, subset_rfl⟩
  | migrate offset dat oob => exact allowed.elim
  | writeBmt dat oob => exact allowed.elim
  | writeBbt dat oob => exact allowed.elim

/-- So does every call within. -/
theorem Underway.fit {a : Activation} (underway : Underway g env (cleanUpdate g) a) :
    ∃ spared, Fit g env.layout spared a := by
  obtain @⟨outer, r, s, a, depth, running, allowed, path⟩ := underway
  refine ⟨(cleanUpdate g).blocks outer r, ?_⟩
  induction path with
  | refl => exact running.fit allowed
  | tail _ enters ih => exact enters.fit ih

end Running

/-- Every block that is given out is a free one, and it is erased. -/
theorem found_block_erased {g : Geometry} {env : Env} {startFromEnd : Bool} {r r' : Ram}
    {s s' : Spi}
    {block : ℕ} (underway : Underway g env (cleanUpdate g) ⟨.find startFromEnd, r, s⟩)
    (found : Ran env ∅ (findAvailableBlock g startFromEnd) r s block r' s') (ne : block ≠ 0) :
    Free g env.layout r' s'.chip.pages block ∧ Blank s'.chip.pages block := by
  obtain ⟨spared, clean⟩ := underway.fit
  have told := found.post (clean_findAvailableBlock startFromEnd clean)
  exact ⟨told.free ne, told.blank block (told.free ne)⟩

/-! ## Two runs -/

/-- A write to the page has failed. -/
def failedWrite (offset : ℕ) : Call :=
  .update offset .writeFail (some fun _ => 0) (some allOnes)

def failedWriteRun (offset : ℕ) (r : Ram) (s : Spi) : Option (Unit × Ram × Spi) :=
  exec (nandMachine faultless) ((failedWrite offset).code eightBlocks 5) r s

/-- Block 1 fails on its first page, and then the block that stands in for it on the
given page. -/
def movedTwice (page : ℕ) : Option (Unit × Ram × Spi) :=
  (failedWriteRun (blockOffset 1) started.2.1 started.2.2).bind fun out =>
    failedWriteRun (blockOffset 4 + page * pageSize) out.2.1 out.2.2

/-- What the calls are like in a run on a device that is faultless. -/
def candidRun {α : Type} (m : Drv α) (r : Ram) (s : Spi) : Bool :=
  decide (Keeps (nandMachine faultless) (Candid faultless) m r s) &&
    (brokenBlocks faultless m r s).isEmpty

theorem ran_of_candidRun {α : Type} {m : Drv α} {r : Ram} {s : Spi} {out : α × Ram × Spi}
    (run : exec (nandMachine faultless) m r s = some out) (told : candidRun m r s = true)
    (spared : Set ℕ) : Ran faultless spared m r s out.1 out.2.1 out.2.2 := by
  simp only [candidRun, Bool.and_eq_true, decide_eq_true_eq, List.isEmpty_iff] at told
  obtain ⟨candid, none⟩ := told
  refine ⟨candid, run, fun b _ broken => ?_⟩
  rw [none] at broken
  exact List.not_mem_nil broken

theorem started_ran : Ran faultless ∅ (startTables eightBlocks) Ram.initial blankSpi started.1
    started.2.1 started.2.2 :=
  ran_of_candidRun (Option.some_get _).symm (by decide +kernel) ∅

/-- The two calls, as runs of the layer. -/
theorem movedTwice_running {care : Care} (page : ℕ) {out : Unit × Ram × Spi}
    (run : movedTwice page = some out)
    (first : care.allowed started.2.1 (blockOffset 1))
    (second : ∀ mid, failedWriteRun (blockOffset 1) started.2.1 started.2.2 = some mid →
      care.allowed mid.2.1 (blockOffset 4 + page * pageSize) ∧
      candidRun ((failedWrite (blockOffset 4 + page * pageSize)).code eightBlocks 5)
        mid.2.1 mid.2.2 = true) : Running eightBlocks faultless care out.2.1 out.2.2 := by
  obtain ⟨mid, begun, rest⟩ := Option.bind_eq_some_iff.mp run
  obtain ⟨allowed, told⟩ := second mid begun
  have now : care.Allows (failedWrite (blockOffset 1)) started.2.1 := first
  have next : care.Allows (failedWrite (blockOffset 4 + page * pageSize)) mid.2.1 := allowed
  apply Running.call _ next (ran_of_candidRun rest told _)
  apply Running.call (.start started_ran) now
  exact ran_of_candidRun begun (by decide +kernel) _

/-- When the new block fails on its first page too, the search from the end gives out an
erased one. -/
theorem found_block_erased_twice : ∃ r s r' s', Underway eightBlocks faultless
      (cleanUpdate eightBlocks) ⟨.find true, r, s⟩ ∧
    Ran faultless ∅ (findAvailableBlock eightBlocks true) r s 6 r' s' ∧
    Free eightBlocks faultless.layout r' s'.chip.pages 6 ∧ Blank s'.chip.pages 6 := by
  obtain ⟨out, run⟩ : ∃ out, movedTwice 0 = some out :=
    Option.isSome_iff_exists.mp (by decide +kernel)
  obtain ⟨⟨block, r', s'⟩, found⟩ : ∃ out', (movedTwice 0).bind (fun out =>
      exec (nandMachine faultless) (findAvailableBlock eightBlocks true) out.2.1 out.2.2) =
        some out' := Option.isSome_iff_exists.mp (by decide +kernel)
  have told : (movedTwice 0).bind (fun out => (exec (nandMachine faultless)
      (findAvailableBlock eightBlocks true) out.2.1 out.2.2).map fun out' => (out'.1,
        candidRun (findAvailableBlock eightBlocks true) out.2.1 out.2.2)) = some (6, true) := by
    decide +kernel
  simp only [run, Option.bind_some] at found told
  simp only [found, Option.map_some, Option.some.injEq, Prod.mk.injEq] at told
  obtain ⟨rfl, candid⟩ := told
  have keeps : ∀ mid, failedWriteRun (blockOffset 1) started.2.1 started.2.2 = some mid →
      KeepsClean eightBlocks mid.2.1 (blockOffset 4) ∧
      candidRun ((failedWrite (blockOffset 4)).code eightBlocks 5) mid.2.1 mid.2.2 = true := by
    intro mid begun
    have seen : (failedWriteRun (blockOffset 1) started.2.1 started.2.2).map (fun mid =>
        (mid.2.1.bmtBlockIndex, mid.2.1.bmt.mappedCount, (mid.2.1.bmt.table 0).mappedIndex,
          candidRun ((failedWrite (blockOffset 4)).code eightBlocks 5) mid.2.1 mid.2.2)) =
        some (7, 1, 4, true) := by decide +kernel
    rw [begun] at seen
    simp only [Option.map_some, Option.some.injEq, Prod.mk.injEq] at seen
    obtain ⟨table, count, mapped, told⟩ := seen
    refine ⟨⟨.pool (by decide) ⟨0, ?_, by decide, mapped⟩, fun _ => by decide, fun _ => ?_⟩, told⟩
    · rw [count]
      exact Nat.one_pos
    · rw [table]
      decide
  have running : Running eightBlocks faultless (cleanUpdate eightBlocks) out.2.1 out.2.2 := by
    apply movedTwice_running 0 run
    · exact ⟨.system (by decide) (by decide), fun pool => absurd pool (by decide),
        fun pool => absurd pool (by decide)⟩
    · rw [Nat.zero_mul, Nat.add_zero]
      exact keeps
  have allowed : (cleanUpdate eightBlocks).Allows (.find true) out.2.1 := trivial
  have underway : Underway eightBlocks faultless (cleanUpdate eightBlocks)
      ⟨.find true, out.2.1, out.2.2⟩ := .intro 5 running allowed .refl
  have ran : Ran faultless ∅ (findAvailableBlock eightBlocks true) out.2.1 out.2.2 6 r' s' :=
    ran_of_candidRun found candid ∅
  exact ⟨_, _, r', s', underway, ran, found_block_erased underway ran (by decide)⟩

/-- When it fails on a later page, that page gets the mark. The block is taken again to
stand in for block 2, with data in it. -/
theorem found_block_not_erased : ∃ r s r' s', Underway eightBlocks faultless
      (anyUpdate eightBlocks) ⟨.find false, r, s⟩ ∧
    Ran faultless ∅ (findAvailableBlock eightBlocks false) r s 4 r' s' ∧
    ¬ Blank s'.chip.pages 4 := by
  obtain ⟨out, run⟩ : ∃ out, movedTwice 5 = some out :=
    Option.isSome_iff_exists.mp (by decide +kernel)
  obtain ⟨⟨block, r', s'⟩, found⟩ : ∃ out', (movedTwice 5).bind (fun out =>
      exec (nandMachine faultless) (findAvailableBlock eightBlocks false) out.2.1 out.2.2) =
        some out' := Option.isSome_iff_exists.mp (by decide +kernel)
  have told : (movedTwice 5).bind (fun out => (exec (nandMachine faultless)
      (findAvailableBlock eightBlocks false) out.2.1 out.2.2).map fun out' => (out'.1,
        candidRun (findAvailableBlock eightBlocks false) out.2.1 out.2.2,
        (out'.2.2.chip.pages (pageAddr 4)).data 0)) = some (4, true, 0) := by
    decide +kernel
  simp only [run, Option.bind_some] at found told
  simp only [found, Option.map_some, Option.some.injEq, Prod.mk.injEq] at told
  obtain ⟨rfl, candid, data⟩ := told
  have running : Running eightBlocks faultless (anyUpdate eightBlocks) out.2.1 out.2.2 := by
    apply movedTwice_running 5 run
    · exact .inl (by decide)
    · intro mid begun
      have seen : (failedWriteRun (blockOffset 1) started.2.1 started.2.2).map (fun mid =>
          (mid.2.1.bmt.isBlockMapped 4, candidRun
            ((failedWrite (blockOffset 4 + 5 * pageSize)).code eightBlocks 5) mid.2.1 mid.2.2)) =
          some (true, true) := by decide +kernel
      rw [begun] at seen
      simp only [Option.map_some, Option.some.injEq, Prod.mk.injEq] at seen
      exact ⟨.inr ⟨by decide, seen.1⟩, seen.2⟩
  have allowed : (anyUpdate eightBlocks).Allows (.update (blockOffset 2) .eraseFail none none)
      out.2.1 := .inl (by decide)
  refine ⟨out.2.1, out.2.2, r', s', ?_, ran_of_candidRun found candid ∅, fun blank => ?_⟩
  · exact .intro 5 running allowed (.single (.updateFind (by decide)))
  · have erased := blank (pageAddr 4) (by decide)
    rw [erased] at data
    exact absurd data (by decide)

end En7512.Bmt
