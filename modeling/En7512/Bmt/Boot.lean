/-
# Start-up

The functions that load the two tables or rebuild them, over `DoubtStep`: a run
from a cold start, on any flash whose pages can be read. Start-up programs
nothing but factory marks on system blocks, so what it reads from the pool is
what was there before.
-/

import En7512.Bmt.OnFlash

namespace En7512.Bmt

open En7512.Logic En7512.Nand En7512.Logic.Routine

/-- The variables that loading and rebuilding the tables leave alone. -/
def Ram.control (r : Ram) : ℕ × ℕ × Bool × Bool × Bool × (ℕ → ℕ) :=
  (r.bmtBlockIndex, r.bbtBlockIndex, r.poolErased, r.needWriteBmtToNand, r.needWriteBbtToNand,
    r.pBbt)

/-! ## Functions that return -/

/-- Start-up reads only, and its loops are bounded: it always comes to its end. -/
theorem returns_blockMarkedBad (block : ℕ) : Returns (blockMarkedBad block) := by
  apply returns_bind (returns_perform _)
  rintro (_ | _)
  · exact returns_perform _
  · exact returns_pure _

theorem returns_nandReadPageBmt (page : ℕ) : Returns (nandReadPageBmt page) := by
  apply returns_bind (returns_perform _)
  rintro (_ | ⟨dat, oob⟩)
  · exact returns_pure _
  · exact returns_bind (returns_modify _) fun _ => returns_pure _

/-- One step for each entry. -/
theorem returns_markUnmarked (blocks : List ℕ) : Returns (markUnmarked blocks) := by
  induction blocks with
  | nil => exact returns_pure _
  | cons block blocks ih =>
      apply returns_bind (returns_perform _)
      rintro (_ | _)
      · exact returns_bind (returns_bind (returns_perform _) fun _ => returns_pure _) fun _ => ih
      · exact ih

/-- The loop over the pool, whether an image is found or not. -/
theorem returns_loadBmtFrom (g : Geometry) (blocks : List ℕ) : Returns (loadBmtFrom g blocks) := by
  induction blocks with
  | nil => exact returns_pure _
  | cons block blocks ih =>
      apply returns_bind (returns_blockMarkedBad block)
      rintro (_ | _)
      · apply returns_bind (returns_nandReadPageBmt _)
        intro read
        apply returns_bind returns_get
        intro r
        split
        · apply returns_bind (returns_modify _)
          intro _
          apply returns_bind returns_get
          intro r'
          apply returns_bind (returns_markUnmarked _)
          exact fun _ => returns_pure _
        · exact ih
      · exact ih

/-- The loop that rebuilds the table. -/
theorem returns_reconstructFrom (g : Geometry) (blocks : List ℕ) :
    Returns (reconstructFrom g blocks) := by
  induction blocks with
  | nil => exact returns_pure _
  | cons block blocks ih =>
      apply returns_bind (returns_blockMarkedBad block)
      rintro (_ | _)
      · apply returns_bind (returns_nandReadPageBmt _)
        intro read
        apply returns_bind returns_get
        intro r
        show Returns (if g.systemBlockCount ≤ getBadIndexFromOob r.oobBuf then _ else _)
        split
        · exact ih
        · apply returns_bind (returns_markUnmarked _)
          exact fun _ => returns_bind (returns_modify _) fun _ => ih
      · exact ih

/-- The loop of the raw scan. -/
theorem returns_scanBadblockRawFrom (blocks : List ℕ) (count : ℕ) :
    Returns (scanBadblockRawFrom blocks count) := by
  induction blocks generalizing count with
  | nil => exact returns_bind (returns_modify _) fun _ => returns_pure _
  | cons block blocks ih =>
      apply returns_bind (returns_perform _)
      intro marked
      apply returns_bind returns_get
      intro r
      split
      · split
        · exact returns_pure _
        · exact returns_bind (returns_modify _) fun _ => ih _
      · exact ih _

/-- Loading the table, or rebuilding it. -/
theorem returns_initBmt (g : Geometry) : Returns (initBmt g) := by
  apply returns_bind (returns_modify _)
  intro _
  apply returns_bind (returns_loadBmtFrom g _)
  intro block
  apply returns_bind (returns_modify _)
  intro _
  split
  · apply returns_bind
    · exact returns_bind (returns_modify _) fun _ => returns_reconstructFrom g _
    · exact fun _ => returns_modify _
  · exact returns_pure _

theorem returns_reconstructBbt (g : Geometry) : Returns (reconstructBbt g) :=
  returns_bind (returns_modify _) fun _ => returns_scanBadblockRawFrom _ _

/-! ## What start-up touches -/

/-- Only the pages of a set have changed or come into doubt. -/
structure Touched (touched : Set ℕ) (d d' : Doubt) : Prop where
  pages : ∀ p ∉ touched, d'.pages p = d.pages p
  doubt : d'.doubt ⊆ d.doubt ∪ touched

namespace Touched

variable {touched touched' : Set ℕ} {d d' d'' : Doubt}

theorem refl (touched : Set ℕ) (d : Doubt) : Touched touched d d :=
  ⟨fun _ _ => rfl, Set.subset_union_left⟩

/-- Fewer pages than these have been touched. -/
theorem mono (h : Touched touched d d') (sub : touched ⊆ touched') : Touched touched' d d' :=
  ⟨fun p hp => h.pages p fun mem => hp (sub mem),
    h.doubt.trans (Set.union_subset_union_right _ sub)⟩

theorem trans (h : Touched touched d d') (h' : Touched touched d' d'') :
    Touched touched d d'' := by
  refine ⟨fun p hp => (h'.pages p hp).trans (h.pages p hp), fun p hp => ?_⟩
  rcases h'.doubt hp with before | now
  · exact h.doubt before
  · exact .inr now

/-- A page that has not been touched is still known. -/
theorem fresh (h : Touched touched d d') {p : ℕ} (before : p ∉ d.doubt) (out : p ∉ touched) :
    p ∉ d'.doubt := fun mem => (h.doubt mem).elim before out

end Touched

/-- The first pages of the blocks of a list. -/
def firstPagesOf (blocks : List ℕ) : Set ℕ := {p | ∃ b ∈ blocks, p = pageAddr b}

variable {g : Geometry} {L : OobLayout} {r : Ram} {d : Doubt}

/-! ## Single accesses -/

/-- A page that is known is read as it is on the flash. -/
theorem doubt_readPage {page : ℕ} {post : Bool → Ram → Doubt → Prop} (fresh : page ∉ d.doubt)
    (h : ∀ mapping, (d.pages page).Shows L mapping → post true
      { r with
        datBuf := overlay r.datBuf 0 (d.pages page).data pageSize
        oobBuf := overlay r.oobBuf 0 mapping oobBufferSize } d) :
    wp (DoubtStep L) (nandReadPageBmt page) post r d := by
  rw [nandReadPageBmt, wp_bind, wp_perform]
  rintro answer d' ⟨rfl, told⟩
  obtain ⟨mapping, rfl, shows⟩ := told fresh
  exact h mapping shows

/-- A check of a block whose first page is known answers what is there. -/
theorem doubt_checkBad {block : ℕ} {kind : BadKind} {post : Bool → Ram → Doubt → Prop}
    (inside : block < g.totalBlockCount)
    (h : ∀ marked : Bool, (pageAddr block ∉ d.doubt →
      (marked = true ↔ (firstPage d.pages block).Marked L kind)) → post marked r d) :
    wp (DoubtStep L) (nandBlockBadBmt (blockOffset block) kind) post r d := by
  rw [nandBlockBadBmt, wp_perform]
  rintro answer d' ⟨rfl, told⟩
  rw [foldReserved_block inside, blockOffset_div_page] at told
  exact h answer told

/-- The test of all scans, of a block whose first page is known. -/
theorem doubt_blockMarkedBad {block : ℕ} {post : Bool → Ram → Doubt → Prop}
    (inside : block < g.totalBlockCount) (fresh : pageAddr block ∉ d.doubt)
    (h : ∀ marked : Bool, (marked = true ↔ BlockBad L d.pages block) → post marked r d) :
    wp (DoubtStep L) (blockMarkedBad block) post r d := by
  rw [blockMarkedBad, wp_bind]
  refine doubt_checkBad inside fun raw hraw => ?_
  have hraw := hraw fresh
  cases raw with
  | true => exact h true (by simpa [BlockBad] using .inl (hraw.mp rfl))
  | false =>
      rw [if_neg (by simp)]
      have notRaw : ¬ (firstPage d.pages block).Marked L .raw := fun marked => by
        simpa using hraw.mpr marked
      refine doubt_checkBad inside fun later hlater => h later ?_
      rw [hlater fresh, BlockBad, or_iff_right notRaw]

/-- A mark touches its own page only. -/
theorem doubt_markBad {offset : ℕ} {kind : BadKind} {post : Unit → Ram → Doubt → Prop}
    (h : ∀ d', Touched {offset / pageSize} d d' → post () r d') :
    wp (DoubtStep L) (markBlockBadBmt offset kind) post r d := by
  rw [markBlockBadBmt, wp_bind, wp_perform]
  rintro answer d' ⟨page, rfl⟩
  refine h _ ⟨fun p hp => Function.update_of_ne hp _ _, ?_⟩
  exact (Set.insert_eq _ _).trans (Set.union_comm _ _) |>.subset

/-- Marks may be added to the listed blocks, and nothing else happens. -/
theorem doubt_markUnmarked (blocks : List ℕ) {post : Unit → Ram → Doubt → Prop}
    (h : ∀ d', Touched (firstPagesOf blocks) d d' → post () r d') :
    wp (DoubtStep L) (markUnmarked blocks) post r d := by
  induction blocks generalizing d with
  | nil => exact h d (.refl _ _)
  | cons block blocks ih =>
      have rest : firstPagesOf blocks ⊆ firstPagesOf (block :: blocks) :=
        fun p ⟨b, hb, eq⟩ => ⟨b, List.mem_cons_of_mem _ hb, eq⟩
      have first : {blockOffset block / pageSize} ⊆ firstPagesOf (block :: blocks) := by
        rintro p rfl
        exact ⟨block, List.mem_cons_self, blockOffset_div_page block⟩
      rw [markUnmarked, wp_bind, nandBlockBadBmt, wp_perform]
      rintro marked d' ⟨rfl, -⟩
      cases marked with
      | true => exact ih fun d'' ht => h d'' (ht.mono rest)
      | false =>
          rw [if_neg (by simp), wp_bind]
          refine doubt_markBad fun d' ht => ih fun d'' ht' => h d'' ?_
          exact (ht.mono first).trans (ht'.mono rest)

/-! ## Loading -/

/-- The result of the search for the BMT. -/
inductive BmtLoaded (g : Geometry) (L : OobLayout) (blocks : List ℕ) (r : Ram) (d : Doubt) :
    ℕ → Ram → Doubt → Prop
  | none {r' : Ram} (bmt : r'.bmt = r.bmt) (initBbt : r'.initBbt = r.initBbt)
      (control : r'.control = r.control) (absent : ∀ b ∈ blocks, ¬ HoldsBmt g L d.pages b) :
      BmtLoaded g L blocks r d 0 r' d
  | found {block : ℕ} {r' : Ram} {d' : Doubt} (mem : block ∈ blocks)
      (holds : HoldsBmt g L d.pages block)
      (bmt : r'.bmt = r.bmt.load (firstPage d.pages block).data)
      (initBbt : r'.initBbt = r.initBbt) (control : r'.control = r.control)
      (touched : Touched (firstPagesOf
        ((imageLive (firstPage d.pages block).data).map (·.badIndex))) d d') :
      BmtLoaded g L blocks r d block r' d'

/-- Passing over a block that holds no image. -/
theorem BmtLoaded.of_kept {blocks : List ℕ} {block b : ℕ} {r₁ r' : Ram} {d' : Doubt}
    (loaded : BmtLoaded g L blocks r₁ d block r' d') (bmt : r₁.bmt = r.bmt)
    (initBbt : r₁.initBbt = r.initBbt) (control : r₁.control = r.control)
    (skipped : ¬ HoldsBmt g L d.pages b) :
    BmtLoaded g L (b :: blocks) r d block r' d' := by
  cases loaded with
  | none hbmt hinit hcontrol absent =>
      refine .none (hbmt.trans bmt) (hinit.trans initBbt) (hcontrol.trans control) ?_
      simpa using ⟨skipped, absent⟩
  | found mem holds hbmt hinit hcontrol touched =>
      exact .found (List.mem_cons_of_mem _ mem) holds (bmt ▸ hbmt) (hinit.trans initBbt)
        (hcontrol.trans control) touched

/-- The loop stops at the first block with an image, and loads it. -/
theorem doubt_loadBmtFrom (blocks : List ℕ) (pool : ∀ b ∈ blocks, g.InPool b)
    (fresh : ∀ b ∈ blocks, pageAddr b ∉ d.doubt) :
    wp (DoubtStep L) (loadBmtFrom g blocks) (BmtLoaded g L blocks r d) r d := by
  induction blocks generalizing r with
  | nil => exact .none rfl rfl rfl (by simp)
  | cons block blocks ih =>
      have rest := fun r => @ih r (fun b hb => pool b (List.mem_cons_of_mem _ hb))
        fun b hb => fresh b (List.mem_cons_of_mem _ hb)
      have freshBlock := fresh block List.mem_cons_self
      rw [loadBmtFrom, wp_bind]
      refine doubt_blockMarkedBad (pool block List.mem_cons_self).2 freshBlock fun marked hm => ?_
      cases marked with
      | true =>
          exact wp_mono (fun _ _ _ loaded => loaded.of_kept rfl rfl rfl
            fun holds => holds.1 (hm.mp rfl)) (rest r)
      | false =>
          have good : ¬ BlockBad L d.pages block := fun bad => by simpa using hm.mpr bad
          rw [if_neg (by simp), wp_bind]
          refine doubt_readPage freshBlock fun mapping _ => ?_
          rw [wp_bind, wp_get]
          have same := fun i (hi : i < pageSize) =>
            overlay_page_of_lt r.datBuf (d.pages (pageAddr block)).data hi
          by_cases image : IsBmtImage g (firstPage d.pages block).data
          · rw [if_pos ⟨rfl, (IsBmtImage.congr same).mpr image⟩, wp_bind, wp_modify, wp_bind,
              wp_get, wp_bind]
            refine doubt_markUnmarked _ fun d' touched => ?_
            have loaded := BmtStruct.load_congr r.bmt same
            simp only [loaded, live_load] at touched
            exact .found List.mem_cons_self ⟨good, image⟩ loaded rfl rfl touched
          · rw [if_neg fun h => image ((IsBmtImage.congr same).mp h.2)]
            exact wp_mono (fun _ _ _ loaded => loaded.of_kept rfl rfl rfl
              fun holds => image holds.2) (rest _)

/-- The result of the search for the bad-block table. -/
inductive BbtLoaded (g : Geometry) (L : OobLayout) (blocks : List ℕ) (r : Ram) (d : Doubt) :
    ℕ → Ram → Doubt → Prop
  | none {r' : Ram} (bmt : r'.bmt = r.bmt) (initBbt : r'.initBbt = r.initBbt)
      (control : r'.control = r.control) (absent : ∀ b ∈ blocks, ¬ HoldsBbt g L d.pages b) :
      BbtLoaded g L blocks r d 0 r' d
  | found {block : ℕ} {r' : Ram} (mem : block ∈ blocks) (holds : HoldsBbt g L d.pages block)
      (bmt : r'.bmt = r.bmt)
      (initBbt : r'.initBbt = r.initBbt.load (firstPage d.pages block).data)
      (control : r'.control = r.control) :
      BbtLoaded g L blocks r d block r' d

/-- Passing over a block that holds no image. -/
theorem BbtLoaded.of_kept {blocks : List ℕ} {block b : ℕ} {r₁ r' : Ram} {d' : Doubt}
    (loaded : BbtLoaded g L blocks r₁ d block r' d') (bmt : r₁.bmt = r.bmt)
    (initBbt : r₁.initBbt = r.initBbt) (control : r₁.control = r.control)
    (skipped : ¬ HoldsBbt g L d.pages b) :
    BbtLoaded g L (b :: blocks) r d block r' d' := by
  cases loaded with
  | none hbmt hinit hcontrol absent =>
      refine .none (hbmt.trans bmt) (hinit.trans initBbt) (hcontrol.trans control) ?_
      simpa using ⟨skipped, absent⟩
  | found mem holds hbmt hinit hcontrol =>
      exact .found (List.mem_cons_of_mem _ mem) holds (hbmt.trans bmt) (initBbt ▸ hinit)
        (hcontrol.trans control)

/-- The loop stops at the first block with an image, and loads it. -/
theorem doubt_loadBbtFrom (blocks : List ℕ) (pool : ∀ b ∈ blocks, g.InPool b)
    (fresh : ∀ b ∈ blocks, pageAddr b ∉ d.doubt) :
    wp (DoubtStep L) (loadBbtFrom g blocks) (BbtLoaded g L blocks r d) r d := by
  induction blocks generalizing r with
  | nil => exact .none rfl rfl rfl (by simp)
  | cons block blocks ih =>
      have rest := fun r => @ih r (fun b hb => pool b (List.mem_cons_of_mem _ hb))
        fun b hb => fresh b (List.mem_cons_of_mem _ hb)
      have freshBlock := fresh block List.mem_cons_self
      rw [loadBbtFrom, wp_bind]
      refine doubt_blockMarkedBad (pool block List.mem_cons_self).2 freshBlock fun marked hm => ?_
      cases marked with
      | true =>
          exact wp_mono (fun _ _ _ loaded => loaded.of_kept rfl rfl rfl
            fun holds => holds.1 (hm.mp rfl)) (rest r)
      | false =>
          have good : ¬ BlockBad L d.pages block := fun bad => by simpa using hm.mpr bad
          rw [if_neg (by simp), wp_bind]
          refine doubt_readPage freshBlock fun mapping _ => ?_
          rw [wp_bind, wp_get]
          have same := fun i (hi : i < pageSize) =>
            overlay_page_of_lt r.datBuf (d.pages (pageAddr block)).data hi
          by_cases image : IsBbtImage g (firstPage d.pages block).data
          · rw [if_pos ⟨rfl, (IsBbtImage.congr same).mpr image⟩, wp_bind, wp_modify]
            exact .found List.mem_cons_self ⟨good, image⟩ rfl
              (InitBbtStruct.load_congr r.initBbt same) rfl
          · rw [if_neg fun h => image ((IsBbtImage.congr same).mp h.2)]
            exact wp_mono (fun _ _ _ loaded => loaded.of_kept rfl rfl rfl
              fun holds => image holds.2) (rest _)

/-! ## Rebuilding -/

/-- The entries `reconstruct_bmt` finds in the blocks of a list. -/
def backPointers (g : Geometry) (L : OobLayout) (pages : ℕ → Page) (blocks : List ℕ) :
    List BmtEntry :=
  (blocks.filter fun b => PointsBack g L pages b).map fun b =>
    ⟨pageIndex L (firstPage pages b), b⟩

/-- A block that points nowhere adds no entry. -/
theorem backPointers_cons_of_not {pages : ℕ → Page} {block : ℕ} (blocks : List ℕ)
    (h : ¬ PointsBack g L pages block) :
    backPointers g L pages (block :: blocks) = backPointers g L pages blocks := by
  simp [backPointers, h]

/-- A block that points back adds its entry in front of those of the later blocks. -/
theorem backPointers_cons_of {pages : ℕ → Page} {block : ℕ} (blocks : List ℕ)
    (h : PointsBack g L pages block) :
    backPointers g L pages (block :: blocks) =
      ⟨pageIndex L (firstPage pages block), block⟩ :: backPointers g L pages blocks := by
  simp [backPointers, h]

/-- The entries depend on the first pages only. -/
theorem backPointers_congr {pages pages' : ℕ → Page} {blocks : List ℕ}
    (same : ∀ b ∈ blocks, pages' (pageAddr b) = pages (pageAddr b)) :
    backPointers g L pages' blocks = backPointers g L pages blocks := by
  induction blocks with
  | nil => simp [backPointers]
  | cons block blocks ih =>
      have first : firstPage pages' block = firstPage pages block :=
        same block List.mem_cons_self
      have rest := ih fun b hb => same b (List.mem_cons_of_mem _ hb)
      have points : PointsBack g L pages' block ↔ PointsBack g L pages block := by
        simp only [PointsBack, BlockBad, first]
      by_cases h : PointsBack g L pages block
      · rw [backPointers_cons_of _ h, backPointers_cons_of _ (points.mpr h), first, rest]
      · rw [backPointers_cons_of_not _ h, backPointers_cons_of_not _ (fun h' => h (points.mp h')),
          rest]

/-- The table after entries have been added. -/
structure Appended (bmt bmt' : BmtStruct) (entries : List BmtEntry) : Prop where
  count : bmt'.mappedCount = bmt.mappedCount + entries.length
  live : bmt'.live = bmt.live ++ entries
  beyond : ∀ i, bmt'.mappedCount ≤ i → bmt'.table i = bmt.table i

theorem Appended.refl (bmt : BmtStruct) : Appended bmt bmt [] := ⟨rfl, by simp, fun _ _ => rfl⟩

/-- An entry that is appended is the last that counts. -/
theorem live_append (bmt : BmtStruct) (room : bmt.mappedCount < 255) (badIndex mapIndex : ℕ) :
    (bmt.append badIndex mapIndex).mappedCount = bmt.mappedCount + 1 ∧
      (bmt.append badIndex mapIndex).live = bmt.live ++ [⟨badIndex, mapIndex⟩] := by
  have count : (bmt.append badIndex mapIndex).mappedCount = bmt.mappedCount + 1 := by
    rw [BmtStruct.append]
    exact Nat.mod_eq_of_lt (by omega)
  refine ⟨count, ?_⟩
  simp only [BmtStruct.live, count, List.range_succ, List.map_append, List.map_singleton]
  congr 1
  · refine List.map_congr_left fun i hi => ?_
    have hi := List.mem_range.mp hi
    exact Function.update_of_ne (by omega) _ _
  · exact congrArg (fun e => [e]) (Function.update_self ..)

/-- One entry, and those of the later blocks. -/
theorem Appended.cons {bmt bmt' : BmtStruct} {badIndex mapIndex : ℕ} {entries : List BmtEntry}
    (room : bmt.mappedCount < 255)
    (h : Appended (bmt.append badIndex mapIndex) bmt' entries) :
    Appended bmt bmt' (⟨badIndex, mapIndex⟩ :: entries) := by
  obtain ⟨count, live⟩ := live_append bmt room badIndex mapIndex
  refine ⟨?_, ?_, fun i hi => ?_⟩
  · rw [h.count, count, List.length_cons]
    omega
  · rw [h.live, live, List.append_assoc]
    rfl
  · rw [h.beyond i hi]
    have := h.count
    exact Function.update_of_ne (by omega) _ _

/-- The loop of `reconstruct_bmt` adds the back pointers of the blocks, in order. -/
theorem doubt_reconstructFrom (blocks : List ℕ) (pool : ∀ b ∈ blocks, g.InPool b)
    (fresh : ∀ b ∈ blocks, pageAddr b ∉ d.doubt)
    (room : r.bmt.mappedCount + (backPointers g L d.pages blocks).length ≤ 255) :
    wp (DoubtStep L) (reconstructFrom g blocks) (fun _ r' d' =>
      Appended r.bmt r'.bmt (backPointers g L d.pages blocks) ∧ r'.initBbt = r.initBbt ∧
        r'.control = r.control ∧ Touched (firstPagesOf
          ((backPointers g L d.pages blocks).map (·.badIndex))) d d') r d := by
  induction blocks generalizing r d with
  | nil => exact ⟨.refl _, rfl, rfl, .refl _ d⟩
  | cons block blocks ih =>
      have poolRest := fun b hb => pool b (List.mem_cons_of_mem block hb)
      have freshRest := fun b hb => fresh b (List.mem_cons_of_mem block hb)
      have freshBlock := fresh block List.mem_cons_self
      have skip : ∀ r₁ : Ram, r₁.bmt = r.bmt → r₁.initBbt = r.initBbt → r₁.control = r.control →
          ¬ PointsBack g L d.pages block → wp (DoubtStep L) (reconstructFrom g blocks)
            (fun _ r' d' => Appended r.bmt r'.bmt (backPointers g L d.pages (block :: blocks)) ∧
              r'.initBbt = r.initBbt ∧ r'.control = r.control ∧ Touched (firstPagesOf
                ((backPointers g L d.pages (block :: blocks)).map (·.badIndex))) d d') r₁ d := by
        intro r₁ hbmt hinit hcontrol points
        rw [backPointers_cons_of_not _ points] at room ⊢
        refine wp_mono (fun _ r' d' h => ?_) (ih poolRest freshRest (by rwa [hbmt]))
        rw [hbmt, hinit, hcontrol] at h
        exact h
      rw [reconstructFrom, wp_bind]
      refine doubt_blockMarkedBad (pool block List.mem_cons_self).2 freshBlock fun marked hm => ?_
      cases marked with
      | true => exact skip r rfl rfl rfl fun points => points.1 (hm.mp rfl)
      | false =>
          have good : ¬ BlockBad L d.pages block := fun bad => by simpa using hm.mpr bad
          rw [if_neg (by simp), wp_bind]
          refine doubt_readPage freshBlock fun mapping shows => ?_
          rw [wp_bind, wp_get]
          have index : getBadIndexFromOob (overlay r.oobBuf 0 mapping oobBufferSize) =
              pageIndex L (d.pages (pageAddr block)) := getBadIndexFromOob_of_shows shows
          simp only [index]
          by_cases system : g.systemBlockCount ≤ pageIndex L (d.pages (pageAddr block))
          · rw [if_pos system]
            exact skip _ rfl rfl rfl fun points => absurd points.2 (not_lt.mpr system)
          · rw [if_neg system, wp_bind]
            have points : PointsBack g L d.pages block := ⟨good, not_le.mp system⟩
            rw [backPointers_cons_of _ points, List.length_cons] at room
            refine doubt_markUnmarked _ fun d₁ touched => ?_
            rw [wp_bind, wp_modify]
            have outside : ∀ b, g.InPool b →
                pageAddr b ∉ firstPagesOf [pageIndex L (d.pages (pageAddr block))] := by
              rintro b hb ⟨c, hc, eq⟩
              rw [pageAddr_inj] at eq
              have low := hb.1
              simp only [List.mem_singleton] at hc
              omega
            have same : ∀ b ∈ blocks, d₁.pages (pageAddr b) = d.pages (pageAddr b) :=
              fun b hb => touched.pages _ (outside b (poolRest b hb))
            obtain ⟨count, -⟩ := live_append r.bmt (by omega)
              (pageIndex L (d.pages (pageAddr block))) block
            refine wp_mono (fun _ r' d' h => ?_) (ih poolRest
              (fun b hb => touched.fresh (freshRest b hb) (outside b (poolRest b hb)))
              (by rw [backPointers_congr same]; simp only [count]; omega))
            obtain ⟨appended, hinit, hcontrol, touched'⟩ := h
            rw [backPointers_congr same] at appended touched'
            rw [backPointers_cons_of _ points]
            refine ⟨appended.cons (by omega), hinit, hcontrol, ?_⟩
            refine (touched.mono ?_).trans (touched'.mono ?_)
            · rintro p ⟨b, hb, eq⟩
              obtain rfl := List.mem_singleton.mp hb
              exact ⟨_, List.mem_cons_self, eq⟩
            · rintro p ⟨b, hb, eq⟩
              exact ⟨b, List.mem_cons_of_mem _ hb, eq⟩

/-- As many blocks as the pool has. -/
theorem length_poolBlocks (g : Geometry) : g.poolBlocks.length = g.bmtBlockCount := by
  simp [Geometry.poolBlocks]

/-- No more blocks point back than there are. -/
theorem length_backPointers (pages : ℕ → Page) :
    (backPointers g L pages g.poolBlocks).length ≤ g.bmtBlockCount := by
  rw [backPointers, List.length_map, ← length_poolBlocks g]
  exact List.length_filter_le ..

/-- The table `reconstruct_bmt` starts from. -/
def emptiedBmt (g : Geometry) (bmt : BmtStruct) : BmtStruct :=
  { bmt.zeroTable g with version := tableVersion, badCount := 0, mappedCount := 0 }

/-- The rebuilt table has the entries that the blocks of the pool tell, in their order. -/
theorem doubt_reconstructBmt (few : (backPointers g L d.pages g.poolBlocks).length ≤ 255)
    (fresh : ∀ b, g.InPool b → pageAddr b ∉ d.doubt) :
    wp (DoubtStep L) (reconstructBmt g) (fun _ r' d' =>
      Appended (emptiedBmt g r.bmt) r'.bmt (backPointers g L d.pages g.poolBlocks) ∧
        r'.initBbt = r.initBbt ∧ r'.control = r.control ∧ Touched (firstPagesOf
          ((backPointers g L d.pages g.poolBlocks).map (·.badIndex))) d d') r d := by
  rw [reconstructBmt, wp_bind, wp_modify]
  refine doubt_reconstructFrom g.poolBlocks (fun b hb => g.mem_poolBlocks.mp hb)
    (fun b hb => fresh b (g.mem_poolBlocks.mp hb)) ?_
  simpa only [Nat.zero_add] using few

/-! ## The list of factory-bad blocks -/

/-- The blocks `scan_badblock_raw` lists. -/
def rawBad (L : OobLayout) (pages : ℕ → Page) (bmt : BmtStruct) (blocks : List ℕ) : List ℕ :=
  blocks.filter fun b => (firstPage pages b).Marked L .raw ∧ bmt.isBadblockRaw b

/-- The entries of a list so far. -/
def listed (bbt : InitBbtStruct) (count : ℕ) : List ℕ :=
  (List.range count).map bbt.badblockTable

/-- A block that is put behind the list is its last one. -/
theorem listed_put (bbt : InitBbtStruct) (count block : ℕ) :
    listed { bbt with badblockTable := Function.update bbt.badblockTable count block } (count + 1) =
      listed bbt count ++ [block] := by
  simp only [listed, List.range_succ, List.map_append, List.map_singleton, Function.update_self]
  congr 1
  apply List.map_congr_left
  intro i hi
  exact Function.update_of_ne (List.mem_range.mp hi).ne _ _

/-- The scan lists the blocks that carry the factory mark and are not the bad
block of an entry. Pages in doubt belong to such blocks only. -/
theorem doubt_scanBadblockRawFrom (blocks : List ℕ) (count : ℕ)
    (inside : ∀ b ∈ blocks, b < g.totalBlockCount)
    (keys : ∀ b ∈ blocks, pageAddr b ∈ d.doubt → r.bmt.isBadblockRaw b = false) :
    wp (DoubtStep L) (scanBadblockRawFrom blocks count) (fun done r' d' =>
      d' = d ∧ r'.bmt = r.bmt ∧ r'.control = r.control ∧
        (count + (rawBad L d.pages r.bmt blocks).length ≤ maxRawBadBlockSize → done = true) ∧
        (done = true →
        r'.initBbt.badblockCount = (count + (rawBad L d.pages r.bmt blocks).length) % 256 ∧
        listed r'.initBbt (count + (rawBad L d.pages r.bmt blocks).length) =
          listed r.initBbt count ++ rawBad L d.pages r.bmt blocks)) r d := by
  induction blocks generalizing r count with
  | nil => exact ⟨rfl, rfl, rfl, fun _ => rfl, fun _ => ⟨rfl, by simp [rawBad, listed]⟩⟩
  | cons block blocks ih =>
      have insideRest := fun b hb => inside b (List.mem_cons_of_mem block hb)
      have keysRest := fun b hb => keys b (List.mem_cons_of_mem block hb)
      rw [scanBadblockRawFrom, wp_bind]
      refine doubt_checkBad (inside block List.mem_cons_self) fun marked hm => ?_
      rw [wp_bind, wp_get]
      have listedHere : marked = true ∧ r.bmt.isBadblockRaw block = true ↔
          (firstPage d.pages block).Marked L .raw ∧ r.bmt.isBadblockRaw block = true := by
        by_cases doubtful : pageAddr block ∈ d.doubt
        · simp [keys block List.mem_cons_self doubtful]
        · rw [hm doubtful]
      by_cases here : (firstPage d.pages block).Marked L .raw ∧ r.bmt.isBadblockRaw block = true
      · have cons : rawBad L d.pages r.bmt (block :: blocks) =
            block :: rawBad L d.pages r.bmt blocks :=
          List.filter_cons_of_pos (decide_eq_true here)
        rw [if_pos (listedHere.mpr here)]
        have length : count + (block :: rawBad L d.pages r.bmt blocks).length =
            count + 1 + (rawBad L d.pages r.bmt blocks).length := by
          simp only [List.length_cons]
          omega
        rw [cons, length]
        by_cases full : maxRawBadBlockSize ≤ count
        · rw [if_pos full]
          exact ⟨rfl, rfl, rfl, fun few => absurd few (by omega), by simp⟩
        · rw [if_neg full, wp_bind, wp_modify]
          refine wp_mono (fun done r' d' h => ?_) (ih (count + 1) insideRest keysRest)
          obtain ⟨hd, hbmt, hcontrol, few, hlist⟩ := h
          refine ⟨hd, hbmt, hcontrol, few, fun ok => ?_⟩
          obtain ⟨hcount, hlisted⟩ := hlist ok
          have before := listed_put r.initBbt count block
          refine ⟨hcount, ?_⟩
          rw [hlisted, before, List.append_assoc]
          rfl
      · have skip : rawBad L d.pages r.bmt (block :: blocks) = rawBad L d.pages r.bmt blocks := by
          simp only [rawBad, List.filter_cons, here, decide_false, Bool.false_eq_true, if_false]
        rw [if_neg fun h => here (listedHere.mp h), skip]
        exact ih count insideRest keysRest

/-- The blocks the scan visits. -/
def scannedBlocks (g : Geometry) : List ℕ := List.range' 1 (g.systemBlockCount - 1)

@[simp] theorem mem_scannedBlocks {block : ℕ} :
    block ∈ scannedBlocks g ↔ 1 ≤ block ∧ block < g.systemBlockCount := by
  simp only [scannedBlocks, List.mem_range'_1]
  omega

/-- `reconstruct_bbt` succeeds and lists the blocks, when its count fits a `u8`. -/
theorem doubt_reconstructBbt
    (keys : ∀ b < g.systemBlockCount, pageAddr b ∈ d.doubt → r.bmt.isBadblockRaw b = false) :
    wp (DoubtStep L) (reconstructBbt g) (fun done r' d' =>
      d' = d ∧ r'.bmt = r.bmt ∧ r'.control = r.control ∧
        ((rawBad L d.pages r.bmt (scannedBlocks g)).length < 256 →
          done = true ∧ r'.initBbt.bad = rawBad L d.pages r.bmt (scannedBlocks g))) r d := by
  have split := g.system_add_pool
  rw [reconstructBbt, wp_bind, wp_modify, scanBadblockRaw]
  refine wp_mono (fun done r' d' h => ?_) (doubt_scanBadblockRawFrom (g := g) (scannedBlocks g) 0
    (fun b hb => ?_) fun b hb => keys b (mem_scannedBlocks.mp hb).2)
  · obtain ⟨hd, hbmt, hcontrol, few, hlist⟩ := h
    refine ⟨hd, hbmt, hcontrol, fun short => ?_⟩
    have ok : done = true := few (by simp only [maxRawBadBlockSize]; omega)
    obtain ⟨hcount, hlisted⟩ := hlist ok
    simp only [Nat.zero_add] at hcount hlisted
    rw [Nat.mod_eq_of_lt short] at hcount
    refine ⟨ok, ?_⟩
    rw [InitBbtStruct.bad, hcount]
    simpa [listed] using hlisted
  · have := (mem_scannedBlocks.mp hb).2
    omega

/-! ## Start-up -/

/-- Where the BMT in memory comes from after `init_bmt`: a stored table, or the
back pointers of the pool when there is none. -/
inductive BmtSource (g : Geometry) (L : OobLayout) (r : Ram) (pages : ℕ → Page) (r' : Ram) : Prop
  | loaded (pool : g.InPool r'.bmtBlockIndex) (holds : HoldsBmt g L pages r'.bmtBlockIndex)
      (bmt : r'.bmt = (r.bmt.zeroTable g).load (firstPage pages r'.bmtBlockIndex).data)
      (need : r'.needWriteBmtToNand = r.needWriteBmtToNand)
  | rebuilt (absent : ∀ b, g.InPool b → ¬ HoldsBmt g L pages b) (index : r'.bmtBlockIndex = 0)
      (bmt : Appended (emptiedBmt g (r.bmt.zeroTable g)) r'.bmt
        (backPointers g L pages g.poolBlocks))
      (need : r'.needWriteBmtToNand = true)

/-- The result of `init_bmt`. Only first pages of bad blocks of the table have
been programmed. -/
structure BmtStarted (g : Geometry) (L : OobLayout) (r : Ram) (d : Doubt) (r' : Ram)
    (d' : Doubt) : Prop where
  source : BmtSource g L r d.pages r'
  initBbt : r'.initBbt = r.initBbt
  bbtBlockIndex : r'.bbtBlockIndex = r.bbtBlockIndex
  poolErased : r'.poolErased = false
  needBbt : r'.needWriteBbtToNand = r.needWriteBbtToNand
  touched : Touched (firstPagesOf (r'.bmt.live.map (·.badIndex))) d d'

/-- The same control variables. -/
theorem control_eq_iff {r r' : Ram} : r'.control = r.control ↔
    r'.bmtBlockIndex = r.bmtBlockIndex ∧ r'.bbtBlockIndex = r.bbtBlockIndex ∧
      r'.poolErased = r.poolErased ∧ r'.needWriteBmtToNand = r.needWriteBmtToNand ∧
      r'.needWriteBbtToNand = r.needWriteBbtToNand ∧ r'.pBbt = r.pBbt := by
  simp [Ram.control]

/-- `init_bmt` loads the image if there is one, and otherwise rebuilds the table. -/
theorem doubt_initBmt (few : (∀ b, g.InPool b → ¬ HoldsBmt g L d.pages b) →
      (backPointers g L d.pages g.poolBlocks).length ≤ 255)
    (fresh : ∀ b, g.InPool b → pageAddr b ∉ d.doubt) :
    wp (DoubtStep L) (initBmt g) (fun _ r' d' => BmtStarted g L r d r' d') r d := by
  rw [initBmt, wp_bind, wp_modify, wp_bind, loadBmtData]
  refine wp_mono (fun block r₁ d₁ loaded => ?_) (doubt_loadBmtFrom g.poolBlocks.reverse
    (fun b hb => g.mem_poolBlocks.mp (List.mem_reverse.mp hb))
    fun b hb => fresh b (g.mem_poolBlocks.mp (List.mem_reverse.mp hb)))
  rw [wp_bind, wp_modify]
  cases loaded with
  | none hbmt hinit hcontrol absent =>
      obtain ⟨-, hbbt, herased, hneed, hneedBbt, -⟩ := control_eq_iff.mp hcontrol
      have absent := fun b hb => absent b (List.mem_reverse.mpr (g.mem_poolBlocks.mpr hb))
      rw [if_pos rfl, wp_bind]
      refine wp_mono (fun _ r₂ d₂ rebuilt => ?_) (doubt_reconstructBmt (few absent) fresh)
      obtain ⟨appended, hinit', hcontrol', touched⟩ := rebuilt
      obtain ⟨hbmt', hbbt', herased', hneed', hneedBbt', -⟩ := control_eq_iff.mp hcontrol'
      rw [wp_modify]
      simp only [hbmt] at appended
      refine ⟨.rebuilt absent hbmt' appended rfl, hinit'.trans hinit, hbbt'.trans hbbt,
        herased'.trans herased, hneedBbt'.trans hneedBbt, ?_⟩
      have live : r₂.bmt.live = backPointers g L d.pages g.poolBlocks := by
        rw [appended.live]
        rfl
      simp only [live]
      exact touched
  | found mem holds hbmt hinit hcontrol touched =>
      obtain ⟨-, hbbt, herased, hneed, hneedBbt, -⟩ := control_eq_iff.mp hcontrol
      have pool := g.mem_poolBlocks.mp (List.mem_reverse.mp mem)
      rw [if_neg pool.pos]
      refine ⟨.loaded pool holds hbmt hneed, hinit, hbbt, herased, hneedBbt, ?_⟩
      simp only [hbmt, live_load]
      exact touched

/-- The result of `start_init_bbt`, from the array and the table of `init_bmt`. -/
inductive BbtStarted (g : Geometry) (L : OobLayout) (r : Ram) (pages : ℕ → Page) (done : Bool)
    (r' : Ram) : Prop
  | loaded (pool : g.InPool r'.bbtBlockIndex) (holds : HoldsBbt g L pages r'.bbtBlockIndex)
      (initBbt : r'.initBbt = r.initBbt.load (firstPage pages r'.bbtBlockIndex).data)
      (need : r'.needWriteBbtToNand = r.needWriteBbtToNand) (ok : done = true)
  | rebuilt (absent : ∀ b, g.InPool b → ¬ HoldsBbt g L pages b) (index : r'.bbtBlockIndex = 0)
      (initBbt : done = true → (rawBad L pages r.bmt (scannedBlocks g)).length < 256 →
        r'.initBbt.bad = rawBad L pages r.bmt (scannedBlocks g))
      (need : done = true → r'.needWriteBbtToNand = true)

/-- `start_init_bbt` loads the image if there is one, and otherwise scans the system blocks. -/
theorem doubt_startInitBbt (fresh : ∀ b, g.InPool b → pageAddr b ∉ d.doubt)
    (keys : ∀ b < g.systemBlockCount, pageAddr b ∈ d.doubt → r.bmt.isBadblockRaw b = false) :
    wp (DoubtStep L) (startInitBbt g) (fun done r' d' => d' = d ∧
      BbtStarted g L r d.pages done r' ∧ r'.bmt = r.bmt ∧ r'.bmtBlockIndex = r.bmtBlockIndex ∧
      r'.poolErased = r.poolErased ∧ r'.needWriteBmtToNand = r.needWriteBmtToNand) r d := by
  rw [startInitBbt, wp_bind, loadBbtData]
  refine wp_mono (fun block r₁ d₁ loaded => ?_) (doubt_loadBbtFrom g.poolBlocks
    (fun b hb => g.mem_poolBlocks.mp hb) fun b hb => fresh b (g.mem_poolBlocks.mp hb))
  rw [wp_bind, wp_modify]
  cases loaded with
  | none hbmt hinit hcontrol absent =>
      obtain ⟨hidx, -, herased, hneed, -, -⟩ := control_eq_iff.mp hcontrol
      have absent := fun b hb => absent b (g.mem_poolBlocks.mpr hb)
      rw [if_pos rfl, wp_bind]
      refine wp_mono (fun done r₂ d₂ rebuilt => ?_)
        (doubt_reconstructBbt (by simpa only [hbmt] using keys))
      obtain ⟨rfl, hbmt', hcontrol', hbad⟩ := rebuilt
      obtain ⟨hidx', hbbt', herased', hneed', -, -⟩ := control_eq_iff.mp hcontrol'
      simp only [hbmt] at hbad hbmt'
      cases done with
      | true =>
          rw [if_pos rfl, wp_bind, wp_modify]
          exact ⟨rfl, .rebuilt absent hbbt' (fun _ short => (hbad short).2) fun _ => rfl, hbmt',
            hidx'.trans hidx, herased'.trans herased, hneed'.trans hneed⟩
      | false =>
          rw [if_neg (by simp)]
          exact ⟨rfl, .rebuilt absent hbbt' (fun _ short => (hbad short).2) (by simp), hbmt',
            hidx'.trans hidx, herased'.trans herased, hneed'.trans hneed⟩
  | found mem holds hbmt hinit hcontrol =>
      obtain ⟨hidx, -, herased, hneed, hneedBbt, -⟩ := control_eq_iff.mp hcontrol
      have pool := g.mem_poolBlocks.mp mem
      rw [if_neg pool.pos]
      exact ⟨rfl, .loaded pool holds hinit hneedBbt rfl, hbmt, hidx, herased, hneed⟩

/-- The result of both, from the array as it was found. -/
structure Started (g : Geometry) (L : OobLayout) (r : Ram) (pages : ℕ → Page) (done : Bool)
    (r' : Ram) (pages' : ℕ → Page) : Prop where
  bmtSource : BmtSource g L r pages r'
  bbtSource : BbtStarted g L { r with bmt := r'.bmt } pages' done r'
  poolErased : r'.poolErased = false
  /-- Only first pages of bad blocks of the table have been programmed. -/
  untouched : ∀ p, p ∉ firstPagesOf (r'.bmt.live.map (·.badIndex)) → pages' p = pages p

/-- Pages in doubt after `init_bmt` belong to bad blocks of the table. -/
theorem key_of_touched {d d' : Doubt} {bmt : BmtStruct} (cold : d.doubt = ∅)
    (touched : Touched (firstPagesOf (bmt.live.map (·.badIndex))) d d') {b : ℕ}
    (doubtful : pageAddr b ∈ d'.doubt) : bmt.isBadblockRaw b = false := by
  rcases touched.doubt doubtful with before | ⟨c, hc, eq⟩
  · rw [cold] at before
    exact absurd before (Set.notMem_empty _)
  · obtain rfl := pageAddr_inj.mp eq
    obtain ⟨e, he, rfl⟩ := List.mem_map.mp hc
    rw [← Bool.not_eq_true, bmt.isBadblockRaw_iff]
    exact fun h => h e he rfl

/-- The source of the table, when the first scan has left the pages alone. -/
theorem BmtSource.of_same {pages : ℕ → Page} {r r₁ r' : Ram} (source : BmtSource g L r pages r₁)
    (bmt : r'.bmt = r₁.bmt) (index : r'.bmtBlockIndex = r₁.bmtBlockIndex)
    (need : r'.needWriteBmtToNand = r₁.needWriteBmtToNand) : BmtSource g L r pages r' := by
  cases source with
  | loaded pool holds hbmt hneed =>
      exact .loaded (index ▸ pool) (index ▸ holds) (by rw [bmt, index, hbmt]) (need.trans hneed)
  | rebuilt absent zero hbmt hneed =>
      exact .rebuilt absent (index.trans zero) (bmt ▸ hbmt) (need.trans hneed)

/-- The bad blocks of a table are system blocks, so that start-up programs no
page of the pool. -/
def SystemKeys (g : Geometry) (entries : List BmtEntry) : Prop :=
  ∀ e ∈ entries, e.badIndex < g.systemBlockCount

/-- A block of the pool is no bad block of such a table. -/
theorem SystemKeys.not_mem {entries : List BmtEntry} (keys : SystemKeys g entries) {b : ℕ}
    (pool : g.InPool b) : pageAddr b ∉ firstPagesOf (entries.map (·.badIndex)) := by
  rintro ⟨c, hc, eq⟩
  obtain ⟨e, he, rfl⟩ := List.mem_map.mp hc
  obtain rfl := pageAddr_inj.mp eq
  exact absurd pool.1 (not_le.mpr (keys e he))

/-- Back pointers name system blocks. -/
theorem systemKeys_backPointers (pages : ℕ → Page) (blocks : List ℕ) :
    SystemKeys g (backPointers g L pages blocks) := by
  intro e he
  simp only [backPointers, List.mem_map, List.mem_filter, decide_eq_true_eq] at he
  obtain ⟨b, ⟨-, points⟩, rfl⟩ := he
  exact points.2

/-- What counts of a rebuilt table. -/
theorem live_of_rebuilt {pages : ℕ → Page} {bmt bmt' : BmtStruct} {blocks : List ℕ}
    (h : Appended (emptiedBmt g bmt) bmt' (backPointers g L pages blocks)) :
    bmt'.live = backPointers g L pages blocks := by
  rw [h.live]
  rfl

/-- The bad blocks of the table start-up ends with are system blocks. -/
theorem Started.keys {pages pages' : ℕ → Page} {done : Bool} {r' : Ram}
    (started : Started g L r pages done r' pages')
    (stored : ∀ b, g.InPool b → HoldsBmt g L pages b →
      SystemKeys g (imageLive (firstPage pages b).data)) : SystemKeys g r'.bmt.live := by
  cases started.bmtSource with
  | loaded pool holds hbmt _ =>
      rw [hbmt, live_load]
      exact stored _ pool holds
  | rebuilt _ _ hbmt _ =>
      rw [live_of_rebuilt hbmt]
      exact systemKeys_backPointers _ _

/-- A bad-block table that start-up has found was there before. -/
theorem Started.bbt_found {pages pages' : ℕ → Page} {done : Bool} {r' : Ram}
    (started : Started g L r pages done r' pages')
    (stored : ∀ b, g.InPool b → HoldsBmt g L pages b →
      SystemKeys g (imageLive (firstPage pages b).data)) :
    r'.bbtBlockIndex = 0 ∨ g.InPool r'.bbtBlockIndex ∧ HoldsBbt g L pages r'.bbtBlockIndex := by
  cases started.bbtSource with
  | rebuilt _ index _ _ => exact .inl index
  | loaded pool holds _ _ _ =>
      have same := started.untouched _ ((started.keys stored).not_mem pool)
      refine .inr ⟨pool, ?_⟩
      simpa only [HoldsBbt, BlockBad, firstPage, same] using holds

/-- Both functions, from a cold start, when stored tables name system blocks as
their bad blocks. -/
theorem doubt_startTables (few : (∀ b, g.InPool b → ¬ HoldsBmt g L d.pages b) →
      (backPointers g L d.pages g.poolBlocks).length ≤ 255) (cold : d.doubt = ∅)
    (stored : ∀ b, g.InPool b → HoldsBmt g L d.pages b →
      SystemKeys g (imageLive (firstPage d.pages b).data)) :
    wp (DoubtStep L) (startTables g)
      (fun done r' d' => Started g L r d.pages done r' d'.pages) r d := by
  have freshAll : ∀ p, p ∉ d.doubt := fun p => by
    rw [cold]
    exact Set.notMem_empty p
  rw [startTables, wp_bind]
  refine wp_mono (fun _ r₁ d₁ started => ?_) (doubt_initBmt few fun b _ => freshAll _)
  have keys : SystemKeys g r₁.bmt.live := by
    cases started.source with
    | loaded pool holds hbmt _ =>
        rw [hbmt, live_load]
        exact stored _ pool holds
    | rebuilt _ _ hbmt _ =>
        rw [live_of_rebuilt hbmt]
        exact systemKeys_backPointers _ _
  refine wp_mono (fun done r₂ d₂ h => ?_) (doubt_startInitBbt
    (fun b hb => started.touched.fresh (freshAll _) (keys.not_mem hb))
    fun b _ doubtful => key_of_touched cold started.touched doubtful)
  obtain ⟨rfl, bbt, hbmt, hidx, herased, hneed⟩ := h
  refine ⟨started.source.of_same hbmt hidx hneed, ?_, herased.trans started.poolErased, ?_⟩
  · cases bbt with
    | loaded pool holds hinit need ok =>
        exact .loaded pool holds (by rw [hinit, started.initBbt]) (need.trans started.needBbt) ok
    | rebuilt absent index hbad need =>
        exact .rebuilt absent index (by rw [hbmt]; exact hbad) need
  · rw [hbmt]
    exact started.touched.pages

end En7512.Bmt
