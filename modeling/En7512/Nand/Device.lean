/-
# Two devices without a page in memory

The bad-block layer is verified against simpler devices than the page layer
itself. Neither of them has a page in memory.

`FlashStep` answers from the array alone. It describes the runs in which the
page in memory changes no answer and no effect of a call, every bad mark takes
effect on the page it is addressed to, and a block that has failed is not
programmed before its first page has been marked. It keeps the set of those
blocks.

`DoubtStep` describes every run from a cold start. It keeps a growing set of
pages that have been programmed or erased, and says nothing about what a read
or a check of those pages answers.
-/

import En7512.Nand.PageCache

namespace En7512.Nand

open En7512.Logic

/-- What programming leaves of a page. -/
def programmed (L : OobLayout) (old : Page) (dataOffset : ℕ) (dat : Bytes) (dataLen : ℕ)
    (oob : Bytes) (oobLen : ℕ) : Page :=
  old.and ⟨overlay old.data dataOffset dat dataLen, L.scatter old.oob oob oobLen⟩

/-- The mark is present on the page. -/
def Page.Marked (L : OobLayout) (p : Page) (kind : BadKind) : Prop :=
  p.oob (L.pos kind.index) ≠ 0xff

instance (L : OobLayout) (p : Page) (kind : BadKind) : Decidable (p.Marked L kind) :=
  inferInstanceAs (Decidable (_ ≠ _))

/-- The logical spare area of a page, as far as the layout reaches. -/
def Page.Shows (L : OobLayout) (p : Page) (mapping : Bytes) : Prop :=
  ∀ i < L.oobsize, mapping i = p.oob (L.pos i)

theorem BadKind.index_lt (L : OobLayout) (kind : BadKind) : kind.index < L.oobsize := by
  have room := L.room
  cases kind <;> simp only [BadKind.index] <;> omega

/-! ## The array alone -/

/-- The pages, and the blocks that have failed and carry no mark on their first page
since. -/
structure Flash where
  pages : ℕ → Page
  failed : Set ℕ

/-- The failed blocks once a mark has been put at the offset. Only a mark on the first
page of a block shows that it has failed. -/
def afterMark (offset : ℕ) (failed : Set ℕ) : Set ℕ :=
  if offset / pageSize % pagePerBlock = 0 then failed \ {offset / eraseSize} else failed

/-- What a failed operation may make of a page, given the operation and the page
before. -/
abbrev Leftover : Type := NandOp → Page → Page → Prop

/-- Failed operations may leave anything. -/
def anything : Leftover := fun _ _ _ => True

/-- What each operation may answer and leave behind. -/
def FlashStep (L : OobLayout) (leftover : Leftover) : Rules NandOp NandResp Flash
  | .readPage page, f, answer, f' =>
      f' = f ∧ ∃ mapping, answer = some ((f.pages page).data, mapping) ∧
        (f.pages page).Shows L mapping
  | .checkBlockBad offset kind, f, answer, f' =>
      f' = f ∧ (answer = true ↔ (f.pages (foldReserved offset / pageSize)).Marked L kind)
  | .markBadblock offset kind, f, _, f' =>
      ∃ page : Page, page.Marked L kind ∧
        f' = ⟨Function.update f.pages (offset / pageSize) page, afterMark offset f.failed⟩
  | .eraseBlock block, f, answer, f' =>
      answer = true ∧
          f' = ⟨fun p => if p / pagePerBlock = block then .erased else f.pages p, f.failed⟩ ∨
        answer = false ∧ ∃ left : ℕ → Page,
          (∀ p, p / pagePerBlock = block → leftover (.eraseBlock block) (f.pages p) (left p)) ∧
          f' = ⟨fun p => if p / pagePerBlock = block then left p else f.pages p,
            insert block f.failed⟩
  | .writePage page dataOffset dat dataLen oob oobLen, f, answer, f' =>
      page / pagePerBlock ∉ f.failed ∧
        (answer = true ∧ f' = ⟨Function.update f.pages page
            (programmed L (f.pages page) dataOffset dat dataLen oob oobLen), f.failed⟩ ∨
          answer = false ∧ ∃ left : Page,
            leftover (.writePage page dataOffset dat dataLen oob oobLen) (f.pages page) left ∧
            f' = ⟨Function.update f.pages page left, insert (page / pagePerBlock) f.failed⟩)
  | .clearCache, f, _, f' => f' = f

/-- The ledger of the blocks that have failed. -/
def noteFailed : (op : NandOp) → NandResp op → Set ℕ → Set ℕ
  | .markBadblock offset _, _, failed => afterMark offset failed
  | .eraseBlock block, ok, failed => if ok then failed else insert block failed
  | .writePage page _ _ _ _ _, ok, failed =>
      if ok then failed else insert (page / pagePerBlock) failed
  | _, _, failed => failed

variable (env : Env)

/-- The page layer with the ledger. -/
def watchMachine : Machine NandOp NandResp (Spi × Set ℕ) :=
  Program.withLedger (nandMachine env) noteFailed

/-- The page in memory changes neither the answer nor the effect of the call. No
caller looks at the answer of a mark, or at what else is on a page with one. -/
def Transparent (op : NandOp) (s : Spi) : Prop :=
  match op with
  | .markBadblock _ _ => True
  | op => (nandMachine env op s).1 = (uncachedMachine env op s).1 ∧
      (nandMachine env op s).2.chip = (uncachedMachine env op s).2.chip

/-- A bad mark takes effect on the page it is addressed to. -/
def MarkTakesEffect (op : NandOp) (s : Spi) : Prop :=
  match op with
  | .markBadblock offset kind =>
      ((nandMachine env op s).2.chip.pages (offset / pageSize)).Marked env.layout kind
  | _ => True

/-- No page is programmed in a block that has failed, before its first page is
marked. -/
def SparesFailed (op : NandOp) (failed : Set ℕ) : Prop :=
  match op with
  | .writePage page _ _ _ _ _ => page / pagePerBlock ∉ failed
  | _ => True

/-- A failed operation leaves what `leftover` allows. -/
def Leaves (leftover : Leftover) :
    (op : NandOp) → (before : ℕ → Page) → NandResp op → (after : ℕ → Page) → Prop
  | .eraseBlock block, before, ok, after => ok = false →
      ∀ p, p / pagePerBlock = block → leftover (.eraseBlock block) (before p) (after p)
  | .writePage page dataOffset dat dataLen oob oobLen, before, ok, after => ok = false →
      leftover (.writePage page dataOffset dat dataLen oob oobLen) (before page) (after page)
  | _, _, _, _ => True

/-- The calls `FlashStep` describes. -/
structure Careful (leftover : Leftover) (op : NandOp) (w : Spi × Set ℕ) : Prop where
  transparent : Transparent env op w.1
  marks : MarkTakesEffect env op w.1
  spares : SparesFailed op w.2
  leaves : Leaves leftover op w.1.chip.pages (nandMachine env op w.1).1
    (nandMachine env op w.1).2.chip.pages

theorem Careful.transparent_of_ne {env : Env} {leftover : Leftover} {op : NandOp}
    {w : Spi × Set ℕ} (careful : Careful env leftover op w)
    (unmarking : ∀ offset kind, op ≠ .markBadblock offset kind) :
    (nandMachine env op w.1).1 = (uncachedMachine env op w.1).1 ∧
      (nandMachine env op w.1).2.chip = (uncachedMachine env op w.1).2.chip := by
  have transparent := careful.transparent
  cases op with
  | markBadblock offset kind => exact absurd rfl (unmarking offset kind)
  | readPage _ => exact transparent
  | checkBlockBad _ _ => exact transparent
  | eraseBlock _ => exact transparent
  | writePage _ _ _ _ _ _ => exact transparent
  | clearCache => exact transparent

/-- What is said of a call besides: of its answer and of the pages it leaves. -/
abbrev Report : Type := (op : NandOp) → NandResp op → (ℕ → Page) → Prop

/-- The call is as the report says. -/
def Reported (report : Report) (op : NandOp) (w : Spi × Set ℕ) : Prop :=
  report op (nandMachine env op w.1).1 (nandMachine env op w.1).2.chip.pages

/-- `FlashStep` in calls that are as the report says. -/
def ReportedStep (L : OobLayout) (leftover : Leftover) (report : Report) :
    Rules NandOp NandResp Flash :=
  fun op f answer f' => FlashStep L leftover op f answer f' ∧ report op answer f'.pages

/-- The array of the page layer, with the ledger. -/
def flashOf (w : Spi × Set ℕ) : Flash := ⟨w.1.chip.pages, w.2⟩

section FlashSimulation

variable {env} {leftover : Leftover}
variable (readable : ∀ t p, env.uncorrectable t p = false)

include readable in
/-- Programming without a page in memory. -/
theorem uncached_write (page dataOffset : ℕ) (dat : Bytes) (dataLen : ℕ) (oob : Bytes)
    (oobLen : ℕ) (s : Spi) :
    let out := spiNandWritePage env page dataOffset dat dataLen oob oobLen (clearReadCacheData s)
    out.1 = .noError ∧ out.2.chip.pages = Function.update s.chip.pages page
        (programmed env.layout (s.chip.pages page) dataOffset dat dataLen oob oobLen) ∨
      out.1 = .programFail ∧ ∃ left : Page,
        out.2.chip.pages = Function.update s.chip.pages page left := by
  simp only [spiNandWritePage, spiNandReadPage_clear readable, loaded, Chip.program]
  cases env.outcome s.chip.ticks with
  | done =>
      refine .inl ⟨rfl, funext fun p => ?_⟩
      by_cases hp : p = page
      · subst hp
        simp [programmed]
      · simp [hp]
  | fail left =>
      refine .inr ⟨rfl, left page, funext fun p => ?_⟩
      by_cases hp : p = page
      · subst hp
        simp
      · simp [hp]

/-- A program changes one page. -/
theorem spiNandWritePage_pages (page dataOffset : ℕ) (dat : Bytes) (dataLen : ℕ) (oob : Bytes)
    (oobLen : ℕ) (s : Spi) :
    let out := spiNandWritePage env page dataOffset dat dataLen oob oobLen s
    out.2.chip.pages = Function.update s.chip.pages page (out.2.chip.pages page) := by
  funext p
  by_cases hp : p = page
  · subst hp
    simp
  · simp only [spiNandWritePage, Chip.program, Function.update_of_ne hp]
    split <;> simp [hp, spiNandReadPage_chip]

include readable in
/-- The driver without a page in memory follows `FlashStep`, up to its marks. -/
theorem uncached_flashStep (op : NandOp) (s : Spi) (failed : Set ℕ)
    (unmarking : ∀ offset kind, op ≠ .markBadblock offset kind)
    (spares : SparesFailed op failed)
    (leaves : Leaves leftover op s.chip.pages (uncachedMachine env op s).1
      (uncachedMachine env op s).2.chip.pages) :
    FlashStep env.layout leftover op ⟨s.chip.pages, failed⟩ (uncachedMachine env op s).1
      ⟨(uncachedMachine env op s).2.chip.pages,
        noteFailed op (uncachedMachine env op s).1 failed⟩ := by
  cases op with
  | readPage page =>
      simp only [uncachedMachine, nandMachine, en7512NandExecReadPage,
        spiNandReadPage_clear readable]
      exact ⟨rfl, _, rfl, fun i hi => env.layout.gather_of_lt hi⟩
  | checkBlockBad offset kind =>
      simp only [uncachedMachine, nandMachine, en7512NandCheckBlockBad,
        spiNandReadPage_clear readable, loaded]
      refine ⟨rfl, ?_⟩
      rw [env.layout.gather_of_lt (kind.index_lt env.layout)]
      exact bne_iff_ne
  | markBadblock offset kind => exact absurd rfl (unmarking offset kind)
  | eraseBlock block =>
      simp only [uncachedMachine, nandMachine, spiNandEraseBlock, clearReadCacheData, noteFailed]
      rcases Chip.eraseBlock_cases env block s.chip with ⟨ok, pages⟩ | ⟨ok, left, pages⟩
      · exact .inl ⟨by simp [ok], by simp [ok, pages]⟩
      · refine .inr ⟨by simp [ok], left, fun p hp => ?_, by simp [ok, pages]⟩
        have kept := leaves (by simp [uncachedMachine, nandMachine, spiNandEraseBlock,
          clearReadCacheData, ok]) p hp
        simpa only [uncachedMachine, nandMachine, spiNandEraseBlock, clearReadCacheData, pages, hp,
          if_true] using kept
  | writePage page dataOffset dat dataLen oob oobLen =>
      refine ⟨spares, ?_⟩
      have change := uncached_write readable page dataOffset dat dataLen oob oobLen s
      simp only [uncachedMachine, nandMachine, noteFailed]
      rcases change with ⟨rtn, pages⟩ | ⟨rtn, left, pages⟩
      · exact .inl ⟨by simp [rtn], by simp [rtn, pages]⟩
      · refine .inr ⟨by simp [rtn], left, ?_, by simp [rtn, pages]⟩
        have kept := leaves (by simp [uncachedMachine, nandMachine, rtn])
        simpa only [uncachedMachine, nandMachine, pages, Function.update_self] using kept
  | clearCache => rfl

include readable in
/-- The page layer follows `FlashStep` in the calls it describes. -/
theorem careful_flashStep (op : NandOp) (w : Spi × Set ℕ) (answer : NandResp op)
    (w' : Spi × Set ℕ)
    (step : Program.guarded (watchMachine env) (Careful env leftover) op w answer w') :
    FlashStep env.layout leftover op (flashOf w) answer (flashOf w') := by
  obtain ⟨careful, run⟩ := step
  simp only [watchMachine, Program.withLedger, Prod.mk.injEq] at run
  obtain ⟨rfl, rfl⟩ := run
  by_cases marking : ∃ offset kind, op = .markBadblock offset kind
  · obtain ⟨offset, kind, rfl⟩ := marking
    refine ⟨_, careful.marks, ?_⟩
    have change := @spiNandWritePage_pages env (offset / pageSize) 0 allOnes 0 kind.mark 8 w.1
    simp only [flashOf, noteFailed, nandMachine, en7512NandMarkBadblock, Flash.mk.injEq, and_true]
    exact change
  · simp only [not_exists] at marking
    obtain ⟨sameAnswer, sameChip⟩ := careful.transparent_of_ne marking
    have leaves := careful.leaves
    rw [sameAnswer, sameChip] at leaves
    have plain := uncached_flashStep readable op w.1 w.2 marking careful.spares leaves
    simp only [flashOf, sameAnswer, sameChip]
    exact plain

include readable in
/-- What is proved of a routine over `ReportedStep` holds of its runs on the page layer in
which every call is as the report says. -/
theorem reported_exec {ρ α : Type} {report : Report} {m : Routine NandOp NandResp ρ α} {r r' : ρ}
    {a : α} {post : α → ρ → Flash → Prop} {w w' : Spi × Set ℕ}
    (h : Routine.wp (ReportedStep env.layout leftover report) m post r (flashOf w))
    (keeps : Routine.Keeps (watchMachine env)
      (fun op w => Careful env leftover op w ∧ Reported env report op w) m r w)
    (run : Routine.exec (watchMachine env) m r w = some (a, r', w')) : post a r' (flashOf w') := by
  have follows (op : NandOp) (w : Spi × Set ℕ) (f : Flash) (rel : f = flashOf w)
      (ok : Careful env leftover op w ∧ Reported env report op w) :
      ∃ f', ReportedStep env.layout leftover report op f (watchMachine env op w).1 f' ∧
        f' = flashOf (watchMachine env op w).2 := by
    subst rel
    exact ⟨_, ⟨careful_flashStep readable op w _ _ ⟨ok.1, rfl⟩, ok.2⟩, rfl⟩
  obtain ⟨_, rfl, told⟩ :=
    Routine.exec_of_simulation (fun w f => f = flashOf w) follows rfl h keeps run
  exact told

include readable in
/-- What is proved of a routine over `FlashStep` holds of its runs on the page
layer. -/
theorem flash_exec {ρ α : Type} {m : Routine NandOp NandResp ρ α} {r r' : ρ} {a : α}
    {post : α → ρ → Flash → Prop} {w w' : Spi × Set ℕ}
    (h : Routine.wp (FlashStep env.layout leftover) m post r (flashOf w))
    (keeps : Routine.Keeps (watchMachine env) (Careful env leftover) m r w)
    (run : Routine.exec (watchMachine env) m r w = some (a, r', w')) : post a r' (flashOf w') := by
  have told : Routine.wp (ReportedStep env.layout leftover fun _ _ _ => True) m post r
      (flashOf w) :=
    Routine.wp_of_rules (fun _ _ _ _ step => step.1) h
  apply reported_exec readable told _ run
  exact Program.Keeps.mono (fun _ _ careful => ⟨careful, trivial⟩) keeps

end FlashSimulation

/-! ## Runs from a cold start -/

/-- The pages, and those about which nothing is said. -/
structure Doubt where
  pages : ℕ → Page
  doubt : Set ℕ

/-- What each operation may answer and leave behind. -/
def DoubtStep (L : OobLayout) : Rules NandOp NandResp Doubt
  | .readPage page, d, answer, d' =>
      d' = d ∧ (page ∉ d.doubt → ∃ mapping, answer = some ((d.pages page).data, mapping) ∧
        (d.pages page).Shows L mapping)
  | .checkBlockBad offset kind, d, answer, d' =>
      d' = d ∧ (foldReserved offset / pageSize ∉ d.doubt →
        (answer = true ↔ (d.pages (foldReserved offset / pageSize)).Marked L kind))
  | .markBadblock offset _, d, _, d' =>
      ∃ page : Page, d' = ⟨Function.update d.pages (offset / pageSize) page,
        insert (offset / pageSize) d.doubt⟩
  | .eraseBlock block, d, _, d' =>
      ∃ left : ℕ → Page, d' = ⟨fun p => if p / pagePerBlock = block then left p else d.pages p,
        {p | p / pagePerBlock = block} ∪ d.doubt⟩
  | .writePage page _ _ _ _ _, d, _, d' =>
      ∃ left : Page, d' = ⟨Function.update d.pages page left, insert page d.doubt⟩
  | .clearCache, d, _, d' => d' = d

/-- The pages agree, and a page in memory that is not in doubt is as on the chip. -/
structure Doubts (s : Spi) (d : Doubt) : Prop where
  pages : s.chip.pages = d.pages
  copy : ∀ p, s.cache.pageNum = some p → p ∉ d.doubt → Held.Describes env (some (p, .clean)) s

section DoubtSimulation

variable {env}
variable (readable : ∀ t p, env.uncorrectable t p = false)

include readable in
/-- Asking for a page keeps the relation, and gives a true copy of a page that is
not in doubt. -/
theorem doubts_read {s : Spi} {d : Doubt} (rel : Doubts env s d) (page : ℕ) :
    (spiNandReadPage env page s).1 = .noError ∧ Doubts env (spiNandReadPage env page s).2 d ∧
      (page ∉ d.doubt →
        Held.Describes env (some (page, .clean)) (spiNandReadPage env page s).2) := by
  by_cases held : s.cache.pageNum = some page
  · rw [spiNandReadPage_of_held held]
    exact ⟨rfl, rel, rel.copy page held⟩
  · rw [spiNandReadPage_of_other readable held]
    refine ⟨rfl, ⟨rel.pages, fun p hp _ => ?_⟩, fun _ => describes_loaded page s⟩
    obtain rfl : page = p := by simpa [loaded] using hp
    exact describes_loaded page s

/-- A page that is not touched stays as it is, and so does its copy. -/
theorem doubts_change {s s' : Spi} {d : Doubt} (rel : Doubts env s d) (touched : Set ℕ)
    (pages : ∀ p ∉ touched, s'.chip.pages p = s.chip.pages p)
    (pageNum : s'.cache.pageNum = s.cache.pageNum)
    (arrays : ∀ p ∉ touched, s.cache.pageNum = some p → s'.cache = s.cache) :
    Doubts env s' ⟨s'.chip.pages, touched ∪ d.doubt⟩ := by
  refine ⟨rfl, fun p hp fresh => ?_⟩
  have untouched : p ∉ touched := fun h => fresh (.inl h)
  rw [pageNum] at hp
  have before := rel.copy p hp fun h => fresh (.inr h)
  simpa only [Held.Describes, arrays p untouched hp, pages p untouched] using before

include readable in
theorem doubts_write {s : Spi} {d : Doubt} (rel : Doubts env s d) (page dataOffset : ℕ)
    (dat : Bytes) (dataLen : ℕ) (oob : Bytes) (oobLen : ℕ) :
    let s' := (spiNandWritePage env page dataOffset dat dataLen oob oobLen s).2
    ∃ left : Page, Doubts env s' ⟨Function.update d.pages page left, insert page d.doubt⟩ := by
  obtain ⟨-, after, -⟩ := doubts_read readable rel page
  have pageNum := spiNandReadPage_pageNum readable page s
  simp only [spiNandWritePage]
  generalize (spiNandReadPage env page s).2 = t at after pageNum
  have untouched : ∀ (new : Page) p, p ≠ page →
      (t.chip.program env page new).2.pages p = t.chip.pages p := by
    intro new p hp
    simp only [Chip.program]
    split <;> exact if_neg hp
  refine ⟨(t.chip.program env page ⟨overlay t.cache.data dataOffset dat dataLen,
    env.layout.scatter t.cache.oob oob oobLen⟩).2.pages page, ?_, fun p hp fresh => ?_⟩
  · funext p
    by_cases hp : p = page
    · subst hp
      simp
    · simp only [Function.update_of_ne hp, ← after.pages]
      exact untouched _ p hp
  · exact absurd (.inl (Option.some.inj (pageNum.symm.trans hp)).symm) fresh

include readable in
/-- The page layer follows `DoubtStep`. -/
theorem nand_doubtStep (op : NandOp) {s : Spi} {d : Doubt} (rel : Doubts env s d) :
    ∃ d', DoubtStep env.layout op d (nandMachine env op s).1 d' ∧
      Doubts env (nandMachine env op s).2 d' := by
  cases op with
  | readPage page =>
      obtain ⟨rtn, after, copy⟩ := doubts_read readable rel page
      refine ⟨d, ⟨rfl, fun fresh => ?_⟩, after⟩
      obtain ⟨-, data, -, mapping⟩ := copy fresh
      simp only [nandMachine, en7512NandExecReadPage, rtn, if_true, data]
      rw [after.pages] at mapping ⊢
      exact ⟨_, rfl, mapping⟩
  | checkBlockBad offset kind =>
      obtain ⟨-, after, copy⟩ := doubts_read readable rel (foldReserved offset / pageSize)
      refine ⟨d, ⟨rfl, fun fresh => ?_⟩, after⟩
      obtain ⟨-, -, -, mapping⟩ := copy fresh
      have entry := mapping _ (kind.index_lt env.layout)
      rw [after.pages] at entry
      simp only [nandMachine, en7512NandCheckBlockBad, entry]
      exact bne_iff_ne
  | markBadblock offset kind =>
      obtain ⟨left, after⟩ := doubts_write readable rel (offset / pageSize) 0 allOnes 0 kind.mark 8
      exact ⟨_, ⟨left, rfl⟩, after⟩
  | eraseBlock block =>
      refine ⟨_, ⟨((s.chip.eraseBlock env block).2.pages), rfl⟩, ?_⟩
      have untouched : ∀ p, p / pagePerBlock ≠ block →
          (s.chip.eraseBlock env block).2.pages p = s.chip.pages p := by
        intro p hp
        simp only [Chip.eraseBlock]
        split <;> exact if_neg hp
      have rel' : Doubts env (spiNandEraseBlock env block s).2
          ⟨(spiNandEraseBlock env block s).2.chip.pages,
            {p | p / pagePerBlock = block} ∪ d.doubt⟩ := doubts_change rel
        {p | p / pagePerBlock = block} (fun p hp => untouched p hp) rfl (fun _ _ _ => rfl)
      refine ⟨?_, rel'.copy⟩
      funext p
      simp only [nandMachine, spiNandEraseBlock]
      split
      · rfl
      · next hp => rw [untouched p hp, rel.pages]
  | writePage page dataOffset dat dataLen oob oobLen =>
      obtain ⟨left, after⟩ := doubts_write readable rel page dataOffset dat dataLen oob oobLen
      exact ⟨_, ⟨left, rfl⟩, after⟩
  | clearCache =>
      exact ⟨d, rfl, rel.pages, fun p hp => by simp [nandMachine, clearReadCacheData] at hp⟩

/-- A cold start doubts nothing. -/
theorem doubts_of_cold {s : Spi} (cold : s.cache.pageNum = none) :
    Doubts env s ⟨s.chip.pages, ∅⟩ :=
  ⟨rfl, fun p hp => by rw [cold] at hp; cases hp⟩

include readable in
/-- What is proved of a routine over `DoubtStep` holds of its runs on the page
layer. -/
theorem doubt_exec {ρ α : Type} {m : Routine NandOp NandResp ρ α} {r r' : ρ} {a : α}
    {post : α → ρ → Doubt → Prop} {s s' : Spi} {d : Doubt} (rel : Doubts env s d)
    (h : Routine.wp (DoubtStep env.layout) m post r d)
    (run : Routine.exec (nandMachine env) m r s = some (a, r', s')) :
    ∃ d', Doubts env s' d' ∧ post a r' d' := by
  have keeps : Routine.Keeps (nandMachine env) (fun _ _ => True) m r s :=
    Program.keeps_of_forall (fun _ _ => trivial) _ _
  exact Routine.exec_of_simulation (Doubts env) (fun op _ _ rel _ => nand_doubtStep readable op rel)
    rel h keeps run

end DoubtSimulation

end En7512.Nand
