/-
# What a block holds when its first page is programmed

A page is only ever programmed on top of what is there. So a block that is written from its
first page on ends with what it held before as much as with what is written. `firstPages`
takes that from a run: the ledger copies the pages whenever the first page of a block is
programmed.

`OverStep` describes every run on readable pages. Nothing is asked of the page in memory, of
the marks or of the blocks that fail. It knows which page is in memory, and that a read of
any other page answers what is on the flash.
-/

import En7512.Nand.Device

namespace En7512.Nand

open En7512.Logic

/-- For each block, the pages of the flash when its first page was programmed last. -/
abbrev FirstPages : Type := ℕ → ℕ → Page

/-- The ledger of the first pages. -/
def noteFirst : NandOp → (ℕ → Page) → FirstPages → FirstPages
  | .writePage page _ _ _ _ _, pages, first =>
      if page % pagePerBlock = 0 then Function.update first (page / pagePerBlock) pages else first
  | _, _, first => first

/-- The pages, the number of the page in memory, and the ledger. -/
structure Overwritten where
  pages : ℕ → Page
  held : Option ℕ
  first : FirstPages

/-- What each operation may answer and leave behind. -/
def OverStep : Rules NandOp NandResp Overwritten
  | .readPage page, w, answer, w' =>
      w' = { w with held := some page } ∧ ∃ dat mapping, answer = some (dat, mapping) ∧
        (w.held ≠ some page → dat = (w.pages page).data)
  | .checkBlockBad offset _, w, _, w' =>
      w' = { w with held := some (foldReserved offset / pageSize) }
  | .markBadblock offset _, w, _, w' =>
      ∃ new : Page, w' = { w with
        pages := Function.update w.pages (offset / pageSize) new
        held := some (offset / pageSize) }
  | .eraseBlock block, w, _, w' =>
      ∃ left : ℕ → Page,
        w' = { w with pages := fun p => if p / pagePerBlock = block then left p else w.pages p }
  | .writePage page dataOffset dat dataLen oob oobLen, w, ok, w' =>
      ∃ new : Page,
        (ok = true → ∀ i, dataOffset ≤ i → i < dataOffset + dataLen →
          new.data i = (w.pages page).data i &&& dat (i - dataOffset)) ∧
        w' = ⟨Function.update w.pages page new, some page,
          noteFirst (.writePage page dataOffset dat dataLen oob oobLen) w.pages w.first⟩
  | .clearCache, w, _, w' => w' = { w with held := none }

variable (env : Env)

/-- The page layer with the ledger of the first pages. -/
def firstMachine : Machine NandOp NandResp (Spi × FirstPages) :=
  Program.withRecord (nandMachine env) fun op s => noteFirst op s.chip.pages

/-- For each block, the pages of the flash when the run programs its first page for the last
time. -/
def firstPages {ρ α : Type} (m : Routine NandOp NandResp ρ α) (r : ρ) (s : Spi) : FirstPages :=
  ((Routine.exec (firstMachine env) m r (s, fun _ => s.chip.pages)).map fun out => out.2.2.2).getD
    fun _ => s.chip.pages

variable {env}
variable (readable : ∀ t p, env.uncorrectable t p = false)

include readable in
/-- A program leaves its page in memory, and on the flash what was there and is written. -/
theorem over_spiNandWritePage (page dataOffset : ℕ) (dat : Bytes) (dataLen : ℕ) (oob : Bytes)
    (oobLen : ℕ) (s : Spi) :
    let out := spiNandWritePage env page dataOffset dat dataLen oob oobLen s
    out.2.cache.pageNum = some page ∧
      (out.1 = .noError → ∀ i, dataOffset ≤ i → i < dataOffset + dataLen →
        (out.2.chip.pages page).data i = (s.chip.pages page).data i &&& dat (i - dataOffset)) := by
  have num := spiNandReadPage_pageNum readable page s
  have chip := @spiNandReadPage_chip env page s
  simp only [spiNandWritePage, Chip.program, chip]
  refine ⟨num, ?_⟩
  cases env.outcome s.chip.ticks with
  | done =>
      intro _ i low high
      simp only [if_pos, Page.and]
      rw [overlay_of_mem ⟨low, high⟩]
  | fail left => exact fun failed => absurd failed (by simp)

include readable in
/-- The page layer follows `OverStep` in every call. -/
theorem readable_overStep (op : NandOp) (s : Spi) (first : FirstPages) :
    OverStep op ⟨s.chip.pages, s.cache.pageNum, first⟩ (nandMachine env op s).1
      ⟨(nandMachine env op s).2.chip.pages, (nandMachine env op s).2.cache.pageNum,
        noteFirst op s.chip.pages first⟩ := by
  cases op with
  | readPage page =>
      have num := spiNandReadPage_pageNum readable page s
      simp only [nandMachine, en7512NandExecReadPage, spiNandReadPage_chip, num]
      refine ⟨rfl, ?_⟩
      by_cases held : s.cache.pageNum = some page
      · rw [spiNandReadPage_of_held held]
        exact ⟨_, _, rfl, fun other => absurd held other⟩
      · rw [spiNandReadPage_of_other readable held]
        exact ⟨_, _, rfl, fun _ => rfl⟩
  | checkBlockBad offset kind =>
      have num := spiNandReadPage_pageNum readable (foldReserved offset / pageSize) s
      simp only [nandMachine, en7512NandCheckBlockBad, spiNandReadPage_chip, num]
      rfl
  | markBadblock offset kind =>
      have change := @spiNandWritePage_pages env (offset / pageSize) 0 allOnes 0 kind.mark 8 s
      have held := (over_spiNandWritePage readable (offset / pageSize) 0 allOnes 0 kind.mark 8 s).1
      simp only [nandMachine, en7512NandMarkBadblock]
      exact ⟨_, by rw [← change, held]; rfl⟩
  | eraseBlock block =>
      simp only [nandMachine, spiNandEraseBlock]
      rcases Chip.eraseBlock_cases env block s.chip with ⟨-, pages⟩ | ⟨-, left, pages⟩
      · exact ⟨fun _ => .erased, by rw [pages]; rfl⟩
      · exact ⟨left, by rw [pages]; rfl⟩
  | writePage page dataOffset dat dataLen oob oobLen =>
      have change := @spiNandWritePage_pages env page dataOffset dat dataLen oob oobLen s
      obtain ⟨held, written⟩ :=
        over_spiNandWritePage readable page dataOffset dat dataLen oob oobLen s
      simp only [nandMachine]
      refine ⟨_, fun ok => written (of_decide_eq_true ok), ?_⟩
      rw [← change, held]
  | clearCache => rfl

include readable in
/-- What is proved of a routine over `OverStep` holds of its runs on the page layer. -/
theorem over_exec {ρ α : Type} {m : Routine NandOp NandResp ρ α} {r r' : ρ} {a : α} {s s' : Spi}
    {post : α → ρ → Overwritten → Prop}
    (h : Routine.wp OverStep m post r
      ⟨s.chip.pages, s.cache.pageNum, fun _ => s.chip.pages⟩)
    (run : Routine.exec (nandMachine env) m r s = some (a, r', s')) :
    post a r' ⟨s'.chip.pages, s'.cache.pageNum, firstPages env m r s⟩ := by
  have follows (op : NandOp) (w : Spi × FirstPages) (f : Overwritten)
      (rel : f = ⟨w.1.chip.pages, w.1.cache.pageNum, w.2⟩) (_ : True) :
      ∃ f', OverStep op f (firstMachine env op w).1 f' ∧
        f' = ⟨(firstMachine env op w).2.1.chip.pages, (firstMachine env op w).2.1.cache.pageNum,
          (firstMachine env op w).2.2⟩ := by
    subst rel
    exact ⟨_, readable_overStep readable op w.1 w.2, rfl⟩
  -- the run with the ledger
  obtain ⟨first, ran⟩ := Routine.exists_exec_withRecord
    (fun op s => noteFirst op s.chip.pages) run fun _ => s.chip.pages
  have ledger : firstPages env m r s = first := by
    rw [firstPages, firstMachine, ran]
    rfl
  rw [ledger]
  obtain ⟨_, rfl, told⟩ := Routine.exec_of_simulation
    (fun (w : Spi × FirstPages) f => f = (⟨w.1.chip.pages, w.1.cache.pageNum, w.2⟩ : Overwritten))
    follows rfl h (Program.keeps_of_forall (fun _ _ => trivial) _ _) ran
  exact told

end En7512.Nand
