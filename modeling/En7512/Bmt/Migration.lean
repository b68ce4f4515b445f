/-
# Moving a failed block

`migrate_from_bad` copies the pages before the failing one to a free block,
writes the failing page there from the caller's buffers, and starts again with
another block when a program fails. The new block then stores those pages, each
with the spare area the copy is to have; the pages behind the failing one stay
erased.

Between two calls at most one block is half written. Its first page is erased,
the copy, or what a failed program of the copy has left.
-/

import En7512.Bmt.Pool

namespace En7512.Bmt

open En7512.Logic En7512.Nand En7512.Logic.Routine

/-- The spare area a page gets when it is moved out of the block: that of a
system block gets the number of the block as its index. -/
def migratedOob (g : Geometry) (errorBlock : ℕ) (oob : Bytes) : Bytes :=
  if errorBlock < g.systemBlockCount then setBadIndexToOob oob errorBlock else oob

/-- The logical spare area of a page. -/
def pageOob (L : OobLayout) (p : Page) : Bytes := fun i => p.oob (L.pos i)

/-- The page stores the data and, as far as every layout reaches, the spare area
of a page that has been moved. -/
structure Stores (g : Geometry) (L : OobLayout) (errorBlock : ℕ) (dat oob : Bytes) (p : Page) :
    Prop where
  data : ∀ i < pageSize, p.data i = dat i
  oob : ∀ i < 32, pageOob L p i = migratedOob g errorBlock oob i

/-- The block has taken the place of the failed one. -/
structure Migrated (g : Geometry) (L : OobLayout) (before after : ℕ → Page) (offset : ℕ)
    (dat oob : Bytes) (block : ℕ) : Prop where
  copied : ∀ p < offset / pageSize % pagePerBlock,
    Stores g L (offset / eraseSize) (before (pageAddr (offset / eraseSize) + p)).data
      (pageOob L (before (pageAddr (offset / eraseSize) + p))) (after (pageAddr block + p))
  failing : Stores g L (offset / eraseSize) dat (overlay allOnes 0 oob g.mtdOobsize)
    (after (pageAddr block + offset / pageSize % pagePerBlock))
  rest : ∀ p, offset / pageSize % pagePerBlock < p → p < pagePerBlock →
    after (pageAddr block + p) = .erased

/-- The first page of the new block once it has been programmed, or the program of
it has failed: `dat` is what it is to store. -/
def FirstAttempt (g : Geometry) (L : OobLayout) (leftover : Leftover) (errorBlock : ℕ)
    (dat : Bytes) (block : ℕ) (new : Page) : Prop :=
  ∃ buf oob : Bytes, (∀ i < pageSize, buf i = dat i) ∧
    (errorBlock < g.systemBlockCount → getBadIndexFromOob oob = errorBlock) ∧
    (new = programmed L .erased 0 buf pageSize oob oobBufferSize ∨
      leftover (.writePage (pageAddr block) 0 buf pageSize oob oobBufferSize) .erased new)

/-- The data of the first page that is moved: the failing page, if it is the first
one of its block. -/
def firstData (pages : ℕ → Page) (offset : ℕ) (dat : Option Bytes) : Bytes :=
  if offset / pageSize % pagePerBlock = 0 then dat.getD allOnes
  else (firstPage pages (offset / eraseSize)).data

/-! ## Pages that have been moved -/

section Stored

variable {g : Geometry} {L : OobLayout} {errorBlock : ℕ}

theorem migratedOob_congr {oob oob' : Bytes} (same : ∀ i < 32, oob i = oob' i) :
    ∀ i < 32, migratedOob g errorBlock oob i = migratedOob g errorBlock oob' i := by
  intro i hi
  simp only [migratedOob]
  split
  · simp only [setBadIndexToOob, putU16]
    split
    · rfl
    · split
      · rfl
      · exact same i hi
  · exact same i hi

/-- The index a moved page of a system block carries. -/
theorem getBadIndexFromOob_migrated (system : errorBlock < g.systemBlockCount) (oob : Bytes) :
    getBadIndexFromOob (migratedOob g errorBlock oob) = errorBlock := by
  have total := g.totalBlockCount_le
  have split := g.system_add_pool
  rw [migratedOob, if_pos system]
  exact u16At_putU16 _ _ (by omega)

theorem Stores.pageIndex {dat oob : Bytes} {p : Page} (h : Stores g L errorBlock dat oob p) :
    Bmt.pageIndex L p = getBadIndexFromOob (migratedOob g errorBlock oob) :=
  u16At_congr (h.oob 2 (by norm_num)) (h.oob (2 + 1) (by norm_num))

/-- Programming a whole erased page. -/
theorem stores_programmed {buf bufOob dat oob : Bytes} (data : ∀ i < pageSize, buf i = dat i)
    (spare : ∀ i < 32, bufOob i = migratedOob g errorBlock oob i) :
    Stores g L errorBlock dat oob (programmed L .erased 0 buf pageSize bufOob oobBufferSize) := by
  have room := L.room
  constructor
  · intro i hi
    simp only [programmed, Page.erased_and, Page.erased_data]
    rw [overlay_page_of_lt _ _ hi, data i hi]
  · intro i hi
    simp only [pageOob, programmed, Page.erased_and, Page.erased_oob]
    rw [L.scatter_pos _ _ _ (lt_of_lt_of_le hi room), if_pos (by simp only [oobBufferSize]; omega)]
    simpa using spare i hi

end Stored

/-! ## Single calls -/

section Calls

variable {g : Geometry} {L : OobLayout} {leftover : Leftover} {kept : (ℕ → Page) → Prop}
  {r : Ram} {f : Flash}

theorem flash_readPage {page : ℕ} {post : Bool → Ram → Flash → Prop} (now : kept f.pages)
    (h : ∀ mapping, (f.pages page).Shows L mapping → post true
      { r with
        datBuf := overlay r.datBuf 0 (f.pages page).data pageSize
        oobBuf := overlay r.oobBuf 0 mapping oobBufferSize } f) :
    along (FlashStep L leftover) (fun f' => kept f'.pages) (nandReadPageBmt page) post r f := by
  rw [nandReadPageBmt]
  apply along_bind
  rw [along_perform]
  rintro answer f' ⟨rfl, mapping, rfl, shows⟩
  exact ⟨now, h mapping shows⟩

theorem flash_writePage {page : ℕ} {dat oob : Bytes} {post : Bool → Ram → Flash → Prop}
    (done : page / pagePerBlock ∉ f.failed →
      kept (Function.update f.pages page
          (programmed L (f.pages page) 0 dat pageSize oob oobBufferSize)) ∧
        post true r ⟨Function.update f.pages page
          (programmed L (f.pages page) 0 dat pageSize oob oobBufferSize), f.failed⟩)
    (fail : page / pagePerBlock ∉ f.failed → ∀ left,
      leftover (.writePage page 0 dat pageSize oob oobBufferSize) (f.pages page) left →
      kept (Function.update f.pages page left) ∧
        post false r ⟨Function.update f.pages page left,
          insert (page / pagePerBlock) f.failed⟩) :
    along (FlashStep L leftover) (fun f' => kept f'.pages) (nandWritePageBmt page dat oob)
      post r f := by
  rw [nandWritePageBmt, along_perform]
  rintro answer f' ⟨spared, ⟨rfl, rfl⟩ | ⟨rfl, left, leaves, rfl⟩⟩
  · exact done spared
  · exact fail spared left leaves

/-- The index goes into the buffer exactly as `migratedOob` says. -/
theorem along_setIndexOfSystemBlock {T : Rules NandOp NandResp Flash} {mid : Flash → Prop}
    {errorBlock : ℕ} {post : Unit → Ram → Flash → Prop}
    (h : post () { r with oobBuf := migratedOob g errorBlock r.oobBuf } f) :
    along T mid (setIndexOfSystemBlock g errorBlock) post r f := by
  rw [setIndexOfSystemBlock]
  split
  · next system =>
      rw [along_modify]
      simpa only [migratedOob, if_pos system] using h
  · next pool =>
      rw [along_pure]
      simpa only [migratedOob, if_neg pool] using h

/-- The logical spare area of a page, as it is read into `oob_buf`. -/
theorem overlay_shown {p : Page} {mapping before : Bytes} (shows : p.Shows L mapping) :
    ∀ i < 32, overlay before 0 mapping oobBufferSize i = pageOob L p i := by
  intro i hi
  have room := L.room
  rw [overlay_of_mem ⟨Nat.zero_le i, by simp only [oobBufferSize]; omega⟩, Nat.sub_zero]
  exact shows i (lt_of_lt_of_le hi room)

end Calls

/-! ## One attempt -/

/-- The flash while a block is being written: the other blocks are as they were,
and its first page is, or has just been attempted. -/
structure Writing (g : Geometry) (L : OobLayout) (leftover : Leftover) (errorBlock : ℕ)
    (dat : Bytes) (toIndex : ℕ) (pages pages' : ℕ → Page) : Prop where
  others : ∀ b ≠ toIndex, SameBlock pages pages' b
  first : firstPage pages' toIndex = firstPage pages toIndex ∨
    FirstAttempt g L leftover errorBlock dat toIndex (firstPage pages' toIndex)

section Attempt

variable {g : Geometry} {L : OobLayout} {leftover : Leftover} {kept : (ℕ → Page) → Prop}
  {r : Ram} {f : Flash} {errorBlock toIndex : ℕ} {dat : Bytes}

theorem Writing.refl (pages : ℕ → Page) :
    Writing g L leftover errorBlock dat toIndex pages pages := ⟨fun _ _ => .refl _ _, .inl rfl⟩

theorem Writing.trans {pages pages' pages'' : ℕ → Page}
    (h : Writing g L leftover errorBlock dat toIndex pages pages')
    (h' : Writing g L leftover errorBlock dat toIndex pages' pages'') :
    Writing g L leftover errorBlock dat toIndex pages pages'' := by
  refine ⟨fun b hb => (h.others b hb).trans (h'.others b hb), ?_⟩
  rcases h'.first with eq | attempt
  · rw [eq]
    exact h.first
  · exact .inr attempt

/-- Changing one page of the block. -/
theorem writing_update {pages : ℕ → Page} {page : ℕ} (inside : page < pagePerBlock) {new : Page}
    (first : page = 0 → FirstAttempt g L leftover errorBlock dat toIndex new) :
    Writing g L leftover errorBlock dat toIndex pages
      (Function.update pages (pageAddr toIndex + page) new) := by
  constructor
  · intro b hb
    apply sameBlock_update
    rw [pageAddr_div _ inside]
    exact hb.symm
  · by_cases hp : page = 0
    · subst hp
      right
      simpa only [firstPage, Nat.add_zero, Function.update_self] using first rfl
    · exact .inl (Function.update_of_ne (by omega) _ _)

/-- Writing one page of the new block. -/
theorem flash_writeMoved {page : ℕ} {buf oob : Bytes} {post : Bool → Ram → Flash → Prop}
    (inside : page < pagePerBlock)
    (erased : toIndex ∉ f.failed → f.pages (pageAddr toIndex + page) = .erased)
    (first : page = 0 → ∀ i < pageSize, buf i = dat i)
    (index : errorBlock < g.systemBlockCount → getBadIndexFromOob oob = errorBlock)
    (mid : ∀ pages', Writing g L leftover errorBlock dat toIndex f.pages pages' → kept pages')
    (done : toIndex ∉ f.failed → ∀ pages', pages' = Function.update f.pages
        (pageAddr toIndex + page) (programmed L .erased 0 buf pageSize oob oobBufferSize) →
      Writing g L leftover errorBlock dat toIndex f.pages pages' → post true r ⟨pages', f.failed⟩)
    (fail : ∀ pages', Writing g L leftover errorBlock dat toIndex f.pages pages' →
      post false r ⟨pages', insert toIndex f.failed⟩) :
    along (FlashStep L leftover) (fun f' => kept f'.pages)
      (nandWritePageBmt (pageAddr toIndex + page) buf oob) post r f := by
  have block : (pageAddr toIndex + page) / pagePerBlock = toIndex := pageAddr_div _ inside
  apply flash_writePage
  · intro spared
    rw [block] at spared
    rw [erased spared]
    have writing : Writing g L leftover errorBlock dat toIndex f.pages
        (Function.update f.pages (pageAddr toIndex + page)
          (programmed L .erased 0 buf pageSize oob oobBufferSize)) := by
      apply writing_update inside
      rintro rfl
      exact ⟨buf, oob, first rfl, index, .inl rfl⟩
    exact ⟨mid _ writing, done spared _ rfl writing⟩
  · intro spared left leaves
    rw [block] at spared ⊢
    rw [erased spared] at leaves
    have writing : Writing g L leftover errorBlock dat toIndex f.pages
        (Function.update f.pages (pageAddr toIndex + page) left) := by
      apply writing_update inside
      rintro rfl
      exact ⟨buf, oob, first rfl, index, .inr leaves⟩
    exact ⟨mid _ writing, fail _ writing⟩

/-- What the copy loop has done to the new block. -/
structure Copied (g : Geometry) (L : OobLayout) (errorBlock toIndex : ℕ) (copied : List ℕ)
    (f f' : Flash) : Prop where
  failed : f'.failed = f.failed
  stored : ∀ p ∈ copied, Stores g L errorBlock (f.pages (pageAddr errorBlock + p)).data
    (pageOob L (f.pages (pageAddr errorBlock + p))) (f'.pages (pageAddr toIndex + p))
  rest : ∀ p ∉ copied, f'.pages (pageAddr toIndex + p) = f.pages (pageAddr toIndex + p)

/-- The copy loop. -/
theorem flash_copyPages (apart : errorBlock ≠ toIndex) (copied : List ℕ)
    (inside : ∀ p ∈ copied, p < pagePerBlock) (nodup : copied.Nodup)
    (erased : toIndex ∉ f.failed → ∀ p ∈ copied, f.pages (pageAddr toIndex + p) = .erased)
    (first : 0 ∈ copied → dat = (firstPage f.pages errorBlock).data)
    (mid : ∀ pages', Writing g L leftover errorBlock dat toIndex f.pages pages' → kept pages') :
    along (FlashStep L leftover) (fun f' => kept f'.pages) (copyPages g errorBlock toIndex copied)
      (fun done _ f' => Writing g L leftover errorBlock dat toIndex f.pages f'.pages ∧
        (done = true → Copied g L errorBlock toIndex copied f f') ∧
        (done = false → f'.failed = insert toIndex f.failed)) r f := by
  induction copied generalizing r f with
  | nil => exact ⟨.refl _, fun _ => ⟨rfl, by simp, fun _ _ => rfl⟩, by simp⟩
  | cons page copied ih =>
      have pageIn := inside page List.mem_cons_self
      have insideRest := fun p hp => inside p (List.mem_cons_of_mem page hp)
      obtain ⟨fresh, nodupRest⟩ := List.nodup_cons.mp nodup
      have fromSource : page = 0 → ∀ i < pageSize,
          overlay r.datBuf 0 (f.pages (pageAddr errorBlock + page)).data pageSize i = dat i := by
        rintro rfl i hi
        rw [overlay_page_of_lt _ _ hi, first List.mem_cons_self]
        rfl
      rw [copyPages]
      apply along_bind
      refine flash_readPage (mid _ (.refl _)) fun mapping shows => ?_
      apply along_bind
      apply along_setIndexOfSystemBlock
      apply along_bind
      rw [along_get]
      apply along_bind
      have spare : ∀ i < 32,
          migratedOob g errorBlock (overlay r.oobBuf 0 mapping oobBufferSize) i =
            migratedOob g errorBlock (pageOob L (f.pages (pageAddr errorBlock + page))) i :=
        migratedOob_congr (overlay_shown shows)
      apply flash_writeMoved pageIn (fun out => erased out page List.mem_cons_self) fromSource
        (fun system => getBadIndexFromOob_migrated system _) mid
      · -- the page has been copied; the loop goes on from there
        intro out pages₁ eq writing
        have stored : Stores g L errorBlock (f.pages (pageAddr errorBlock + page)).data
            (pageOob L (f.pages (pageAddr errorBlock + page)))
            (pages₁ (pageAddr toIndex + page)) := by
          rw [eq, Function.update_self]
          exact stores_programmed (fun i hi => overlay_page_of_lt _ _ hi) spare
        have other : ∀ p ≠ page, pages₁ (pageAddr toIndex + p) = f.pages (pageAddr toIndex + p) :=
          fun p hp => by
            rw [eq]
            exact Function.update_of_ne (by omega) _ _
        have source : ∀ p < pagePerBlock,
            pages₁ (pageAddr errorBlock + p) = f.pages (pageAddr errorBlock + p) :=
          fun p hp => writing.others errorBlock apart _ (pageAddr_div _ hp)
        rw [if_pos rfl]
        refine along_mono (fun done r' f' h => ?_)
          (ih (f := ⟨pages₁, f.failed⟩) insideRest nodupRest
          (fun out p hp => ?_) (fun hz => ?_) fun pages' later => mid _ (writing.trans later))
        · obtain ⟨writing', ok, bad⟩ := h
          refine ⟨writing.trans writing', fun eq => ?_, bad⟩
          obtain ⟨failed, copies, rest⟩ := ok eq
          refine ⟨failed, fun p hp => ?_, fun p hp => ?_⟩
          · rcases List.mem_cons.mp hp with rfl | hp
            · rw [rest p fresh]
              exact stored
            · have copy := copies p hp
              simp only [source p (insideRest p hp)] at copy
              exact copy
          · rw [List.mem_cons, not_or] at hp
            exact (rest p hp.2).trans (other p hp.1)
        · have ne : p ≠ page := fun eq => fresh (eq ▸ hp)
          exact (other p ne).trans (erased out p (List.mem_cons_of_mem _ hp))
        · rw [first (List.mem_cons_of_mem _ hz)]
          have same := source 0 (by decide)
          simp only [Nat.add_zero] at same
          simp only [firstPage, same]
      · intro pages₁ writing
        exact ⟨writing, by simp, fun _ => rfl⟩

/-- The failing page. -/
theorem flash_writeErrorPage {errorPage : ℕ} (dat' oob' : Option Bytes)
    {post : Bool → Ram → Flash → Prop} (inside : errorPage < pagePerBlock)
    (erased : toIndex ∉ f.failed → f.pages (pageAddr toIndex + errorPage) = .erased)
    (first : errorPage = 0 → dat = dat'.getD allOnes)
    (mid : ∀ pages', Writing g L leftover errorBlock dat toIndex f.pages pages' → kept pages')
    (done : ∀ d o r' pages', dat' = some d → oob' = some o → toIndex ∉ f.failed →
      (∀ p ≠ errorPage, pages' (pageAddr toIndex + p) = f.pages (pageAddr toIndex + p)) →
      Stores g L errorBlock d (overlay allOnes 0 o g.mtdOobsize)
        (pages' (pageAddr toIndex + errorPage)) →
      Writing g L leftover errorBlock dat toIndex f.pages pages' → post true r' ⟨pages', f.failed⟩)
    (fail : ∀ r' pages', Writing g L leftover errorBlock dat toIndex f.pages pages' →
      post false r' ⟨pages', insert toIndex f.failed⟩) :
    along (FlashStep L leftover) (fun f' => kept f'.pages)
      (writeErrorPage g errorBlock toIndex errorPage dat' oob') post r f := by
  rcases dat' with _ | d
  · exact trivial
  rcases oob' with _ | o
  · exact trivial
  rw [writeErrorPage]
  apply along_bind
  rw [along_modify]
  apply along_bind
  apply along_setIndexOfSystemBlock
  apply along_bind
  rw [along_get]
  apply flash_writeMoved inside erased (fun hp i _ => by rw [first hp]; rfl)
    (fun system => getBadIndexFromOob_migrated system _) mid
  · intro out pages' eq writing
    refine done d o _ pages' rfl rfl out (fun p hp => ?_) ?_ writing
    · rw [eq]
      exact Function.update_of_ne (by omega) _ _
    · rw [eq, Function.update_self]
      exact stores_programmed (fun _ _ => rfl) fun _ _ => rfl
  · exact fun pages' writing => fail _ pages' writing

/-- One attempt to move the block. -/
theorem flash_migrateTo {offset : ℕ} (dat oob : Option Bytes)
    (apart : offset / eraseSize ≠ toIndex) (blank : toIndex ∉ f.failed → Blank f.pages toIndex)
    (mid : ∀ pages', Writing g L leftover (offset / eraseSize) (firstData f.pages offset dat)
      toIndex f.pages pages' → kept pages') :
    along (FlashStep L leftover) (fun f' => kept f'.pages) (migrateTo g toIndex offset dat oob)
      (fun done _ f' =>
        Writing g L leftover (offset / eraseSize) (firstData f.pages offset dat) toIndex
          f.pages f'.pages ∧
        (done = true → f'.failed = f.failed ∧ toIndex ∉ f.failed ∧
          ∃ d o, dat = some d ∧ oob = some o ∧ Migrated g L f.pages f'.pages offset d o toIndex) ∧
        (done = false → f'.failed = insert toIndex f.failed)) r f := by
  have inside : offset / pageSize % pagePerBlock < pagePerBlock := Nat.mod_lt _ (by decide)
  have erased : ∀ p < pagePerBlock, toIndex ∉ f.failed → f.pages (pageAddr toIndex + p) = .erased :=
    fun p hp out => blank out _ (pageAddr_div _ hp)
  rw [migrateTo]
  apply along_bind
  refine along_mono (fun copied r₁ f₁ h => ?_) (flash_copyPages apart
    (List.range (offset / pageSize % pagePerBlock))
    (fun p hp => lt_trans (List.mem_range.mp hp) inside) List.nodup_range
    (fun out p hp => erased p (lt_trans (List.mem_range.mp hp) inside) out)
    (fun hz => if_neg (by simpa using (List.mem_range.mp hz).ne')) mid)
  obtain ⟨writing, ok, bad⟩ := h
  cases copied with
  | false => exact ⟨writing, by simp, bad⟩
  | true =>
      obtain ⟨failed, stored, rest⟩ := ok rfl
      rw [if_pos rfl]
      apply flash_writeErrorPage dat oob inside
        (fun out => by rw [rest _ (by simp), erased _ inside (failed ▸ out)])
        (fun hp => if_pos hp) fun pages' later => mid _ (writing.trans later)
      · intro d o _ pages' hd ho out others storedLast later
        refine ⟨writing.trans later, fun _ => ⟨failed, failed ▸ out, d, o, hd, ho, ?_⟩, by simp⟩
        refine ⟨fun p hp => ?_, storedLast, fun p hp hp' => ?_⟩
        · simp only [others p hp.ne]
          exact stored p (List.mem_range.mpr hp)
        · simp only [others p hp.ne', rest p (by simpa using hp.le)]
          exact erased p hp' (failed ▸ out)
      · exact fun _ pages' later =>
          ⟨writing.trans later, by simp, fun _ => congrArg (insert toIndex) failed⟩

end Attempt

/-! ## `migrate_from_bad` -/

/-- The flash while a block is being moved. -/
def MigrateMid (g : Geometry) (L : OobLayout) (leftover : Leftover) (r : Ram) (offset : ℕ)
    (dat : Option Bytes) (pages pages' : ℕ → Page) : Prop :=
  ∃ toIndex, PoolMid g L leftover r pages pages' fun b p => b = toIndex ∧
    FirstAttempt g L leftover (offset / eraseSize) (firstData pages offset dat) toIndex p

/-- The flash after it. `block` is 0 when no block was left. -/
structure MigrateDone (g : Geometry) (L : OobLayout) (r : Ram) (offset : ℕ)
    (dat oob : Option Bytes) (f : Flash) (block : ℕ) (f' : Flash) : Prop where
  change : PoolChange g L r f f' {block}
  ready : ∀ b ≠ block, Free g L r f'.pages b → b ∉ f'.failed → Blank f'.pages b
  moved : block ≠ 0 → Free g L r f.pages block ∧ block ∉ f'.failed ∧
    ∃ d o, dat = some d ∧ oob = some o ∧ Migrated g L f.pages f'.pages offset d o block

section Migrate

variable {g : Geometry} {L : OobLayout} {leftover : Leftover} {kept : (ℕ → Page) → Prop}
  {r r₀ : Ram} {f f' f'' : Flash} {offset : ℕ} {dat oob : Option Bytes}

theorem SameTables.unused_iff (same : SameTables r₀ r) (b : ℕ) :
    Unused g r b ↔ Unused g r₀ b := by
  refine ⟨same.unused, fun free => ⟨free.pool, ?_, ?_, ?_⟩⟩
  · rw [same.bmtBlockIndex]; exact free.ne_bmt
  · rw [same.bbtBlockIndex]; exact free.ne_bbt
  · rw [same.bmt]; exact free.unmapped

theorem free_congr {pages : ℕ → Page} (same : ∀ b, Unused g r b ↔ Unused g r₀ b) (b : ℕ) :
    Free g L r pages b ↔ Free g L r₀ pages b :=
  ⟨fun h => ⟨(same b).mp h.unused, h.good⟩, fun h => ⟨(same b).mpr h.unused, h.good⟩⟩

theorem PoolChange.congr {work : Set ℕ} (same : ∀ b, Unused g r b ↔ Unused g r₀ b)
    (h : PoolChange g L r f f' work) : PoolChange g L r₀ f f' work :=
  ⟨fun b hb => h.same b fun free => hb ((free_congr same b).mp free), h.settled, h.failed_sub,
    h.failed_left⟩

theorem PoolMid.congr {pages pages' : ℕ → Page} {work : ℕ → Page → Prop}
    (same : ∀ b, Unused g r b ↔ Unused g r₀ b) (h : PoolMid g L leftover r pages pages' work) :
    PoolMid g L leftover r₀ pages pages' work :=
  ⟨fun b hb => h.same b fun free => hb ((free_congr same b).mp free), h.residue⟩

theorem Ready.congr (same : ∀ b, Unused g r b ↔ Unused g r₀ b) (h : Ready g L r f) :
    Ready g L r₀ f := fun b free out => h b ((free_congr same b).mpr free) out

theorem firstData_congr {pages pages' : ℕ → Page}
    (same : SameBlock pages pages' (offset / eraseSize)) :
    firstData pages' offset dat = firstData pages offset dat := by
  simp only [firstData, same.firstPage]

theorem Migrated.congr {before before' after : ℕ → Page} {d o : Bytes} {block : ℕ}
    (same : SameBlock before before' (offset / eraseSize))
    (h : Migrated g L before' after offset d o block) :
    Migrated g L before after offset d o block := by
  refine ⟨fun p hp => ?_, h.failing, h.rest⟩
  have eq := same _ (pageAddr_div _ (lt_trans hp (Nat.mod_lt _ (by decide))))
  rw [← eq]
  exact h.copied p hp

theorem MigrateMid.of_change {pages' : ℕ → Page} (change : PoolChange g L r f f' ∅)
    (same : SameBlock f.pages f'.pages (offset / eraseSize))
    (h : MigrateMid g L leftover r offset dat f'.pages pages') :
    MigrateMid g L leftover r offset dat f.pages pages' := by
  obtain ⟨toIndex, mid⟩ := h
  rw [firstData_congr same] at mid
  exact ⟨toIndex, change.trans_mid mid⟩

/-- A free block is being written. -/
theorem poolMid_writing {pages pages' : ℕ → Page} {errorBlock block : ℕ} {d : Bytes}
    (free : Free g L r pages block)
    (h : Writing g L leftover errorBlock d block pages pages') :
    PoolMid g L leftover r pages pages' fun b p => b = block ∧
      FirstAttempt g L leftover errorBlock d block p := by
  constructor
  · intro b hb
    apply h.others
    rintro rfl
    exact hb free
  · intro b
    by_cases hb : b = block
    · subst hb
      rcases h.first with eq | attempt
      · exact .inl (.same eq)
      · exact .inr ⟨rfl, attempt⟩
    · exact .inl (.same (h.others b hb).firstPage)

/-- `migrate_from_bad`, for a block that is not unused itself. -/
theorem flash_migrateFromBad (depth : ℕ) (same : SameTables r₀ r)
    (ready : r.poolErased = true → Ready g L r₀ f) (used : ¬ Unused g r₀ (offset / eraseSize))
    (mid : ∀ pages', MigrateMid g L leftover r₀ offset dat f.pages pages' → kept pages') :
    along (FlashStep L leftover) (fun f' => kept f'.pages) (migrateFromBad g offset dat oob depth)
      (fun block _ f' => MigrateDone g L r₀ offset dat oob f block f') r f := by
  induction depth generalizing r f with
  | zero => exact trivial
  | succ depth ih =>
      rw [migrateFromBad]
      apply along_bind
      refine along_mono (fun toIndex r₁ f₁ h => ?_) (flash_findAvailableBlock false
        (fun h => (ready h).congr fun b => (same.unused_iff b).symm)
        fun pages' h => mid pages' ⟨0, (h.congr same.unused_iff).mono fun _ _ => False.elim⟩)
      obtain ⟨rfl, change, ready₁, found⟩ := h
      replace change := change.congr same.unused_iff
      replace ready₁ := ready₁.congr same.unused_iff
      have same₁ : SameTables r₀ { r with poolErased := true } :=
        same.trans ⟨rfl, rfl, rfl, rfl, rfl, rfl, rfl⟩
      by_cases none : toIndex = 0
      · subst none
        rw [if_pos rfl]
        refine ⟨⟨change.same, fun b _ => change.settled b (Set.notMem_empty b), change.failed_sub,
          change.failed_left⟩, fun b _ => ready₁ b, fun ne => absurd rfl ne⟩
      have free := (free_congr same.unused_iff toIndex).mp (found none)
      have source : SameBlock f.pages f₁.pages (offset / eraseSize) :=
        change.same _ fun h => used h.unused
      have apart : offset / eraseSize ≠ toIndex := fun eq => used (eq ▸ free.unused)
      rw [if_neg none]
      apply along_bind
      refine along_mono (fun written r₂ f₂ h => ?_) (along_and_ensures (flash_migrateTo (r :=
        { r with poolErased := true }) dat oob apart (fun out => ready₁ _ free out)
        fun pages' writing => mid _ (MigrateMid.of_change change source
          ⟨toIndex, poolMid_writing free writing⟩)) (migrateTo_ensures g toIndex offset dat oob))
      obtain ⟨⟨writing, ok, bad⟩, tables⟩ := h
      cases written with
      | true =>
          obtain ⟨failed, out, d, o, hd, ho, moved⟩ := ok rfl
          rw [if_pos rfl]
          have change₂ : PoolChange g L r₀ f₁ f₂ {toIndex} := by
            refine ⟨fun b hb => writing.others b fun eq => hb (eq ▸ free), fun b hb => ?_,
              failed.subset, fun b hb out => absurd (failed ▸ hb) out⟩
            exact .inl (writing.others b fun eq => hb (Set.mem_singleton_iff.mpr eq))
          refine ⟨change.trans change₂, fun b ne hb out => ?_, fun _ => ⟨change.free free, ?_, d, o,
            hd, ho, moved.congr source⟩⟩
          · have same₂ := writing.others b ne
            exact same₂.blank (ready₁ b (hb.of_same same₂) (failed ▸ out))
          · exact failed ▸ out
      | false =>
          -- the block is marked, and the search starts again
          rw [if_neg (by simp)]
          apply along_bind
          refine flash_markBlock fun page marked => ?_
          rw [bad rfl]
          have others : ∀ p, p / pagePerBlock ≠ toIndex → f₂.pages p = f₁.pages p :=
            fun p hp => writing.others _ hp p rfl
          have change₃ := poolChange_marked free others marked
          have all := change.trans change₃
          have source₃ := all.same (offset / eraseSize) fun h => used h.unused
          refine ⟨mid _ ⟨0, all.mid⟩, ?_⟩
          refine along_mono (fun block r' f' h => ?_) (ih (same₁.trans tables)
            (fun _ => change₃.ready ready₁) fun pages' h => mid _ (h.of_change all source₃))
          refine ⟨all.trans h.change, h.ready, fun ne => ?_⟩
          obtain ⟨free', out, d, o, hd, ho, moved⟩ := h.moved ne
          exact ⟨all.free free', out, d, o, hd, ho, moved.congr source₃⟩

end Migrate

end En7512.Bmt
