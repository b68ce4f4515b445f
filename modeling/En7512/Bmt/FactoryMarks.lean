/-
# The factory marks of the pool

The size of the pool is counted at every start, from the factory marks on the
first pages of its blocks. The bad-block layer retires the blocks of the pool
with the other mark, never touches a block with a factory mark, and writes 0xff
over the byte of that mark everywhere else. So the set of the marked blocks of
the pool stays as it was, unless a page that carries the mark itself is moved.

The results hold for the page layer as it is, with whatever page is in memory.
-/

import En7512.Bmt.Consistency

namespace En7512.Bmt

open En7512.Logic En7512.Nand En7512.Logic.Routine

/-- A failed operation clears no bit that was not being programmed. What was being
programmed is the page in memory. -/
def Gentle (env : Env) (op : NandOp) (s : Spi) : Prop :=
  let s' := (nandMachine env op s).2
  let programming (page : ℕ) : Prop :=
    let goal := (s.chip.pages page).and ⟨s'.cache.data, s'.cache.oob⟩
    goal.and (s'.chip.pages page) = goal
  match op with
  | .eraseBlock block => (nandMachine env (.eraseBlock block) s).1 = false →
      ∀ p, p / pagePerBlock = block →
        (s.chip.pages p).and (s'.chip.pages p) = s.chip.pages p
  | .writePage page dataOffset dat dataLen oob oobLen =>
      (nandMachine env (.writePage page dataOffset dat dataLen oob oobLen) s).1 = false →
        programming page
  | .markBadblock offset kind => (nandMachine env (.markBadblock offset kind) s).1 = false →
      programming (offset / pageSize)
  | _ => True

/-- The first page of a block is not read when it carries the factory mark. Reading
is for loading a table, and for moving a block. -/
def ReadsUnmarked (env : Env) (op : NandOp) (s : Spi) : Prop :=
  match op with
  | .readPage page => page % pagePerBlock = 0 →
      ∀ content, (nandMachine env (.readPage page) s).1 = some content → content.2 0 = 0xff
  | _ => True

/-- The calls in which the marks are kept. -/
structure Orderly (env : Env) (op : NandOp) (s : Spi) : Prop where
  gentle : Gentle env op s
  unmarked : ReadsUnmarked env op s

/-- The rules of the page layer in orderly calls. -/
abbrev orderlyRules (env : Env) : Rules NandOp NandResp Spi :=
  Program.guarded (nandMachine env) (Orderly env)

/-- The blocks of the pool with a factory mark are those of `factory`, on the flash and
in what the page in memory shows. -/
structure Border (g : Geometry) (env : Env) (factory : Set ℕ) (s : Spi) : Prop where
  marked : ∀ b, g.InPool b → (b ∈ factory ↔ (firstPage s.chip.pages b).Marked env.layout .raw)
  copy : ∀ b, g.InPool b → s.cache.pageNum = some (pageAddr b) →
    (b ∈ factory ↔ s.cache.oobMapping 0 ≠ 0xff) ∧
      (b ∉ factory → s.cache.oob (env.layout.pos 0) = 0xff)

/-- The calls that put no factory mark into the pool and remove none there. -/
def KeepsMarks (g : Geometry) (factory : Set ℕ) : NandOp → Prop
  | .eraseBlock block => block ∉ factory
  | .writePage page _ _ _ oob _ =>
      ∀ b, g.InPool b → page = pageAddr b → b ∉ factory ∧ oob 0 = 0xff
  | .markBadblock offset kind =>
      ∀ b, g.InPool b → offset / pageSize = pageAddr b → b ∉ factory ∧ kind = .generateLater
  | _ => True

/-- What the answer of a call tells about the factory marks. -/
def TellsMarks (factory : Set ℕ) : (op : NandOp) → NandResp op → Prop
  | .readPage page, answer => page % pagePerBlock = 0 →
      ∃ content : Bytes × Bytes, answer = some content ∧ content.2 0 = 0xff
  | .checkBlockBad offset kind, answer =>
      ∀ b ∈ factory, kind = .raw → foldReserved offset / pageSize = pageAddr b → answer = true
  | _, _ => True

/-! ## Single calls -/

section Calls

variable {g : Geometry} {env : Env} {factory : Set ℕ} {s : Spi}
variable (readable : ∀ t p, env.uncorrectable t p = false)

include readable in
theorem border_read (border : Border g env factory s) (page : ℕ) :
    Border g env factory (spiNandReadPage env page s).2 := by
  by_cases held : s.cache.pageNum = some page
  · rw [spiNandReadPage_of_held held]
    exact border
  rw [spiNandReadPage_of_other readable held]
  refine ⟨border.marked, fun b pool num => ?_⟩
  obtain rfl : page = pageAddr b := by simpa [loaded] using num
  have marked := border.marked b pool
  have inside : 0 < env.layout.oobsize := BadKind.index_lt env.layout .raw
  simp only [loaded, env.layout.gather_of_lt inside]
  refine ⟨marked, fun out => ?_⟩
  by_contra other
  exact out (marked.mpr other)

/-- The byte of the factory mark, once it has been programmed. -/
theorem byte_of_goal {a b c : UInt8} (ha : a = 0xff) (hb : b = 0xff) (h : a &&& b &&& c = a &&& b) :
    c = 0xff := by
  subst ha hb
  simpa using h

include readable in
/-- Programming a page keeps the marks, if it is not the first page of a pool block or
leaves the byte of the mark alone. -/
theorem border_program (border : Border g env factory s) (page dataOffset : ℕ) (dat : Bytes)
    (dataLen : ℕ) (oob : Bytes) (oobLen : ℕ)
    (unmarking : ∀ b, g.InPool b → page = pageAddr b → b ∉ factory ∧ oob 0 = 0xff) :
    let out := spiNandWritePage env page dataOffset dat dataLen oob oobLen s
    (out.1 ≠ .noError → ((s.chip.pages page).and ⟨out.2.cache.data, out.2.cache.oob⟩).and
        (out.2.chip.pages page) = (s.chip.pages page).and ⟨out.2.cache.data, out.2.cache.oob⟩) →
    Border g env factory out.2 := by
  have read := border_read readable border page
  have num := spiNandReadPage_pageNum readable page s
  have same := @spiNandReadPage_chip env page s
  simp only [spiNandWritePage]
  generalize (spiNandReadPage env page s).2 = t at read num same
  intro gentle
  -- the byte that is programmed over the mark of a pool block
  have byte : ∀ b, g.InPool b → page = pageAddr b → b ∉ factory ∧
      env.layout.scatter t.cache.oob oob oobLen (env.layout.pos 0) = 0xff := by
    intro b pool eq
    obtain ⟨out, first⟩ := unmarking b pool eq
    refine ⟨out, ?_⟩
    have old := (read.copy b pool (eq ▸ num)).2 out
    have inside : 0 < env.layout.oobsize := BadKind.index_lt env.layout .raw
    rw [env.layout.scatter_pos _ _ _ inside, old, first]
    split <;> rfl
  constructor
  · intro b pool
    by_cases eq : page = pageAddr b
    · obtain ⟨out, programmed⟩ := byte b pool eq
      have before : (t.chip.pages page).oob (env.layout.pos 0) = 0xff := by
        by_contra other
        subst eq
        exact out ((read.marked b pool).mpr other)
      refine iff_of_false out (not_not_intro ?_)
      subst eq
      simp only [firstPage, Chip.program, BadKind.index] at gentle ⊢
      cases h : env.outcome t.chip.ticks with
      | done => simp [before, programmed]
      | fail left =>
          simp only [h, if_true] at gentle ⊢
          have kept := congrArg (fun p : Page => p.oob (env.layout.pos 0)) (gentle (by simp))
          simp only [Page.and_oob] at kept
          rw [← same] at kept
          exact byte_of_goal before programmed kept
    · have other : firstPage (t.chip.program env page
          ⟨overlay t.cache.data dataOffset dat dataLen,
            env.layout.scatter t.cache.oob oob oobLen⟩).2.pages b = firstPage t.chip.pages b := by
        simp only [firstPage, Chip.program]
        split <;> exact if_neg (Ne.symm eq)
      rw [other]
      exact read.marked b pool
  · intro b pool here
    obtain rfl : page = pageAddr b := Option.some.inj (num.symm.trans here)
    obtain ⟨out, programmed⟩ := byte b pool rfl
    exact ⟨(read.copy b pool num).1, fun _ => programmed⟩

include readable in
/-- Every orderly call that keeps the marks leaves the border as it is. -/
theorem border_call (border : Border g env factory s) (op : NandOp)
    (keeps : KeepsMarks g factory op)
    (orderly : Orderly env op s) (inPool : ∀ b ∈ factory, g.InPool b) :
    Border g env factory (nandMachine env op s).2 ∧
      TellsMarks factory op (nandMachine env op s).1 := by
  cases op with
  | readPage page =>
      refine ⟨border_read readable border page, fun first => ?_⟩
      have rtn : (spiNandReadPage env page s).1 = .noError := by
        by_cases held : s.cache.pageNum = some page
        · rw [spiNandReadPage_of_held held]
        · rw [spiNandReadPage_of_other readable held]
      have answer : (nandMachine env (.readPage page) s).1 = some
          ((spiNandReadPage env page s).2.cache.data,
            (spiNandReadPage env page s).2.cache.oobMapping) := by
        simp only [nandMachine, en7512NandExecReadPage, rtn, if_true]
      exact ⟨_, answer, orderly.unmarked first _ answer⟩
  | checkBlockBad offset kind =>
      have read := border_read readable border (foldReserved offset / pageSize)
      refine ⟨read, ?_⟩
      rintro b listed rfl page
      have num := spiNandReadPage_pageNum readable (foldReserved offset / pageSize) s
      have shown := (read.copy b (inPool b listed) (page ▸ num)).1.mp listed
      simpa only [nandMachine, en7512NandCheckBlockBad, BadKind.index, bne_iff_ne] using shown
  | markBadblock offset kind =>
      refine ⟨?_, trivial⟩
      apply border_program readable border (offset / pageSize) 0 allOnes 0 kind.mark 8
      · intro b pool eq
        obtain ⟨out, rfl⟩ := keeps b pool eq
        exact ⟨out, rfl⟩
      · intro failed
        apply orderly.gentle
        simpa only [nandMachine, en7512NandMarkBadblock, decide_eq_false_iff_not] using failed
  | eraseBlock block =>
      refine ⟨?_, trivial⟩
      have gentle := orderly.gentle
      simp only [Gentle, nandMachine, spiNandEraseBlock] at gentle ⊢
      refine ⟨fun b pool => ?_, border.copy⟩
      have marked := border.marked b pool
      rcases Chip.eraseBlock_cases env block s.chip with ⟨ok, pages⟩ | ⟨failed, left, pages⟩
      · by_cases eq : b = block
        · subst eq
          refine iff_of_false keeps (not_not_intro ?_)
          simp [firstPage, pages]
        · simpa only [firstPage, pages, pageAddr_div_self, eq, if_false] using marked
      · by_cases eq : b = block
        · subst eq
          have before : (firstPage s.chip.pages b).oob (env.layout.pos 0) = 0xff := by
            by_contra other
            exact keeps (marked.mpr other)
          have kept := gentle (by simp [failed]) _ (pageAddr_div_self b)
          have kept := congrArg (fun p : Page => p.oob (env.layout.pos 0)) kept
          simp only [Page.and_oob] at kept
          refine iff_of_false keeps (not_not_intro ?_)
          rw [firstPage] at before
          rw [before] at kept
          simpa [firstPage, BadKind.index] using kept
        · simpa only [firstPage, pages, pageAddr_div_self, eq, if_false] using marked
  | writePage page dataOffset dat dataLen oob oobLen =>
      refine ⟨?_, trivial⟩
      apply border_program readable border page dataOffset dat dataLen oob oobLen keeps
      intro failed
      apply orderly.gentle
      simpa only [nandMachine, decide_eq_false_iff_not] using failed
  | clearCache =>
      refine ⟨⟨border.marked, fun b pool num => ?_⟩, trivial⟩
      simp [nandMachine, clearReadCacheData] at num

end Calls

/-! ## The tables -/

/-- The entries of a table name system blocks, and blocks of the pool without a factory
mark. -/
def EntriesApart (g : Geometry) (factory : Set ℕ) (entries : List BmtEntry) : Prop :=
  ∀ e ∈ entries, e.badIndex < g.systemBlockCount ∧ g.InPool e.mappedIndex ∧ e.mappedIndex ∉ factory

/-- The tables use no block with a factory mark. -/
structure TablesApart (g : Geometry) (factory : Set ℕ) (r : Ram) : Prop where
  entries : EntriesApart g factory r.bmt.live
  bmt : r.bmtBlockIndex ∉ factory
  bbt : r.bbtBlockIndex ∉ factory

section Tables

variable {g : Geometry} {factory : Set ℕ} {bmt : BmtStruct} {badIndex mapIndex : ℕ} {r r' : Ram}

/-- One more entry. When the counter wraps there is none. -/
theorem EntriesApart.append (h : EntriesApart g factory bmt.live)
    (system : badIndex < g.systemBlockCount) (pool : g.InPool mapIndex) (out : mapIndex ∉ factory) :
    EntriesApart g factory (bmt.append badIndex mapIndex).live := by
  intro e he
  obtain ⟨i, hi, rfl⟩ := (BmtStruct.mem_live _).mp he
  simp only [BmtStruct.append] at hi ⊢
  have hi : i < bmt.mappedCount + 1 := hi.trans_le (Nat.mod_le _ _)
  by_cases last : i = bmt.mappedCount
  · subst last
    rw [Function.update_self]
    exact ⟨system, pool, out⟩
  · rw [Function.update_of_ne last]
    exact h _ ((BmtStruct.mem_live _).mpr ⟨i, by omega, rfl⟩)

theorem EntriesApart.remap (h : EntriesApart g factory bmt.live) (pool : g.InPool mapIndex)
    (out : mapIndex ∉ factory) : EntriesApart g factory (bmt.remap g badIndex mapIndex).live := by
  by_cases system : g.systemBlockCount ≤ badIndex
  · intro e he
    obtain ⟨i, hi, rfl⟩ := (BmtStruct.mem_live _).mp he
    simp only [BmtStruct.remap, if_pos system] at hi ⊢
    have old := h _ ((BmtStruct.mem_live _).mpr ⟨i, hi, rfl⟩)
    by_cases here : i = bmt.indexOfMapped g badIndex
    · rw [here] at old ⊢
      rw [Function.update_self]
      exact ⟨old.1, pool, out⟩
    · rw [Function.update_of_ne here]
      exact old
  · have same : bmt.remap g badIndex mapIndex = bmt.append badIndex mapIndex := if_neg system
    rw [same]
    exact h.append (not_le.mp system) pool out

theorem EntriesApart.unmapped (h : EntriesApart g factory bmt.live) {b : ℕ}
    (mapped : bmt.isBlockMapped b = true) : b ∉ factory := by
  obtain ⟨e, he, rfl⟩ := (BmtStruct.isBlockMapped_iff _).mp mapped
  exact (h e he).2.2

theorem TablesApart.of_same (h : TablesApart g factory r) (same : SameTables r r') :
    TablesApart g factory r' :=
  ⟨same.bmt ▸ h.entries, same.bmtBlockIndex ▸ h.bmt, same.bbtBlockIndex ▸ h.bbt⟩

/-- A block that is updated carries no factory mark. -/
theorem TablesApart.updatable (h : TablesApart g factory r) (inPool : ∀ b ∈ factory, g.InPool b)
    {b : ℕ} (updatable : Updatable g r b) : b ∉ factory := by
  rcases updatable with system | ⟨-, mapped⟩
  · exact fun listed => absurd (inPool b listed).1 (not_le.mpr system)
  · exact h.entries.unmapped mapped

end Tables

/-! ## The functions of the layer -/

section Functions

variable {g : Geometry} {env : Env} {factory : Set ℕ} {r : Ram} {s : Spi}
variable (readable : ∀ t p, env.uncorrectable t p = false)
variable (inPool : ∀ b ∈ factory, g.InPool b)

include readable inPool

theorem orderly_perform {op : NandOp} {post : NandResp op → Ram → Spi → Prop}
    (border : Border g env factory s) (keeps : KeepsMarks g factory op)
    (h : ∀ answer s', (answer, s') = nandMachine env op s → Border g env factory s' →
      TellsMarks factory op answer → post answer r s') :
    wp (orderlyRules env) (perform op) post r s := by
  rw [wp_perform]
  rintro answer s' ⟨orderly, eq⟩
  obtain ⟨rfl, rfl⟩ : answer = (nandMachine env op s).1 ∧ s' = (nandMachine env op s).2 := by
    simp [← eq]
  obtain ⟨border', told⟩ := border_call readable border op keeps orderly inPool
  exact h _ _ eq border' told

theorem orderly_checkBad {block : ℕ} {kind : BadKind} {post : Bool → Ram → Spi → Prop}
    (border : Border g env factory s) (inside : block < g.totalBlockCount)
    (h : ∀ marked s', Border g env factory s' → (kind = .raw → marked = false → block ∉ factory) →
      post marked r s') :
    wp (orderlyRules env) (nandBlockBadBmt (blockOffset block) kind) post r s := by
  have page : foldReserved (blockOffset block) / pageSize = pageAddr block := by
    rw [foldReserved_block inside, blockOffset_div_page]
  rw [nandBlockBadBmt]
  apply orderly_perform readable inPool border
  · trivial
  · intro marked s' _ border' told
    apply h marked s' border'
    rintro raw rfl listed
    exact Bool.noConfusion (told block listed raw page)

theorem orderly_blockMarkedBad {block : ℕ} {post : Bool → Ram → Spi → Prop}
    (border : Border g env factory s) (inside : block < g.totalBlockCount)
    (h : ∀ marked s', Border g env factory s' → (marked = false → block ∉ factory) →
      post marked r s') :
    wp (orderlyRules env) (blockMarkedBad block) post r s := by
  rw [blockMarkedBad, wp_bind]
  apply orderly_checkBad readable inPool border inside
  intro raw s₁ border₁ out
  cases raw with
  | true => exact h true s₁ border₁ (by simp)
  | false =>
      rw [if_neg (by simp)]
      apply orderly_checkBad readable inPool border₁ inside
      intro later s₂ border₂ _
      exact h later s₂ border₂ fun _ => out rfl rfl

theorem orderly_blockAvailable {block : ℕ} {post : Bool → Ram → Spi → Prop}
    (border : Border g env factory s) (inside : block < g.totalBlockCount)
    (h : ∀ available s', Border g env factory s' → (available = true → block ∉ factory) →
      post available r s') :
    wp (orderlyRules env) (blockAvailable block) post r s := by
  rw [blockAvailable, wp_bind, wp_get]
  split
  · exact h false s border (by simp)
  split
  · exact h false s border (by simp)
  rw [wp_bind]
  apply orderly_blockMarkedBad readable inPool border inside
  intro marked s' border' out
  cases marked with
  | true => exact h false s' border' (by simp)
  | false => exact h _ s' border' fun _ => out rfl

/-- The later mark on a block without a factory mark. -/
theorem orderly_markLater {block : ℕ} {post : Unit → Ram → Spi → Prop}
    (border : Border g env factory s) (out : block ∉ factory)
    (h : ∀ s', Border g env factory s' → post () r s') :
    wp (orderlyRules env) (markBlockBadBmt (blockOffset block) .generateLater) post r s := by
  rw [markBlockBadBmt, wp_bind]
  apply orderly_perform readable inPool border
  · intro b _ eq
    rw [blockOffset_div_page, pageAddr_inj] at eq
    exact ⟨eq ▸ out, rfl⟩
  · exact fun _ s' _ border' _ => h s' border'

theorem orderly_erase {block : ℕ} {post : Bool → Ram → Spi → Prop}
    (border : Border g env factory s) (out : block ∉ factory)
    (h : ∀ erased s', Border g env factory s' → post erased r s') :
    wp (orderlyRules env) (nandEraseBmt (blockOffset block)) post r s := by
  rw [nandEraseBmt, blockOffset_div_erase]
  apply orderly_perform readable inPool border
  · exact out
  · exact fun erased s' _ border' _ => h erased s' border'

/-- Writing to a block without a factory mark, to its first page with 0xff over the
byte of the mark. -/
theorem orderly_write {block page : ℕ} {dat oob : Bytes} {post : Bool → Ram → Spi → Prop}
    (border : Border g env factory s) (out : block ∉ factory) (inside : page < pagePerBlock)
    (unmarking : page = 0 → oob 0 = 0xff)
    (h : ∀ written s', Border g env factory s' → post written r s') :
    wp (orderlyRules env) (nandWritePageBmt (pageAddr block + page) dat oob) post r s := by
  rw [nandWritePageBmt]
  apply orderly_perform readable inPool border
  · intro b _ eq
    have here := pageAddr_div block inside
    rw [eq, pageAddr_div_self] at here
    subst here
    exact ⟨out, unmarking (by omega)⟩
  · exact fun written s' _ border' _ => h written s' border'

theorem orderly_writeFirst {block : ℕ} {dat : Bytes} {post : Bool → Ram → Spi → Prop}
    (border : Border g env factory s) (out : block ∉ factory)
    (h : ∀ written s', Border g env factory s' → post written r s') :
    wp (orderlyRules env) (nandWritePageBmt (pageAddr block) dat allOnes) post r s := by
  rw [← Nat.add_zero (pageAddr block)]
  exact orderly_write readable inPool border out (by decide) (fun _ => rfl) h

theorem orderly_erasePool (blocks : List ℕ) (pool : ∀ b ∈ blocks, g.InPool b)
    (border : Border g env factory s) :
    wp (orderlyRules env) (erasePool blocks) (fun _ _ s' => Border g env factory s') r s := by
  induction blocks generalizing s with
  | nil => exact border
  | cons block blocks ih =>
      have rest := fun {s₁} => @ih s₁ fun b hb => pool b (List.mem_cons_of_mem block hb)
      rw [erasePool, wp_bind]
      apply orderly_blockAvailable readable inPool border (pool block List.mem_cons_self).2
      intro available s₁ border₁ out
      cases available with
      | false => exact rest border₁
      | true =>
          rw [if_pos rfl, wp_bind]
          apply orderly_erase readable inPool border₁ (out rfl)
          intro erased s₂ border₂
          cases erased with
          | true => exact rest border₂
          | false =>
              rw [if_neg (by simp), wp_bind]
              apply orderly_markLater readable inPool border₂ (out rfl)
              exact fun s₃ border₃ => rest border₃

theorem orderly_scanPool (blocks : List ℕ) (pool : ∀ b ∈ blocks, g.InPool b)
    (border : Border g env factory s) :
    wp (orderlyRules env) (scanPool blocks) (fun block _ s' => Border g env factory s' ∧
      block ∉ factory ∧ (block ≠ 0 → g.InPool block)) r s := by
  induction blocks generalizing s with
  | nil => exact ⟨border, fun listed => (inPool 0 listed).pos rfl, fun ne => absurd rfl ne⟩
  | cons block blocks ih =>
      have here := pool block List.mem_cons_self
      rw [scanPool, wp_bind]
      apply orderly_blockAvailable readable inPool border here.2
      intro available s₁ border₁ out
      cases available with
      | false => exact ih (fun b hb => pool b (List.mem_cons_of_mem block hb)) border₁
      | true => exact ⟨border₁, out rfl, fun _ => here⟩

/-- `find_available_block` gives out no block with a factory mark. -/
theorem orderly_findAvailableBlock (startFromEnd : Bool) (border : Border g env factory s) :
    wp (orderlyRules env) (findAvailableBlock g startFromEnd) (fun block r' s' =>
      r' = { r with poolErased := true } ∧ Border g env factory s' ∧
        block ∉ factory ∧ (block ≠ 0 → g.InPool block)) r s := by
  have once : wp (orderlyRules env) (erasePoolOnce g) (fun _ _ s' => Border g env factory s')
      r s := by
    rw [erasePoolOnce, wp_bind, wp_get]
    split
    · exact border
    · rw [wp_bind]
      exact orderly_erasePool readable inPool _ (fun b hb => g.mem_poolBlocks.mp hb) border
  have found : wp (orderlyRules env) (findAvailableBlock g startFromEnd) (fun block _ s' =>
      Border g env factory s' ∧ block ∉ factory ∧ (block ≠ 0 → g.InPool block)) r s := by
    rw [findAvailableBlock, wp_bind]
    apply wp_mono _ once
    intro _ r₁ s₁ border₁
    apply orderly_scanPool readable inPool _ _ border₁
    intro b hb
    cases startFromEnd <;> simpa using hb
  apply wp_mono _ (wp_and found (wp_of_ensures (findAvailableBlock_ensures g startFromEnd)))
  exact fun block r' s' h => ⟨h.2.1, h.1⟩

/-! ### Moving a block -/

omit readable inPool in
theorem setBadIndexToOob_zero (oob : Bytes) (index : ℕ) : setBadIndexToOob oob index 0 = oob 0 := by
  simp [setBadIndexToOob, putU16]

omit readable inPool in
/-- The index leaves the byte of the factory mark alone. -/
theorem orderly_setIndex {errorBlock : ℕ} {post : Unit → Ram → Spi → Prop}
    (h : ∀ oob : Bytes, oob 0 = r.oobBuf 0 → post () { r with oobBuf := oob } s) :
    wp (orderlyRules env) (setIndexOfSystemBlock g errorBlock) post r s := by
  rw [setIndexOfSystemBlock]
  split
  · rw [wp_modify]
    exact h _ (setBadIndexToOob_zero _ _)
  · exact h r.oobBuf rfl

/-- Reading a page: a first page that is read carries no factory mark. -/
theorem orderly_readPage {page : ℕ} {post : Bool → Ram → Spi → Prop}
    (border : Border g env factory s)
    (h : ∀ (read : Bool) (datBuf oobBuf : Bytes) s', Border g env factory s' →
      (page % pagePerBlock = 0 → oobBuf 0 = 0xff) →
        post read { r with datBuf := datBuf, oobBuf := oobBuf } s') :
    wp (orderlyRules env) (nandReadPageBmt page) post r s := by
  rw [nandReadPageBmt, wp_bind]
  apply orderly_perform readable inPool border
  · trivial
  intro content s₁ _ border₁ told
  rcases content with _ | ⟨dat, oob⟩
  · apply h false r.datBuf r.oobBuf s₁ border₁
    intro first
    obtain ⟨content, eq, -⟩ := told first
    cases eq
  · apply h true _ _ s₁ border₁
    intro first
    obtain ⟨content, eq, shown⟩ := told first
    obtain rfl := Option.some.inj eq
    exact (overlay_of_mem ⟨le_rfl, by decide⟩).trans shown

theorem orderly_copyPages {errorBlock toIndex : ℕ} (out : toIndex ∉ factory) (copied : List ℕ)
    (inside : ∀ p ∈ copied, p < pagePerBlock) (border : Border g env factory s) :
    wp (orderlyRules env) (copyPages g errorBlock toIndex copied)
      (fun _ _ s' => Border g env factory s') r s := by
  induction copied generalizing r s with
  | nil => exact border
  | cons page copied ih =>
      have pageIn := inside page List.mem_cons_self
      rw [copyPages, wp_bind]
      apply orderly_readPage readable inPool border
      intro _ datBuf oobBuf s₁ border₁ first
      rw [wp_bind]
      apply orderly_setIndex
      intro oob same
      rw [wp_bind, wp_get, wp_bind]
      apply orderly_write readable inPool border₁ out pageIn
      · rintro rfl
        exact same.trans (first (Nat.mul_mod_left errorBlock pagePerBlock))
      · intro written s₂ border₂
        cases written with
        | false => exact border₂
        | true => exact ih (fun p hp => inside p (List.mem_cons_of_mem page hp)) border₂

theorem orderly_migrateTo {toIndex offset : ℕ} {dat oob : Option Bytes} (out : toIndex ∉ factory)
    (caller : offset / pageSize % pagePerBlock = 0 → ∀ o ∈ oob, o 0 = 0xff)
    (border : Border g env factory s) :
    wp (orderlyRules env) (migrateTo g toIndex offset dat oob)
      (fun _ _ s' => Border g env factory s') r s := by
  have inside : offset / pageSize % pagePerBlock < pagePerBlock := Nat.mod_lt _ (by decide)
  rw [migrateTo, wp_bind]
  apply wp_mono _ (orderly_copyPages readable inPool out _
    (fun p hp => (List.mem_range.mp hp).trans inside) border)
  intro done r₁ s₁ border₁
  cases done with
  | false => exact border₁
  | true =>
      rw [if_pos rfl]
      rcases dat with _ | dat
      · exact trivial
      rcases oob with _ | oob
      · exact trivial
      rw [writeErrorPage, wp_bind, wp_modify, wp_bind]
      apply orderly_setIndex
      intro spare same
      rw [wp_bind, wp_get]
      apply orderly_write readable inPool border₁ out inside
      · intro first
        apply same.trans
        show overlay allOnes 0 oob g.mtdOobsize 0 = 0xff
        rw [overlay]
        split
        · exact caller first oob rfl
        · rfl
      · exact fun _ s' border' => border'

theorem orderly_migrateFromBad (depth : ℕ) {offset : ℕ} {dat oob : Option Bytes}
    (caller : offset / pageSize % pagePerBlock = 0 → ∀ o ∈ oob, o 0 = 0xff)
    (border : Border g env factory s) :
    wp (orderlyRules env) (migrateFromBad g offset dat oob depth) (fun block _ s' =>
      Border g env factory s' ∧ block ∉ factory ∧ (block ≠ 0 → g.InPool block)) r s := by
  induction depth generalizing r s with
  | zero => exact trivial
  | succ depth ih =>
      rw [migrateFromBad, wp_bind]
      apply wp_mono _ (orderly_findAvailableBlock readable inPool false border)
      rintro toIndex r₁ s₁ ⟨-, border₁, out, pool⟩
      by_cases none : toIndex = 0
      · rw [if_pos none]
        exact ⟨border₁, none ▸ out, fun ne => absurd rfl ne⟩
      rw [if_neg none, wp_bind]
      apply wp_mono _ (orderly_migrateTo readable inPool out caller border₁)
      intro written r₂ s₂ border₂
      cases written with
      | true => exact ⟨border₂, out, pool⟩
      | false =>
          rw [if_neg (by simp), wp_bind]
          apply orderly_markLater readable inPool border₂ out
          exact fun s₃ border₃ => ih border₃

/-! ### Writing the tables -/

/-- The tables use no block with a factory mark, and the border is where it was. -/
def Apart (g : Geometry) (env : Env) (factory : Set ℕ) (r : Ram) (s : Spi) : Prop :=
  TablesApart g factory r ∧ Border g env factory s

theorem orderly_prepareBmtBlock (apart : TablesApart g factory r)
    (border : Border g env factory s) :
    wp (orderlyRules env) (prepareBmtBlock g) (fun _ => Apart g env factory) r s := by
  rw [prepareBmtBlock, wp_bind, wp_get]
  split
  · rw [wp_bind]
    apply wp_mono _ (orderly_findAvailableBlock readable inPool true border)
    rintro block r₁ s₁ ⟨rfl, border₁, out, -⟩
    rw [wp_bind, wp_modify]
    split <;> exact ⟨⟨apart.entries, out, apart.bbt⟩, border₁⟩
  · rw [wp_bind]
    apply orderly_erase readable inPool border apart.bmt
    intro erased s₁ border₁
    cases erased <;> exact ⟨apart, border₁⟩

theorem orderly_retireBmtBlock (apart : TablesApart g factory r) (border : Border g env factory s) :
    wp (orderlyRules env) retireBmtBlock (fun _ => Apart g env factory) r s := by
  rw [retireBmtBlock, wp_bind, wp_get, wp_bind]
  apply orderly_markLater readable inPool border apart.bmt
  intro s₁ border₁
  rw [wp_modify]
  exact ⟨⟨apart.entries, fun listed => (inPool 0 listed).pos rfl, apart.bbt⟩, border₁⟩

theorem orderly_writeBmtToFlash (depth : ℕ) (dat : Bytes) (apart : TablesApart g factory r)
    (border : Border g env factory s) :
    wp (orderlyRules env) (writeBmtToFlash g dat allOnes depth) (fun _ => Apart g env factory)
      r s := by
  induction depth generalizing r s with
  | zero => exact trivial
  | succ depth ih =>
      have again : ∀ {r₁ : Ram} {s₁ : Spi}, Apart g env factory r₁ s₁ →
          wp (orderlyRules env) (do
            retireBmtBlock
            writeBmtToFlash g dat allOnes depth) (fun _ => Apart g env factory) r₁ s₁ := by
        intro r₁ s₁ now
        rw [wp_bind]
        apply wp_mono _ (orderly_retireBmtBlock readable inPool now.1 now.2)
        exact fun _ r₂ s₂ now => ih now.1 now.2
      rw [writeBmtToFlash, wp_bind]
      apply wp_mono _ (orderly_prepareBmtBlock readable inPool apart border)
      intro prepared r₁ s₁ now
      cases prepared with
      | unavailable => exact now
      | eraseFailed => exact again now
      | ready =>
          show wp _ (_ >>= _) _ _ _
          rw [wp_bind, wp_get, wp_bind]
          apply orderly_writeFirst readable inPool now.2 now.1.bmt
          intro written s₂ border₂
          cases written with
          | true => exact ⟨now.1, border₂⟩
          | false => exact again ⟨now.1, border₂⟩

theorem orderly_writeBbtToFlash (depth : ℕ) (dat : Bytes) (apart : TablesApart g factory r)
    (border : Border g env factory s) :
    wp (orderlyRules env) (writeBbtToFlash g dat allOnes depth) (fun _ => Apart g env factory)
      r s := by
  induction depth generalizing r s with
  | zero => exact trivial
  | succ depth ih =>
      rw [writeBbtToFlash, wp_bind]
      apply wp_mono _ (orderly_findAvailableBlock readable inPool false border)
      rintro block r₁ s₁ ⟨rfl, border₁, out, -⟩
      have apart₁ : TablesApart g factory { r with poolErased := true, bbtBlockIndex := block } :=
        ⟨apart.entries, apart.bmt, out⟩
      rw [wp_bind, wp_modify]
      split
      · exact ⟨apart₁, border₁⟩
      rw [wp_bind]
      apply orderly_writeFirst readable inPool border₁ out
      intro written s₂ border₂
      cases written with
      | true => exact ⟨apart₁, border₂⟩
      | false =>
          rw [if_neg (by simp), wp_bind]
          apply orderly_markLater readable inPool border₂ out
          intro s₃ border₃
          rw [wp_bind, wp_modify]
          exact ih ⟨apart.entries, apart.bmt, fun listed => (inPool 0 listed).pos rfl⟩ border₃

/-! ### Replacing a block -/

theorem orderly_replacementBlock (depth : ℕ) {offset : ℕ} {reason : UpdateReason}
    {dat oob : Option Bytes}
    (caller : offset / pageSize % pagePerBlock = 0 → ∀ o ∈ oob, o 0 = 0xff)
    (border : Border g env factory s) :
    wp (orderlyRules env) (replacementBlock g depth offset reason dat oob) (fun block r' s' =>
      SameTables r r' ∧ Border g env factory s' ∧ block ∉ factory ∧
        (block ≠ 0 → g.InPool block)) r s := by
  have found : wp (orderlyRules env) (replacementBlock g depth offset reason dat oob)
      (fun block _ s' => Border g env factory s' ∧ block ∉ factory ∧
        (block ≠ 0 → g.InPool block)) r s := by
    rw [replacementBlock]
    split
    · exact orderly_migrateFromBad readable inPool depth caller border
    · apply wp_mono _ (orderly_findAvailableBlock readable inPool false border)
      exact fun _ _ _ h => h.2
  have same := replacementBlock_ensures (r := r) g depth offset reason dat oob
  apply wp_mono _ (wp_and found (wp_of_ensures same))
  exact fun block r' s' h => ⟨h.2.1, h.1⟩

/-- `update_bmt` keeps the border. -/
theorem orderly_updateBmt (depth : ℕ) {offset : ℕ} {reason : UpdateReason} {dat oob : Option Bytes}
    (updatable : Updatable g r (offset / eraseSize))
    (caller : offset / pageSize % pagePerBlock = 0 → ∀ o ∈ oob, o 0 = 0xff)
    (apart : TablesApart g factory r) (border : Border g env factory s) :
    wp (orderlyRules env) (updateBmt g depth offset reason dat oob)
      (fun _ => Apart g env factory) r s := by
  have notListed := apart.updatable inPool updatable
  rw [updateBmt, wp_bind]
  apply wp_mono _ (orderly_replacementBlock readable inPool depth caller border)
  rintro block r₁ s₁ ⟨same, border₁, out, pool⟩
  have apart₁ := apart.of_same same
  by_cases none : block = 0
  · rw [if_pos none]
    exact ⟨apart₁, border₁⟩
  rw [if_neg none, wp_bind, wp_modify, wp_bind, fillBmtBuffers, wp_modify, wp_bind, wp_get, wp_bind]
  have remapped : TablesApart g factory
      { r₁ with bmt := r₁.bmt.remap g (offset / eraseSize) block } :=
    ⟨apart₁.entries.remap (pool none) out, apart₁.bmt, apart₁.bbt⟩
  apply wp_mono _ (orderly_writeBmtToFlash readable inPool depth _
    (r := { r₁ with
      bmt := r₁.bmt.remap g (offset / eraseSize) block
      datBuf := fillNandBmtBuffer g (r₁.bmt.remap g (offset / eraseSize) block) allOnes
      oobBuf := allOnes }) ⟨remapped.entries, remapped.bmt, remapped.bbt⟩ border₁)
  intro written r₂ s₂ now
  cases written with
  | false => exact now
  | true =>
      rw [if_pos rfl, wp_bind, markBlockBadBmt, wp_bind]
      apply orderly_perform readable inPool now.2
      · intro b inside eq
        have block : offset / eraseSize = b := by rw [← page_div_block, eq, pageAddr_div_self]
        subst block
        exact ⟨notListed, if_pos inside.1⟩
      · exact fun _ s₃ _ border₃ _ => ⟨now.1, border₃⟩

/-! ### Loading and rebuilding the tables -/

/-- Only system blocks get the factory mark. -/
theorem orderly_markUnmarked (blocks : List ℕ) (system : ∀ b ∈ blocks, b < g.systemBlockCount)
    (border : Border g env factory s) :
    wp (orderlyRules env) (markUnmarked blocks) (fun _ r' s' => r' = r ∧ Border g env factory s')
      r s := by
  induction blocks generalizing s with
  | nil => exact ⟨rfl, border⟩
  | cons block blocks ih =>
      have rest := fun b hb => system b (List.mem_cons_of_mem block hb)
      have here := system block List.mem_cons_self
      rw [markUnmarked, wp_bind]
      apply orderly_checkBad readable inPool border (here.trans_le (Nat.sub_le ..))
      intro marked s₁ border₁ _
      cases marked with
      | true => exact ih rest border₁
      | false =>
          rw [if_neg (by simp), wp_bind, markBlockBadBmt, wp_bind]
          apply orderly_perform readable inPool border₁
          · intro b pool eq
            rw [blockOffset_div_page, pageAddr_inj] at eq
            exact absurd (eq ▸ pool.1) (not_le.mpr here)
          · exact fun _ s₂ _ border₂ _ => ih rest border₂

/-- Loading a table, if its bad blocks are system blocks. -/
theorem orderly_loadBmtFrom (blocks : List ℕ) (pool : ∀ b ∈ blocks, g.InPool b)
    (border : Border g env factory s) :
    wp (orderlyRules env) (loadBmtFrom g blocks) (fun block r' s' => block ∉ factory ∧
      (block = 0 ∨ SystemKeys g r'.bmt.live → Border g env factory s')) r s := by
  induction blocks generalizing r s with
  | nil => exact ⟨fun listed => (inPool 0 listed).pos rfl, fun _ => border⟩
  | cons block blocks ih =>
      have rest := fun {r₁ s₁} => @ih r₁ s₁ fun b hb => pool b (List.mem_cons_of_mem block hb)
      have here := pool block List.mem_cons_self
      rw [loadBmtFrom, wp_bind]
      apply orderly_blockMarkedBad readable inPool border here.2
      intro marked s₁ border₁ out
      cases marked with
      | true => exact rest border₁
      | false =>
          rw [if_neg (by simp), wp_bind]
          apply orderly_readPage readable inPool border₁
          intro read datBuf oobBuf s₂ border₂ _
          rw [wp_bind, wp_get]
          split
          · rw [wp_bind, wp_modify, wp_bind, wp_get, wp_bind]
            by_cases keys : SystemKeys g (r.bmt.load datBuf).live
            · have system : ∀ b ∈ (r.bmt.load datBuf).live.map (·.badIndex),
                  b < g.systemBlockCount := by
                intro b hb
                obtain ⟨e, he, rfl⟩ := List.mem_map.mp hb
                exact keys e he
              apply wp_mono _ (orderly_markUnmarked readable inPool _ system border₂)
              exact fun _ r' s' h => ⟨out rfl, fun _ => h.2⟩
            · apply wp_mono _ (wp_of_ensures (markUnmarked_ensures _))
              rintro _ r' s' rfl
              refine ⟨out rfl, fun h => ?_⟩
              exact absurd (h.resolve_left here.pos) keys
          · exact rest border₂

theorem orderly_loadBbtFrom (blocks : List ℕ) (pool : ∀ b ∈ blocks, g.InPool b)
    (apart : TablesApart g factory r) (border : Border g env factory s) :
    wp (orderlyRules env) (loadBbtFrom g blocks) (fun block r' s' =>
      block ∉ factory ∧ Apart g env factory r' s') r s := by
  induction blocks generalizing r s with
  | nil => exact ⟨fun listed => (inPool 0 listed).pos rfl, apart, border⟩
  | cons block blocks ih =>
      have rest := fun {r₁ s₁} => @ih r₁ s₁ fun b hb => pool b (List.mem_cons_of_mem block hb)
      rw [loadBbtFrom, wp_bind]
      apply orderly_blockMarkedBad readable inPool border (pool block List.mem_cons_self).2
      intro marked s₁ border₁ out
      cases marked with
      | true => exact rest apart border₁
      | false =>
          rw [if_neg (by simp), wp_bind]
          apply orderly_readPage readable inPool border₁
          intro read datBuf oobBuf s₂ border₂ _
          have apart₂ : TablesApart g factory { r with datBuf := datBuf, oobBuf := oobBuf } :=
            ⟨apart.entries, apart.bmt, apart.bbt⟩
          rw [wp_bind, wp_get]
          split
          · rw [wp_bind, wp_modify]
            exact ⟨out rfl, ⟨apart.entries, apart.bmt, apart.bbt⟩, border₂⟩
          · exact rest apart₂ border₂

theorem orderly_reconstructFrom (blocks : List ℕ) (pool : ∀ b ∈ blocks, g.InPool b)
    (apart : TablesApart g factory r) (border : Border g env factory s) :
    wp (orderlyRules env) (reconstructFrom g blocks) (fun _ => Apart g env factory) r s := by
  induction blocks generalizing r s with
  | nil => exact ⟨apart, border⟩
  | cons block blocks ih =>
      have rest := fun {r₁ s₁} => @ih r₁ s₁ fun b hb => pool b (List.mem_cons_of_mem block hb)
      have here := pool block List.mem_cons_self
      rw [reconstructFrom, wp_bind]
      apply orderly_blockMarkedBad readable inPool border here.2
      intro marked s₁ border₁ out
      cases marked with
      | true => exact rest apart border₁
      | false =>
          rw [if_neg (by simp), wp_bind]
          apply orderly_readPage readable inPool border₁
          intro read datBuf oobBuf s₂ border₂ _
          have apart₂ : TablesApart g factory { r with datBuf := datBuf, oobBuf := oobBuf } :=
            ⟨apart.entries, apart.bmt, apart.bbt⟩
          rw [wp_bind, wp_get]
          show wp _ (if g.systemBlockCount ≤ getBadIndexFromOob oobBuf then _ else _) _ _ _
          split
          · exact rest apart₂ border₂
          · next system =>
              rw [wp_bind]
              apply wp_mono _
                (orderly_markUnmarked readable inPool _ (by simpa using system) border₂)
              rintro _ r₃ s₃ ⟨rfl, border₃⟩
              rw [wp_bind, wp_modify]
              apply rest _ border₃
              exact ⟨apart.entries.append (not_le.mp system) here (out rfl), apart.bmt, apart.bbt⟩

theorem orderly_scanBadblockRawFrom (blocks : List ℕ) (count : ℕ)
    (inside : ∀ b ∈ blocks, b < g.totalBlockCount) (apart : TablesApart g factory r)
    (border : Border g env factory s) :
    wp (orderlyRules env) (scanBadblockRawFrom blocks count) (fun _ => Apart g env factory)
      r s := by
  induction blocks generalizing r s count with
  | nil => exact ⟨⟨apart.entries, apart.bmt, apart.bbt⟩, border⟩
  | cons block blocks ih =>
      have rest := fun {r₁ s₁} n => @ih r₁ s₁ n fun b hb => inside b (List.mem_cons_of_mem block hb)
      rw [scanBadblockRawFrom, wp_bind]
      apply orderly_checkBad readable inPool border (inside block List.mem_cons_self)
      intro marked s₁ border₁ _
      rw [wp_bind, wp_get]
      split
      · split
        · exact ⟨apart, border₁⟩
        · rw [wp_bind, wp_modify]
          apply rest _ _ border₁
          exact ⟨apart.entries, apart.bmt, apart.bbt⟩
      · exact rest count apart border₁

theorem orderly_startInitBbt (apart : TablesApart g factory r) (border : Border g env factory s) :
    wp (orderlyRules env) (startInitBbt g) (fun _ => Apart g env factory) r s := by
  have poolBlocks : ∀ b ∈ g.poolBlocks, g.InPool b := fun b hb => g.mem_poolBlocks.mp hb
  rw [startInitBbt, wp_bind, loadBbtData]
  apply wp_mono _ (orderly_loadBbtFrom readable inPool _ poolBlocks apart border)
  rintro block r₁ s₁ ⟨out, apart₁, border₁⟩
  rw [wp_bind, wp_modify]
  have found : TablesApart g factory { r₁ with bbtBlockIndex := block } :=
    ⟨apart₁.entries, apart₁.bmt, out⟩
  split
  · have cleared : TablesApart g factory
        { r₁ with bbtBlockIndex := block, initBbt := ⟨fun _ => 0, tableVersion, 0⟩ } :=
      ⟨found.entries, found.bmt, found.bbt⟩
    rw [wp_bind, reconstructBbt, wp_bind, wp_modify, scanBadblockRaw]
    apply wp_mono _ (orderly_scanBadblockRawFrom readable inPool _ 0 _ cleared border₁)
    · intro rebuilt r₂ s₂ now
      cases rebuilt with
      | true => exact ⟨⟨now.1.entries, now.1.bmt, now.1.bbt⟩, now.2⟩
      | false => exact now
    · intro b hb
      exact (mem_scannedBlocks.mp hb).2.trans_le (Nat.sub_le ..)
  · exact ⟨found, border₁⟩

theorem orderly_writeBbtOrBmtToFlash (depth : ℕ) (apart : TablesApart g factory r)
    (border : Border g env factory s) :
    wp (orderlyRules env) (writeBbtOrBmtToFlash g depth) (fun _ => Apart g env factory) r s := by
  have bmt : wp (orderlyRules env) (writeBmtIfNeeded g depth)
      (fun _ => Apart g env factory) r s := by
    rw [writeBmtIfNeeded, wp_bind, wp_get]
    split
    · rw [wp_bind, fillBmtBuffers, wp_modify, wp_bind, wp_get]
      exact orderly_writeBmtToFlash readable inPool depth _
        ⟨apart.entries, apart.bmt, apart.bbt⟩ border
    · exact ⟨apart, border⟩
  rw [writeBbtOrBmtToFlash, wp_bind]
  apply wp_mono _ bmt
  intro written r₁ s₁ now
  cases written with
  | false => exact now
  | true =>
      rw [if_pos rfl, writeBbtIfNeeded, wp_bind, wp_get]
      split
      · rw [wp_bind, fillBbtBuffers, wp_modify, wp_bind, wp_get]
        exact orderly_writeBbtToFlash readable inPool depth _
          ⟨now.1.entries, now.1.bmt, now.1.bbt⟩ now.2
      · exact now

end Functions

/-! ## Start-up -/

/-- The stored tables map system blocks to blocks of the pool without a factory mark. -/
def StoredApart (g : Geometry) (L : OobLayout) (factory : Set ℕ) (pages : ℕ → Page) : Prop :=
  ∀ b, g.InPool b → HoldsBmt g L pages b →
    EntriesApart g factory (imageLive (firstPage pages b).data)

/-- The logical blocks are numbered with system blocks. -/
def Numbered (g : Geometry) (r : Ram) : Prop :=
  ∀ i < g.systemBlockCount - r.initBbt.badblockCount, r.pBbt i < g.systemBlockCount

/-- The page layer, next to the array as it was found. -/
abbrev bootRules (env : Env) : Rules NandOp NandResp (Spi × Doubt) :=
  Program.paired (orderlyRules env) (DoubtStep env.layout)

section Startup

variable {g : Geometry} {env : Env} {factory : Set ℕ} {r : Ram} {s : Spi} {d : Doubt}
variable (readable : ∀ t p, env.uncorrectable t p = false)
variable (inPool : ∀ b ∈ factory, g.InPool b)

include readable inPool

theorem boot_initBmt (stored : StoredApart g env.layout factory d.pages) (cold : d.doubt = ∅)
    (unused : r.bbtBlockIndex ∉ factory) (border : Border g env factory s) :
    wp (bootRules env) (initBmt g) (fun _ r' w' => Apart g env factory r' w'.1) r (s, d) := by
  have blocks : ∀ b ∈ g.poolBlocks.reverse, g.InPool b :=
    fun b hb => g.mem_poolBlocks.mp (List.mem_reverse.mp hb)
  rw [initBmt, wp_bind, wp_modify, wp_bind, loadBmtData]
  apply wp_mono _ (wp_and (wp_left (orderly_loadBmtFrom readable inPool _ blocks border))
    (wp_right (doubt_loadBmtFrom _ blocks fun b _ => ?_)))
  · rintro block r₁ ⟨s₁, d₁⟩ ⟨⟨out, border₁⟩, loaded⟩
    rw [wp_bind, wp_modify]
    cases loaded with
    | none hbmt hinit hcontrol absent =>
        have kept : r₁.bbtBlockIndex = r.bbtBlockIndex := (control_eq_iff.mp hcontrol).2.1
        rw [if_pos rfl, wp_bind, reconstructBmt, wp_bind, wp_modify]
        apply wp_mono _ (wp_left (orderly_reconstructFrom readable inPool _
          (fun b hb => g.mem_poolBlocks.mp hb) _ (border₁ (.inl rfl))))
        · exact fun _ r₂ w₂ now => ⟨⟨now.1.entries, now.1.bmt, now.1.bbt⟩, now.2⟩
        · refine ⟨fun e he => ?_, out, kept ▸ unused⟩
          simp [BmtStruct.live] at he
    | found mem holds hbmt hinit hcontrol touched =>
        have kept : r₁.bbtBlockIndex = r.bbtBlockIndex := (control_eq_iff.mp hcontrol).2.1
        have pool := blocks block mem
        have entries : EntriesApart g factory r₁.bmt.live := by
          rw [hbmt, live_load]
          exact stored block pool holds
        rw [if_neg pool.pos]
        exact ⟨⟨entries, out, kept ▸ unused⟩, border₁ (.inr fun e he => (entries e he).1)⟩
  · rw [cold]
    exact Set.notMem_empty _

/-- The driver comes up with tables that keep away from the marked blocks. -/
theorem boot_spiNandSetup (depth : ℕ) (stored : StoredApart g env.layout factory d.pages)
    (cold : d.doubt = ∅) (unused : r.bbtBlockIndex ∉ factory) (border : Border g env factory s) :
    wp (bootRules env) (spiNandSetup g depth) (fun done r' w' =>
      Apart g env factory r' w'.1 ∧ (done = true → Numbered g r')) r (s, d) := by
  rw [spiNandSetup, wp_bind, startTables, wp_bind]
  apply wp_mono _ (boot_initBmt readable inPool stored cold unused border)
  intro _ r₁ w₁ now
  apply wp_mono _ (wp_left (orderly_startInitBbt readable inPool now.1 now.2))
  intro listed r₂ w₂ now
  cases listed with
  | false => exact ⟨now, by simp⟩
  | true =>
      rw [if_pos rfl, wp_bind]
      apply wp_mono _ (wp_left (orderly_writeBbtOrBmtToFlash readable inPool depth now.1 now.2))
      intro written r₃ w₃ now
      cases written with
      | false => exact ⟨now, by simp⟩
      | true =>
          refine ⟨⟨⟨now.1.entries, now.1.bmt, now.1.bbt⟩, now.2⟩, fun _ i hi => ?_⟩
          exact createBadblockTableByBbt_lt _ _ hi

omit inPool in
/-- What is proved over the pair holds of the runs of orderly calls. -/
theorem boot_exec {α : Type} {m : Drv α} {post : α → Ram → Spi × Doubt → Prop} {a : α} {r' : Ram}
    {s' : Spi} (rel : Doubts env s d) (h : wp (bootRules env) m post r (s, d))
    (keeps : Keeps (nandMachine env) (Orderly env) m r s)
    (run : exec (nandMachine env) m r s = some (a, r', s')) : ∃ d', post a r' (s', d') := by
  have follows (op : NandOp) (s : Spi) (w : Spi × Doubt) (rel : w.1 = s ∧ Doubts env s w.2)
      (orderly : Orderly env op s) :
      ∃ w', bootRules env op w (nandMachine env op s).1 w' ∧
        w'.1 = (nandMachine env op s).2 ∧ Doubts env (nandMachine env op s).2 w'.2 := by
    obtain ⟨rfl, rel⟩ := rel
    obtain ⟨d', step, rel'⟩ := nand_doubtStep readable op rel
    exact ⟨(_, d'), ⟨⟨orderly, rfl⟩, step⟩, rfl, rel'⟩
  obtain ⟨⟨_, d'⟩, ⟨rfl, -⟩, told⟩ := exec_of_simulation
    (fun s (w : Spi × Doubt) => w.1 = s ∧ Doubts env s w.2) follows ⟨rfl, rel⟩ h keeps run
  exact ⟨d', told⟩

end Startup

end En7512.Bmt
