/-
# What a remap keeps of the block

`migrate_from_bad` copies the pages before the failing one onto what the new block holds. The
pages behind it are not read, and are those of the new block afterwards. So whether a remap
keeps the block is decided by what the new block holds when it is begun: one that is erased
keeps a block that is written from its first page on, and loses the rest of one whose earlier
pages are written again. That is so in every run, whatever fails in it.
-/

import En7512.Bmt.Elsewhere
import En7512.Bmt.Persistence
import En7512.Nand.FirstPages

namespace En7512.Bmt

open En7512.Logic En7512.Nand En7512.Logic.Routine

/-- The entry of the table that an update for the block writes. -/
def BmtStruct.updatedEntry (g : Geometry) (bmt : BmtStruct) (badIndex : ℕ) : ℕ :=
  if g.systemBlockCount ≤ badIndex then bmt.indexOfMapped g badIndex else bmt.mappedCount

/-- The block that stands in for a block after an update for it. -/
def replacementOf (g : Geometry) (before after : BmtStruct) (badIndex : ℕ) : ℕ :=
  (after.table (before.updatedEntry g badIndex)).mappedIndex

/-- All pages of the block but one have the same data in the other block. -/
def SameDataBut (page : ℕ) (before after : ℕ → Page) (block other : ℕ) : Prop :=
  ∀ p < pagePerBlock, p ≠ page → ∀ i < pageSize,
    (after (pageAddr other + p)).data i = (before (pageAddr block + p)).data i

/-- No data is stored behind the page. -/
def EmptyBehind (page : ℕ) (pages : ℕ → Page) (block : ℕ) : Prop :=
  ∀ p, page < p → p < pagePerBlock → ∀ i < pageSize, (pages (pageAddr block + p)).data i = 0xff

section Preserve

variable {g : Geometry} {L : OobLayout} {r r' : Ram} {f f' : Flash} {offset : ℕ}

/-- The new block is what the updated entry names. -/
theorem replacementOf_remap {badIndex mapIndex : ℕ} (room : r.bmt.HasRoom g badIndex)
    (updatable : Updatable g r badIndex) :
    replacementOf g r.bmt (r.bmt.remap g badIndex mapIndex) badIndex = mapIndex := by
  rw [replacementOf, BmtStruct.updatedEntry]
  rcases updatable with system | ⟨pool, -⟩
  · rw [if_neg (not_le.mpr system), (remap_system r.bmt mapIndex system room).2, if_pos rfl]
  · rw [if_pos pool.1, (remap_pool r.bmt mapIndex pool).2, if_pos rfl]

/-- The new block is mapped. -/
theorem remap_mapped (disjoint : DisjointBmt g r) {badIndex : ℕ}
    (room : r.bmt.HasRoom g badIndex) (updatable : Updatable g r badIndex) (mapIndex : ℕ) :
    (r.bmt.remap g badIndex mapIndex).isBlockMapped mapIndex = true := by
  rw [BmtStruct.isBlockMapped_iff]
  rcases updatable with system | ⟨pool, mapped⟩
  · obtain ⟨count, entry⟩ := remap_system r.bmt mapIndex system room
    refine ⟨_, (BmtStruct.mem_live _).mpr ⟨r.bmt.mappedCount, by omega, rfl⟩, ?_⟩
    rw [entry, if_pos rfl]
  · obtain ⟨count, entry⟩ := remap_pool r.bmt mapIndex pool
    obtain ⟨inside, -⟩ := indexOfMapped_live disjoint mapped pool
    refine ⟨_, (BmtStruct.mem_live _).mpr ⟨r.bmt.indexOfMapped g badIndex, by omega, rfl⟩, ?_⟩
    rw [entry, if_pos rfl]

theorem Migrated.of_sameBlock {before after after' : ℕ → Page} {dat oob : Bytes} {block : ℕ}
    (moved : Migrated g L before after offset dat oob block)
    (same : SameBlock after after' block) : Migrated g L before after' offset dat oob block := by
  have inside : offset / pageSize % pagePerBlock < pagePerBlock := Nat.mod_lt _ (by decide)
  have eq : ∀ p < pagePerBlock, after' (pageAddr block + p) = after (pageAddr block + p) :=
    fun p hp => same _ (pageAddr_div _ hp)
  constructor
  · intro p hp
    rw [eq p (hp.trans inside)]
    exact moved.copied p hp
  · rw [eq _ inside]
    exact moved.failing
  · intro p behind hp
    rw [eq p hp]
    exact moved.rest p behind hp

end Preserve

/-! ## One attempt -/

/-- The block is as it was, and its first page has not been programmed since. -/
structure Untouched (b : ℕ) (w w' : Overwritten) : Prop where
  same : SameBlock w.pages w'.pages b
  first : w'.first b = w.first b

theorem Untouched.refl (b : ℕ) (w : Overwritten) : Untouched b w w := ⟨.refl _ _, rfl⟩

theorem Untouched.trans {b : ℕ} {w w' w'' : Overwritten} (h : Untouched b w w')
    (h' : Untouched b w' w'') : Untouched b w w'' :=
  ⟨h.same.trans h'.same, h'.first.trans h.first⟩

/-- Programming a page of another block. -/
theorem noteFirst_of_ne {page b : ℕ} (other : page / pagePerBlock ≠ b) (dataOffset : ℕ)
    (dat : Bytes) (dataLen : ℕ) (oob : Bytes) (oobLen : ℕ) (pages : ℕ → Page) (first : FirstPages) :
    noteFirst (.writePage page dataOffset dat dataLen oob oobLen) pages first b = first b := by
  rw [noteFirst]
  split
  · exact Function.update_of_ne other.symm _ _
  · rfl

/-- An operation on another block does not touch this one. -/
theorem untouched_step {b : ℕ} (op : NandOp) (w : Overwritten) (answer : NandResp op)
    (w' : Overwritten) (elsewhere : Elsewhere b op) (step : OverStep op w answer w') :
    Untouched b w w' := by
  cases op with
  | readPage page =>
      obtain ⟨rfl, -⟩ := step
      exact ⟨.refl _ _, rfl⟩
  | checkBlockBad offset kind =>
      obtain rfl := step
      exact ⟨.refl _ _, rfl⟩
  | markBadblock offset kind =>
      obtain ⟨new, rfl⟩ := step
      exact ⟨sameBlock_update (by rw [page_div_block]; exact elsewhere) new, rfl⟩
  | eraseBlock block =>
      obtain ⟨left, rfl⟩ := step
      exact ⟨fun p here => if_neg fun erased => elsewhere (erased.symm.trans here), rfl⟩
  | writePage page dataOffset dat dataLen oob oobLen =>
      obtain ⟨new, -, rfl⟩ := step
      exact ⟨sameBlock_update elsewhere new, noteFirst_of_ne elsewhere dataOffset dat dataLen oob oobLen _ _⟩
  | clearCache =>
      obtain rfl := step
      exact ⟨.refl _ _, rfl⟩

/-- What has become of the data of the block when it has been moved: on each page before the
failing one it is programmed over what the new block held at first, and the pages behind it
are those of the new block. -/
structure Moved (page block other : ℕ) (w w' : Overwritten) : Prop where
  copied : ∀ p < page, ∀ i < pageSize, (w'.pages (pageAddr other + p)).data i =
    (w'.first other (pageAddr other + p)).data i &&& (w.pages (pageAddr block + p)).data i
  rest : ∀ p, page < p → p < pagePerBlock →
    w'.pages (pageAddr other + p) = w'.first other (pageAddr other + p)

theorem Moved.of_source {page block other : ℕ} {w w₁ w' : Overwritten}
    (inside : page < pagePerBlock) (source : SameBlock w.pages w₁.pages block)
    (moved : Moved page block other w₁ w') : Moved page block other w w' := by
  refine ⟨fun p hp i hi => ?_, moved.rest⟩
  rw [moved.copied p hp i hi, source _ (pageAddr_div block (hp.trans inside))]

theorem Moved.untouched {page block other : ℕ} {w w₁ w' : Overwritten}
    (inside : page < pagePerBlock) (moved : Moved page block other w w₁)
    (untouched : Untouched other w₁ w') : Moved page block other w w' := by
  have same (p : ℕ) (hp : p < pagePerBlock) :
      w'.pages (pageAddr other + p) = w₁.pages (pageAddr other + p) :=
    untouched.same _ (pageAddr_div other hp)
  constructor
  · intro p hp i hi
    rw [same p (hp.trans inside), untouched.first]
    exact moved.copied p hp i hi
  · intro p behind hp
    rw [same p hp, untouched.first]
    exact moved.rest p behind hp

/-- The copy loop has come to the page. -/
structure Copying (page block other : ℕ) (w₀ w : Overwritten) : Prop where
  source : SameBlock w₀.pages w.pages block
  copied : ∀ p < page, ∀ i < pageSize, (w.pages (pageAddr other + p)).data i =
    (w₀.pages (pageAddr other + p)).data i &&& (w₀.pages (pageAddr block + p)).data i
  rest : ∀ p, page ≤ p → p < pagePerBlock →
    w.pages (pageAddr other + p) = w₀.pages (pageAddr other + p)
  first : 0 < page → ∀ p < pagePerBlock,
    w.first other (pageAddr other + p) = w₀.pages (pageAddr other + p)
  /-- The page in memory is none of those that are still to be read. -/
  fresh : ∀ p < pagePerBlock, w.held ≠ some (pageAddr block + p)

section Copy

variable {g : Geometry} {r : Ram} {page block other : ℕ} {w₀ w : Overwritten}

/-- Whichever page is programmed, the ledger tells what the new block held at the start. -/
theorem Copying.noted (copying : Copying page block other w₀ w) (inside : page < pagePerBlock)
    (dat oob : Bytes) {p : ℕ} (hp : p < pagePerBlock) :
    noteFirst (.writePage (pageAddr other + page) 0 dat pageSize oob oobBufferSize) w.pages w.first
      other (pageAddr other + p) = w₀.pages (pageAddr other + p) := by
  rw [noteFirst, pageAddr_div other inside]
  by_cases zero : page = 0
  · subst zero
    have start : (pageAddr other + 0) % pagePerBlock = 0 := Nat.mul_mod_left _ _
    rw [if_pos start, Function.update_self]
    exact copying.rest p (Nat.zero_le p) hp
  · have later : (pageAddr other + page) % pagePerBlock ≠ 0 := by
      simp only [pageAddr, pagePerBlock] at inside ⊢
      omega
    rw [if_neg later]
    exact copying.first (Nat.pos_of_ne_zero zero) p hp

/-- A page has been copied. -/
theorem Copying.write (oob : Bytes) (copying : Copying page block other w₀ w)
    (apart : other ≠ block) (inside : page < pagePerBlock) {dat : Bytes} {new : Page}
    (written : ∀ i, 0 ≤ i → i < 0 + pageSize →
      new.data i = (w.pages (pageAddr other + page)).data i &&& dat (i - 0))
    (stored : ∀ i < pageSize, dat i = (w₀.pages (pageAddr block + page)).data i) :
    Copying (page + 1) block other w₀ ⟨Function.update w.pages (pageAddr other + page) new,
      some (pageAddr other + page), noteFirst (.writePage (pageAddr other + page) 0 dat pageSize oob
        oobBufferSize) w.pages w.first⟩ := by
  have here := pageAddr_div other inside
  constructor <;> dsimp only
  · exact copying.source.trans (sameBlock_update (by rw [here]; exact apart) new)
  · intro p hp i hi
    by_cases last : p = page
    · rw [last, Function.update_self, written i (Nat.zero_le i) (by omega), Nat.sub_zero,
        stored i hi, copying.rest page le_rfl inside]
    · rw [Function.update_of_ne (by omega)]
      exact copying.copied p (by omega) i hi
  · intro p behind hp
    rw [Function.update_of_ne (by omega)]
    exact copying.rest p (by omega) hp
  · exact fun _ p hp => copying.noted inside dat oob hp
  · intro p hp held
    have same : (pageAddr other + page) / pagePerBlock = (pageAddr block + p) / pagePerBlock := by
      rw [Option.some.inj held]
    rw [here, pageAddr_div block hp] at same
    exact apart same

/-- The failing page has been programmed, with whatever the caller has given. -/
theorem Copying.finish (copying : Copying page block other w₀ w) (inside : page < pagePerBlock)
    (dat oob : Bytes) (new : Page) :
    Moved page block other w₀ ⟨Function.update w.pages (pageAddr other + page) new,
      some (pageAddr other + page), noteFirst (.writePage (pageAddr other + page) 0 dat pageSize oob
        oobBufferSize) w.pages w.first⟩ := by
  constructor <;> dsimp only
  · intro p hp i hi
    rw [Function.update_of_ne (by omega), copying.noted inside dat oob (hp.trans inside)]
    exact copying.copied p hp i hi
  · intro p behind hp
    rw [Function.update_of_ne (by omega), copying.noted inside dat oob hp]
    exact copying.rest p behind.le hp

theorem over_setIndex {post : Unit → Ram → Overwritten → Prop} (errorBlock : ℕ)
    (h : ∀ r' : Ram, r'.datBuf = r.datBuf → post () r' w) :
    wp OverStep (setIndexOfSystemBlock g errorBlock) post r w := by
  rw [setIndexOfSystemBlock]
  split
  · exact h _ rfl
  · exact h r rfl

/-- A page that is not in memory is read as it is on the flash. -/
theorem over_readPage {post : Bool → Ram → Overwritten → Prop} (fresh : w.held ≠ some page)
    (h : ∀ r' : Ram, (∀ i < pageSize, r'.datBuf i = (w.pages page).data i) →
      post true r' { w with held := some page }) :
    wp OverStep (nandReadPageBmt page) post r w := by
  rw [nandReadPageBmt, wp_bind, wp_perform]
  rintro answer w' ⟨rfl, dat, mapping, rfl, read⟩
  apply h
  intro i hi
  show overlay r.datBuf 0 dat pageSize i = _
  rw [overlay_of_mem ⟨Nat.zero_le i, by omega⟩, Nat.sub_zero, read fresh]

/-- The copy loop, from a page on. -/
theorem over_copyPages (apart : other ≠ block) (n : ℕ) (inside : page + n ≤ pagePerBlock)
    (copying : Copying page block other w₀ w) :
    wp OverStep (copyPages g block other (List.range' page n)) (fun done _ w' =>
      done = true → Copying (page + n) block other w₀ w') r w := by
  induction n generalizing page r w with
  | zero => exact fun _ => copying
  | succ n ih =>
      rw [List.range'_succ, copyPages, wp_bind]
      apply over_readPage (copying.fresh page (by omega))
      intro r₁ read
      rw [wp_bind]
      apply over_setIndex
      intro r₂ same
      rw [wp_bind, wp_get, wp_bind, nandWritePageBmt, wp_perform]
      rintro ok w₁ ⟨new, written, rfl⟩
      cases ok with
      | false => exact fun done => Bool.noConfusion done
      | true =>
          have source := copying.source (pageAddr block + page) (pageAddr_div block (by omega))
          have next := copying.write r₂.oobBuf apart (by omega) (written rfl)
            fun i hi => by rw [same, read i hi, source]
          rw [if_pos rfl, show page + (n + 1) = page + 1 + n by omega]
          exact ih (by omega) next

/-- One attempt that succeeds. -/
theorem over_migrateTo {offset : ℕ} {dat oob : Option Bytes}
    (apart : other ≠ offset / eraseSize)
    (fresh : ∀ p < pagePerBlock, w.held ≠ some (pageAddr (offset / eraseSize) + p)) :
    wp OverStep (migrateTo g other offset dat oob) (fun done _ w' => done = true →
      Moved (offset / pageSize % pagePerBlock) (offset / eraseSize) other w w') r w := by
  have inside : offset / pageSize % pagePerBlock < pagePerBlock := Nat.mod_lt _ (by decide)
  have start : Copying 0 (offset / eraseSize) other w w :=
    ⟨.refl _ _, fun p hp => absurd hp (Nat.not_lt_zero p), fun _ _ _ => rfl,
      fun pos => absurd pos (Nat.lt_irrefl 0), fresh⟩
  rw [migrateTo, wp_bind, List.range_eq_range']
  apply wp_mono _ (over_copyPages apart _ (by omega) start)
  intro done r₁ w₁ copied
  cases done with
  | false => exact fun done => Bool.noConfusion done
  | true =>
      have copying := copied rfl
      rw [Nat.zero_add] at copying
      rw [if_pos rfl]
      rcases dat with _ | dat
      · exact trivial
      rcases oob with _ | oob
      · exact trivial
      rw [writeErrorPage, wp_bind, wp_modify, wp_bind]
      apply over_setIndex
      intro r₂ _
      rw [wp_bind, wp_get, nandWritePageBmt, wp_perform]
      rintro ok w₂ ⟨new, -, rfl⟩ _
      exact copying.finish inside dat _ new

end Copy

/-! ## The whole update -/

section Whole

variable {g : Geometry} {r : Ram} {w : Overwritten} {offset : ℕ}

/-- The first page of an available block is in memory. -/
theorem over_blockAvailable {block : ℕ} (pool : g.InPool block) :
    wp OverStep (blockAvailable block) (fun available _ w' =>
      available = true → w'.held = some (pageAddr block)) r w := by
  rw [blockAvailable, wp_bind, wp_get]
  by_cases bmt : block = r.bmtBlockIndex
  · rw [if_pos bmt]
    exact fun no => Bool.noConfusion no
  by_cases bbt : block = r.bbtBlockIndex
  · rw [if_neg bmt, if_pos bbt]
    exact fun no => Bool.noConfusion no
  rw [if_neg bmt, if_neg bbt, wp_bind, blockMarkedBad, wp_bind, nandBlockBadBmt, wp_perform]
  rintro marked w₁ rfl
  cases marked with
  | true => exact fun no => Bool.noConfusion no
  | false =>
      rw [if_neg (by simp), nandBlockBadBmt, wp_perform]
      rintro marked w₂ rfl
      cases marked with
      | true => exact fun no => Bool.noConfusion no
      | false =>
          intro _
          show some (foldReserved (blockOffset block) / pageSize) = _
          rw [foldReserved_block pool.2, blockOffset_div_page]

theorem over_scanPool (blocks : List ℕ) (pool : ∀ b ∈ blocks, g.InPool b) :
    wp OverStep (scanPool blocks) (fun block _ w' =>
      block ≠ 0 → w'.held = some (pageAddr block)) r w := by
  induction blocks generalizing r w with
  | nil => exact fun ne => absurd rfl ne
  | cons block blocks ih =>
      rw [scanPool, wp_bind]
      apply wp_mono _ (over_blockAvailable (pool block List.mem_cons_self))
      intro available r₁ w₁ held
      cases available with
      | false => exact ih fun b hb => pool b (List.mem_cons_of_mem block hb)
      | true => exact fun _ => held rfl

/-- The block that is given out has been checked last. -/
theorem over_findAvailableBlock (used : ¬ Unused g r (offset / eraseSize)) :
    wp OverStep (findAvailableBlock g false) (fun block r' w' =>
      r' = { r with poolErased := true } ∧ Untouched (offset / eraseSize) w w' ∧ (block ≠ 0 →
        Unused g r block ∧ w'.held = some (pageAddr block))) r w := by
  have checked : wp OverStep (findAvailableBlock g false) (fun block _ w' =>
      block ≠ 0 → w'.held = some (pageAddr block)) r w := by
    rw [findAvailableBlock, wp_bind]
    apply wp_mono _ (wp_of_ensures (erasePoolOnce_ensures g))
    exact fun _ _ _ _ => over_scanPool g.poolBlocks fun b => g.mem_poolBlocks.mp
  apply wp_mono _ (wp_and checked (wp_of_asks (Untouched.refl _) (fun _ _ _ => Untouched.trans)
    untouched_step (elsewhere_findAvailableBlock used false) w))
  rintro block r' w' ⟨held, ⟨same, unused⟩, untouched⟩
  exact ⟨same, untouched, fun ne => ⟨unused ne, held ne⟩⟩

/-- `migrate_from_bad`. However many blocks fail, only the last attempt counts. -/
theorem over_migrateFromBad (depth : ℕ) {dat oob : Option Bytes}
    (used : ¬ Unused g r (offset / eraseSize)) :
    wp OverStep (migrateFromBad g offset dat oob depth) (fun block _ w' => block ≠ 0 →
      Moved (offset / pageSize % pagePerBlock) (offset / eraseSize) block w w') r w := by
  have inside : offset / pageSize % pagePerBlock < pagePerBlock := Nat.mod_lt _ (by decide)
  induction depth generalizing r w with
  | zero => exact trivial
  | succ depth ih =>
      rw [migrateFromBad, wp_bind]
      apply wp_mono _ (over_findAvailableBlock used)
      rintro other r₁ w₁ ⟨rfl, before, found⟩
      split
      · exact fun ne => absurd rfl ne
      next ne =>
      obtain ⟨unused, held⟩ := found ne
      have apart : other ≠ offset / eraseSize := by
        rintro rfl
        exact used unused
      have fresh (p : ℕ) (hp : p < pagePerBlock) :
          w₁.held ≠ some (pageAddr (offset / eraseSize) + p) := by
        rw [held]
        intro same
        have blocks : pageAddr other / pagePerBlock = _ :=
          congrArg (· / pagePerBlock) (Option.some.inj same)
        rw [pageAddr_div_self, pageAddr_div _ hp] at blocks
        exact apart blocks
      rw [wp_bind]
      apply wp_mono _ (wp_and (over_migrateTo apart fresh) (wp_of_asks (Untouched.refl _)
        (fun _ _ _ => Untouched.trans) untouched_step (elsewhere_migrateTo apart offset dat oob) w₁))
      rintro written r₂ w₂ ⟨moved, same, left⟩
      cases written with
      | true => exact fun _ => (moved rfl).of_source inside before.same
      | false =>
          rw [if_neg (by simp), wp_bind]
          apply wp_mono _ (wp_of_asks (Untouched.refl _) (fun _ _ _ => Untouched.trans)
            untouched_step (elsewhere_markBlock apart _) w₂)
          rintro _ r₃ w₃ ⟨rfl, marked⟩
          have still : ¬ Unused g r₃ (offset / eraseSize) := fun now => by
            have unused₁ := same.unused now
            exact used ⟨unused₁.pool, unused₁.ne_bmt, unused₁.ne_bbt, unused₁.unmapped⟩
          apply wp_mono _ (ih still)
          exact fun block r' w' moved ne =>
            (moved ne).of_source inside ((before.trans left).trans marked).same

/-- `update_bmt` for a failed write, when it succeeds: writing the table and marking the failed
block leave the new block alone. -/
theorem over_updateBmt (depth : ℕ) {dat oob : Option Bytes} (small : g.bmtBlockCount ≤ 255)
    (disjoint : DisjointBmt g r) (updatable : Updatable g r (offset / eraseSize)) :
    wp OverStep (updateBmt g depth offset .writeFail dat oob) (fun done r' w' => done = true →
      Moved (offset / pageSize % pagePerBlock) (offset / eraseSize)
        (replacementOf g r.bmt r'.bmt (offset / eraseSize)) w w') r w := by
  have inside : offset / pageSize % pagePerBlock < pagePerBlock := Nat.mod_lt _ (by decide)
  rw [updateBmt, wp_bind, replacementBlock, if_pos rfl]
  apply wp_mono _ (wp_and (over_migrateFromBad depth (updatable_used updatable))
    (wp_of_ensures (migrateFromBad_ensures g depth offset dat oob)))
  rintro block r₁ w₁ ⟨moved, same, unused⟩
  split
  · exact fun done => Bool.noConfusion done
  next ne =>
  have moved := moved ne
  have unused := unused ne
  have room : r.bmt.HasRoom g (offset / eraseSize) := hasRoom_of_unused disjoint small unused
  have mapped := remap_mapped disjoint room updatable block
  have apart : block ≠ offset / eraseSize := by
    rintro rfl
    exact updatable_used updatable unused
  rw [wp_bind, wp_modify, wp_bind, fillBmtBuffers, wp_modify, wp_bind, wp_get, wp_bind]
  apply wp_mono _ (wp_of_asks (Untouched.refl block) (fun _ _ _ => Untouched.trans) untouched_step
    (elsewhere_writeBmtToFlash depth _ _ _ _) w₁)
  · rintro written r₂ w₂ ⟨tables, kept⟩
    cases written with
    | false => exact fun done => Bool.noConfusion done
    | true =>
        rw [if_pos rfl, wp_bind, markBlockBadBmt, wp_bind, wp_perform]
        rintro answer w₃ step _
        have marked := untouched_step (b := block) _ w₂ answer w₃ apart.symm step
        have bmt : r₂.bmt = r.bmt.remap g (offset / eraseSize) block := by
          rw [tables.bmt, ← same.bmt]
        show Moved _ _ (replacementOf g r.bmt r₂.bmt _) w w₃
        rw [bmt, replacementOf_remap room updatable]
        exact moved.untouched inside (kept.trans marked)
  · intro now
    have unmapped := now.unmapped
    have bmt : r₁.bmt = r.bmt := same.bmt
    simp only [Ram.withoutBmt, bmt, mapped] at unmapped
    exact Bool.noConfusion unmapped
  · intro _
    show block ≠ r₁.bmtBlockIndex
    rw [same.bmtBlockIndex]
    exact unused.ne_bmt

end Whole

/-- What the other block holds lets the data of the block through: a bit that is cleared on a
page before the given one is clear in the block, too, and the pages behind it are those of the
block. -/
def LetsThrough (page : ℕ) (first before : ℕ → Page) (block other : ℕ) : Prop :=
  (∀ p < page, ∀ i < pageSize, (first (pageAddr other + p)).data i &&&
      (before (pageAddr block + p)).data i = (before (pageAddr block + p)).data i) ∧
    ∀ p, page < p → p < pagePerBlock → ∀ i < pageSize,
      (first (pageAddr other + p)).data i = (before (pageAddr block + p)).data i

/-- An erased block lets the data through if there is none behind the page. -/
theorem letsThrough_of_erased {page : ℕ} {first before : ℕ → Page} {block other : ℕ}
    (inside : page < pagePerBlock)
    (erased : ∀ p < pagePerBlock, ∀ i < pageSize, (first (pageAddr other + p)).data i = 0xff) :
    LetsThrough page first before block other ↔ EmptyBehind page before block := by
  constructor
  · rintro ⟨-, rest⟩ p behind hp i hi
    rw [← rest p behind hp i hi, erased p hp i hi]
  · intro empty
    refine ⟨fun p hp i hi => ?_, fun p behind hp i hi => ?_⟩
    · rw [erased p (hp.trans inside) i hi]
      exact UInt8.neg_one_and
    · rw [erased p hp i hi, empty p behind hp i hi]

/-- The data of the other pages is the same exactly if what the new block held let it
through. -/
theorem Moved.sameDataBut_iff {page block other : ℕ} {w w' : Overwritten}
    (inside : page < pagePerBlock) (moved : Moved page block other w w') :
    SameDataBut page w.pages w'.pages block other ↔
      LetsThrough page (w'.first other) w.pages block other := by
  constructor
  · intro same
    refine ⟨fun p hp i hi => ?_, fun p behind hp i hi => ?_⟩
    · rw [← moved.copied p hp i hi]
      exact same p (hp.trans inside) (Nat.ne_of_lt hp) i hi
    · rw [← moved.rest p behind hp]
      exact same p hp (Nat.ne_of_gt behind) i hi
  · rintro ⟨copied, rest⟩ p hp other i hi
    rcases Nat.lt_or_gt_of_ne other with earlier | behind
    · rw [moved.copied p earlier i hi]
      exact copied p earlier i hi
    · rw [moved.rest p behind hp]
      exact rest p behind hp i hi

/-- An update for a failed write that succeeds keeps the data of the other pages exactly if what
the new block holds when its first page is programmed lets it through. If the new block is
erased then, that is to say that no data was stored behind the failing page. -/
theorem update_preserves_iff {g : Geometry} {env : Env} {r r' : Ram} {s s' : Spi}
    {depth offset : ℕ} {dat oob : Option Bytes} (readable : ∀ t p, env.uncorrectable t p = false)
    (small : g.bmtBlockCount ≤ 255) (reached : Reached g r)
    (updatable : Updatable g r (offset / eraseSize))
    (run : exec (nandMachine env) (updateBmt g depth offset .writeFail dat oob) r s =
      some (true, r', s')) :
    let page := offset / pageSize % pagePerBlock
    let block := offset / eraseSize
    let other := replacementOf g r.bmt r'.bmt block
    let first := firstPages env (updateBmt g depth offset .writeFail dat oob) r s other
    (SameDataBut page s.chip.pages s'.chip.pages block other ↔
        LetsThrough page first s.chip.pages block other) ∧
      ((∀ p < pagePerBlock, ∀ i < pageSize, (first (pageAddr other + p)).data i = 0xff) →
        (LetsThrough page first s.chip.pages block other ↔
          EmptyBehind page s.chip.pages block)) := by
  intro page block other first
  have inside : page < pagePerBlock := Nat.mod_lt _ (by decide)
  have moved := over_exec readable (over_updateBmt depth small
    (reached.disjoint small).toDisjointBmt updatable) run rfl
  exact ⟨moved.sameDataBut_iff inside, letsThrough_of_erased inside⟩

/-- The first program in the pool fails, and so does the mark on the failed block. -/
def spareFails : Env :=
  { faultless with outcome := fun t => if t = 4 ∨ t = 8 then .fail fun _ => .erased else .done }

/-- The first page of block 1 fails on an erased chip. -/
def movedUpdate : Drv Bool :=
  updateBmt eightBlocks 5 (blockOffset 1) .writeFail (some allOnes) (some allOnes)

/-- Block 4 is taken, fails, and is taken again. -/
def movedRun : Option (Bool × Ram × Spi) :=
  exec (nandMachine spareFails) movedUpdate started.2.1 started.2.2

theorem reached_started : Reached eightBlocks started.2.1 := by
  have run : startedRun = some started := (Option.some_get _).symm
  exact .start (fun _ => Ram.initial) (fun _ _ => rfl) rfl
    (fun b _ holds => absurd holds (blank_holds_no_table b).1)
    (fun b _ holds => absurd holds (blank_holds_no_table b).1)
    (fun b _ holds => absurd holds (blank_holds_no_table b).2) run

/-- Only the first page of block 4 is touched before it is programmed for the last time. -/
theorem firstPages_movedUpdate {p : ℕ} (other : p ≠ pageAddr 4) :
    firstPages spareFails movedUpdate started.2.1 started.2.2 4 p = .erased := by
  obtain ⟨marked, pages⟩ : ∃ marked : ℕ → Page, ∀ p,
      firstPages spareFails movedUpdate started.2.1 started.2.2 4 p =
        if p = 256 then marked p else if p = 256 then .erased
        else if p / pagePerBlock = 7 then .erased else if p / pagePerBlock = 6 then .erased
        else if p / pagePerBlock = 5 then .erased else if p / pagePerBlock = 4 then .erased
        else .erased := ⟨_, fun _ => rfl⟩
  have untouched : p ≠ 256 := other
  simp only [pages, if_neg untouched, ite_self]

theorem update_preserves_block_one : ∃ r' s', movedRun = some (true, r', s') ∧
    replacementOf eightBlocks started.2.1.bmt r'.bmt 1 = 4 ∧
    SameDataBut 0 started.2.2.chip.pages s'.chip.pages 1 4 := by
  have told : movedRun.map (fun out => (out.1,
      replacementOf eightBlocks started.2.1.bmt out.2.1.bmt 1)) = some (true, 4) := by
    decide +kernel
  obtain ⟨⟨done, r', s'⟩, run, same⟩ := Option.map_eq_some_iff.mp told
  obtain ⟨rfl, stands⟩ : done = true ∧
      replacementOf eightBlocks started.2.1.bmt r'.bmt 1 = 4 := by simpa using same
  refine ⟨r', s', run, stands, ?_⟩
  obtain ⟨iff, -⟩ := update_preserves_iff (fun _ _ => rfl) (by decide) reached_started
    (.inl (by decide)) run
  have block : blockOffset 1 / eraseSize = 1 := rfl
  have page : blockOffset 1 / pageSize % pagePerBlock = 0 := rfl
  rw [block, page, stands] at iff
  have blank : started.2.2.chip = blankSpi.chip := rfl
  refine iff.mpr ⟨fun p early => absurd early (Nat.not_lt_zero p), fun p behind _ i _ => ?_⟩
  have other : pageAddr 4 + p ≠ pageAddr 4 := by omega
  show (firstPages spareFails movedUpdate started.2.1 started.2.2 4 _).data i = _
  rw [firstPages_movedUpdate other, blank]
  rfl

/-- An erased flash but for the fourth page of block 1. -/
def writtenSpi : Spi :=
  ⟨⟨Function.update (fun _ => .erased) (pageAddr 1 + 3) ⟨fun _ => 0, allOnes⟩, 0⟩, .initial⟩

/-- The driver is started there. -/
def writtenStart : Option (Bool × Ram × Spi) :=
  exec (nandMachine faultless) (startTables eightBlocks) Ram.initial writtenSpi

/-- Then the first page of block 1 fails. -/
def rewrittenRun : Option (Bool × Ram × Spi) :=
  writtenStart.bind fun out => exec (nandMachine faultless)
    (updateBmt eightBlocks 5 (blockOffset 1) .writeFail (some allOnes) (some allOnes)) out.2.1
      out.2.2

/-- The update succeeds, and the fourth page is not in the new block. -/
theorem rewritten_not_preserved : ∃ done r s r' s', writtenStart = some (done, r, s) ∧
    rewrittenRun = some (true, r', s') ∧
    ¬ SameDataBut 0 s.chip.pages s'.chip.pages 1 (replacementOf eightBlocks r.bmt r'.bmt 1) := by
  obtain ⟨⟨done, r, s⟩, first⟩ : ∃ out, writtenStart = some out :=
    Option.isSome_iff_exists.mp (by decide +kernel)
  obtain ⟨⟨done', r', s'⟩, second⟩ : ∃ out, rewrittenRun = some out :=
    Option.isSome_iff_exists.mp (by decide +kernel)
  have told : (writtenStart.bind fun out => rewrittenRun.map fun out' => (out'.1,
      (out.2.2.chip.pages (pageAddr 1 + 3)).data 0,
      (out'.2.2.chip.pages (pageAddr (replacementOf eightBlocks out.2.1.bmt out'.2.1.bmt 1)
        + 3)).data 0)) = some (true, 0, 0xff) := by decide +kernel
  rw [first, second] at told
  simp only [Option.bind_some, Option.map_some, Option.some.injEq, Prod.mk.injEq] at told
  obtain ⟨rfl, old, new⟩ := told
  refine ⟨done, r, s, r', s', first, second, fun same => ?_⟩
  have copied := same 3 (by decide) (by decide) 0 (by decide)
  rw [old, new] at copied
  exact absurd copied (by decide)

end En7512.Bmt
