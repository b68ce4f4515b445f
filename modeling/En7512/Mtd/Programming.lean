/-
# Programming a page in chunks

`NAND_CMD_SEQIN` names a page and a column in it, `spinand_write_buf` takes the bytes chunk
by chunk, and `NAND_CMD_PAGEPROG` programs them. Spare bytes for Linux may follow when the
data has reached the end of the page.

The spare bytes end up behind one another. The data does not: every chunk is copied to where
the first one went, and what the chunks leave there is stored at an offset that nobody has
set. `programChunks_iff` says when the page is the right one all the same.
-/

import En7512.Mtd.Reading

namespace En7512.Mtd

open En7512.Logic En7512.Nand En7512.Bmt En7512.Flash

/-- The calls of `spinand_write_buf`, one after the other. -/
def writeChunks (chunks : List (List UInt8)) (st : SpinandState) : SpinandState :=
  chunks.foldl (fun st chunk => spinandWriteBuf chunk st) st

/-- `NAND_CMD_SEQIN`, the chunks, and `NAND_CMD_PAGEPROG`. -/
def programChunks (env : Env) (g : Geometry) (depth addrOffset column page : ℕ)
    (chunks : List (List UInt8)) (m : MtdInfo) : Option MtdInfo := do
  let m ← spinandCmdfunc env g depth addrOffset .seqIn column page m
  spinandCmdfunc env g depth addrOffset .pageProg 0 0
    { m with state := writeChunks chunks m.state }

/-- What the chunks of data leave at the position they are all copied to: each byte is the one
of the last chunk that has so many. -/
def landed (chunks : List (List UInt8)) : Bytes := fun k =>
  ((chunks.filter fun chunk => k < chunk.length).getLast?.getD []).getD k 0xff

/-- The page is erased as far as it is looked at. -/
structure ErasedPage (L : OobLayout) (p : Page) : Prop where
  data : ∀ i < pageSize, p.data i = 0xff
  spare : ∀ i < L.oobsize, p.oob (L.pos i) = 0xff

/-- The page that is to be there: the data at the column, every other data byte unchanged, and
the spare bytes at the start of the part for Linux. -/
structure Programmed (L : OobLayout) (column : ℕ) (dat oob : List UInt8) (p : Page) : Prop where
  data : ∀ i < pageSize, p.data i =
    if column ≤ i ∧ i < column + dat.length then dat.getD (i - column) 0 else 0xff
  spare : ∀ k < oob.length, p.oob (L.pos (linuxUseOobStartOffset + k)) = oob.getD k 0

/-- What makes the chunks land where they are meant to. The data is within the page; each byte
of the page is the right one when what the chunks leave is put at `addr_offset`, into an
erased page or, if the page cannot be read, into the data in memory; and in that case the
spare area in memory has every bit set that is not to be cleared. -/
structure ChunksLand (env : Env) (page addrOffset column : ℕ) (dat oob : List (List UInt8))
    (s : Spi) : Prop where
  inside : 0 < dat.flatten.length → addrOffset + dat.flatten.length ≤ pageSize
  data : ∀ i < pageSize,
    (if addrOffset ≤ i ∧ i < addrOffset + dat.flatten.length then landed dat (i - addrOffset)
      else if env.uncorrectable s.chip.ticks page then s.cache.data i else 0xff) =
    if column ≤ i ∧ i < column + dat.flatten.length then dat.flatten.getD (i - column) 0 else 0xff
  spare : env.uncorrectable s.chip.ticks page = true → ∀ k < oob.flatten.length,
    s.cache.oob (env.layout.pos (linuxUseOobStartOffset + k)) &&& oob.flatten.getD k 0 =
      oob.flatten.getD k 0

/-! ## The buffers -/

section Buffers

/-- Two stretches of memory copied one behind the other. -/
theorem overlay_append (b : Bytes) (offset : ℕ) (first second : List UInt8) :
    overlay (overlay b offset (chunkBytes first) first.length) (offset + first.length)
        (chunkBytes second) second.length =
      overlay b offset (chunkBytes (first ++ second)) (first ++ second).length := by
  ext i
  simp only [overlay, chunkBytes, List.length_append]
  by_cases second_part : offset + first.length ≤ i ∧ i < offset + first.length + second.length
  · have later : i - offset - first.length = i - (offset + first.length) := by omega
    rw [if_pos second_part, if_pos (by omega), List.getD_append_right _ _ _ _ (by omega), later]
  · rw [if_neg second_part]
    by_cases first_part : offset ≤ i ∧ i < offset + first.length
    · rw [if_pos first_part, if_pos (by omega), List.getD_append _ _ _ _ (by omega)]
    · rw [if_neg first_part, if_neg (by omega)]

/-- The chunks of data, up to the end of the page. -/
theorem writeChunks_data (chunks : List (List UInt8)) (st : SpinandState)
    (fits : st.col + chunks.flatten.length ≤ pageSize) (unused : st.oobBufLen = 0) :
    writeChunks chunks st = { st with
      col := st.col + chunks.flatten.length
      bufLen := st.bufLen + chunks.flatten.length
      buf := chunks.foldl (fun b chunk => overlay b st.bufIdx (chunkBytes chunk) chunk.length)
        st.buf } := by
  induction chunks generalizing st with
  | nil => rfl
  | cons chunk chunks ih =>
      rw [List.flatten_cons, List.length_append] at fits ⊢
      rw [writeChunks, List.foldl_cons, List.foldl_cons, ← writeChunks]
      by_cases full : pageSize ≤ st.col
      · -- the page is full, so this chunk is empty
        obtain rfl : chunk = [] := List.eq_nil_of_length_eq_zero (by omega)
        have same : spinandWriteBuf [] st = st := by
          rw [spinandWriteBuf, if_pos full, List.length_nil, Nat.zero_min]
          dsimp only
          rw [overlay_zero_len, Nat.add_zero, ← unused]
        rw [same, ih st (by simpa using fits) unused]
        simp
      · have step : spinandWriteBuf chunk st = { st with
            buf := overlay st.buf st.bufIdx (chunkBytes chunk) chunk.length
            col := st.col + chunk.length
            bufLen := st.bufLen + chunk.length } := if_neg full
        rw [step]
        apply (ih _ _ _).trans
        · simp only [Nat.add_assoc]
        · show st.col + chunk.length + chunks.flatten.length ≤ pageSize
          omega
        · exact unused

/-- The chunks of spare bytes, behind the data. -/
theorem writeChunks_spare (chunks : List (List UInt8)) (st : SpinandState)
    (full : pageSize ≤ st.col)
    (fits : st.col - pageSize + chunks.flatten.length ≤ maxLinuxUseOobSize) :
    (writeChunks chunks st).oobBuf =
        overlay st.oobBuf (st.col - pageSize + linuxUseOobStartOffset)
          (chunkBytes chunks.flatten) chunks.flatten.length ∧
      (writeChunks chunks st).row = st.row ∧ (writeChunks chunks st).bufIdx = st.bufIdx ∧
      (writeChunks chunks st).buf = st.buf ∧ (writeChunks chunks st).bufLen = st.bufLen := by
  induction chunks generalizing st with
  | nil => exact ⟨(overlay_zero_len ..).symm, rfl, rfl, rfl, rfl⟩
  | cons chunk chunks ih =>
      rw [List.flatten_cons, List.length_append] at fits
      have size : min chunk.length ((2 ^ 32 + maxLinuxUseOobSize - (st.col - pageSize)) % 2 ^ 32) =
          chunk.length := by
        simp only [maxLinuxUseOobSize] at fits ⊢
        omega
      have step : spinandWriteBuf chunk st = { st with
          oobBuf := overlay st.oobBuf (st.col - pageSize + linuxUseOobStartOffset)
            (chunkBytes chunk) chunk.length
          col := st.col + chunk.length
          oobBufLen := chunk.length } := by
        rw [spinandWriteBuf, if_pos full, size]
      rw [writeChunks, List.foldl_cons, ← writeChunks, step]
      obtain ⟨oob, rest⟩ := ih { st with
          oobBuf := overlay st.oobBuf (st.col - pageSize + linuxUseOobStartOffset)
            (chunkBytes chunk) chunk.length
          col := st.col + chunk.length
          oobBufLen := chunk.length } (by dsimp only; omega) (by dsimp only; omega)
      refine ⟨?_, rest⟩
      have next : st.col + chunk.length - pageSize + linuxUseOobStartOffset =
          st.col - pageSize + linuxUseOobStartOffset + chunk.length := by omega
      rw [oob, List.flatten_cons, ← overlay_append, next]

/-- What the chunks of data leave in the buffer. -/
theorem foldl_overlay_landed (chunks : List (List UInt8)) (c k : ℕ) :
    chunks.foldl (fun b chunk => overlay b c (chunkBytes chunk) chunk.length) allOnes (c + k) =
      landed chunks k := by
  induction chunks using List.reverseRecOn with
  | nil => rfl
  | append_singleton chunks chunk ih =>
      rw [List.foldl_append, List.foldl_cons, List.foldl_nil, landed, List.filter_append]
      by_cases reached : k < chunk.length
      · rw [overlay_of_mem (by omega)]
        simp [reached, chunkBytes]
      · rw [overlay_of_not_mem (by omega), ih]
        simp [reached, landed]

/-- The state that a page is programmed from. -/
theorem writeChunks_all {dat oob : List (List UInt8)} {column : ℕ} (page : ℕ)
    (inPage : column < pageSize) (fits : dat.flatten.length ≤ pageSize - column)
    (reached : oob = [] ∨ column + dat.flatten.length = pageSize)
    (room : oob.flatten.length ≤ maxLinuxUseOobSize) :
    let st := writeChunks (dat ++ oob) ⟨column, page, column, allOnes, 0, allOnes, 0⟩
    st.oobBuf = overlay allOnes linuxUseOobStartOffset (chunkBytes oob.flatten)
        oob.flatten.length ∧
      st.row = page ∧ st.bufIdx = column ∧ (∀ k, st.buf (column + k) = landed dat k) ∧
      st.bufLen = dat.flatten.length := by
  have whole : writeChunks (dat ++ oob) ⟨column, page, column, allOnes, 0, allOnes, 0⟩ =
      writeChunks oob (writeChunks dat ⟨column, page, column, allOnes, 0, allOnes, 0⟩) :=
    List.foldl_append
  rw [whole, writeChunks_data dat _ (by dsimp only; omega) rfl, Nat.zero_add]
  dsimp only
  obtain rfl | reached := reached
  · exact ⟨(overlay_zero_len ..).symm, rfl, rfl, foldl_overlay_landed dat column, rfl⟩
  · obtain ⟨spare, row, idx, buf, len⟩ := writeChunks_spare oob
      ⟨column + dat.flatten.length, page, column,
        dat.foldl (fun b chunk => overlay b column (chunkBytes chunk) chunk.length) allOnes,
        dat.flatten.length, allOnes, 0⟩ reached.ge (by dsimp only; omega)
    dsimp only at spare row idx buf len
    rw [reached, Nat.sub_self, Nat.zero_add] at spare
    rw [← reached] at spare
    refine ⟨spare, row, idx, ?_, len⟩
    rw [buf]
    exact foldl_overlay_landed dat column

end Buffers

/-! ## The page -/

section Page

variable {env : Env} {g : Geometry} {depth addrOffset : ℕ} {r : Ram} {s : Spi}

/-- The page that is programmed: what is in memory after the page has been read, with the
data and the spare bytes put in. -/
theorem spiNandWritePage_done (s : Spi) (page dataOffset : ℕ) (dat : Bytes) (dataLen : ℕ)
    (oob : Bytes) (oobLen : ℕ) (done : env.outcome s.chip.ticks = .done) :
    (spiNandWritePage env page dataOffset dat dataLen oob oobLen s).1 = .noError ∧
      (spiNandWritePage env page dataOffset dat dataLen oob oobLen s).2.chip.pages page =
        (s.chip.pages page).and
          ⟨overlay (spiNandReadPage env page s).2.cache.data dataOffset dat dataLen,
            env.layout.scatter (spiNandReadPage env page s).2.cache.oob oob oobLen⟩ := by
  rw [spiNandWritePage]
  simp only [spiNandReadPage_chip, Chip.program, done, if_true, and_self]

/-- `spi_nand_write_page_internal` when the page is programmed without failure: it stores
something unless bytes are copied past the end of the page in memory. -/
theorem exec_spiNandWritePageInternal {pageNumber dataOffset dataLen : ℕ} {dat oob : Bytes}
    (done : env.outcome s.chip.ticks = .done) :
    Routine.exec (nandMachine env) (spiNandWritePageInternal g depth addrOffset pageNumber
        dataOffset (some dat) dataLen oob) r s =
      if 0 < dataLen ∧ pageSize < addrOffset + dataLen then none
      else
        let oob := indexedOob g (getMappingBlockIndex g r (pageNumber * pageSize / eraseSize)) oob
        some ((.noError, oob), r, clearReadCacheData (spiNandWritePage env
          (physicalPage g r pageNumber) addrOffset dat dataLen oob maxUseOobSize
          (clearReadCacheData s)).2) := by
  rw [spiNandWritePageInternal]
  simp only [Routine.exec_bind, Routine.exec_perform, Routine.exec_get, Option.bind_some,
    reduceCtorEq, false_or]
  split
  · rfl
  · have written := (spiNandWritePage_done (clearReadCacheData s) (physicalPage g r pageNumber)
      addrOffset dat dataLen
      (indexedOob g (getMappingBlockIndex g r (pageNumber * pageSize / eraseSize)) oob)
      maxUseOobSize done).1
    simp only [Routine.exec_bind, Routine.exec_perform, nandMachine, Option.bind_some,
      Option.getD_some, written, decide_true, if_true]
    rfl

/-- The page in memory after an erased page has been read that was not there. -/
theorem readPage_erased {page : ℕ} (erased : ErasedPage env.layout (s.chip.pages page)) :
    (∀ i < pageSize, (spiNandReadPage env page (clearReadCacheData s)).2.cache.data i =
        if env.uncorrectable s.chip.ticks page then s.cache.data i else 0xff) ∧
      ∀ i < env.layout.oobsize,
        (spiNandReadPage env page (clearReadCacheData s)).2.cache.oob (env.layout.pos i) =
          if env.uncorrectable s.chip.ticks page then s.cache.oob (env.layout.pos i) else 0xff := by
  have cold : (clearReadCacheData s).cache.pageNum ≠ some page := by simp [clearReadCacheData]
  have same : (clearReadCacheData s).chip = s.chip := rfl
  rw [spiNandReadPage, if_neg cold, same]
  by_cases fails : env.uncorrectable s.chip.ticks page = true
  · simp only [if_pos fails]
    exact ⟨fun _ _ => rfl, fun _ _ => rfl⟩
  · simp only [if_neg fails]
    exact ⟨erased.data, erased.spare⟩

/-- The index of a pool block is in front of the part for Linux. -/
theorem indexedOob_linux (block : ℕ × ℕ) (oob : Bytes) (k : ℕ) :
    indexedOob g block oob (linuxUseOobStartOffset + k) = oob (linuxUseOobStartOffset + k) := by
  rw [indexedOob]
  split
  · apply putU16_of_ne
    · simp only [linuxUseOobStartOffset]
      omega
    · simp only [linuxUseOobStartOffset]
      omega
  · rfl

/-- The page that is programmed is the right one when the chunks land. -/
theorem programmed_iff {page : ℕ} {dat oob : List (List UInt8)} (addrOffset column : ℕ)
    (buf spare : Bytes)
    (erased : ErasedPage env.layout (s.chip.pages page))
    (done : env.outcome s.chip.ticks = .done)
    (room : oob.flatten.length ≤ maxLinuxUseOobSize)
    (inside : 0 < dat.flatten.length → addrOffset + dat.flatten.length ≤ pageSize)
    (buffered : ∀ k, buf k = landed dat k)
    (spared : ∀ k < oob.flatten.length, spare (linuxUseOobStartOffset + k) =
      oob.flatten.getD k 0) :
    Programmed env.layout column dat.flatten oob.flatten
        ((spiNandWritePage env page addrOffset buf dat.flatten.length spare maxUseOobSize
          (clearReadCacheData s)).2.chip.pages page) ↔
      ChunksLand env page addrOffset column dat oob s := by
  obtain ⟨baseData, baseOob⟩ := readPage_erased erased
  have chip : (clearReadCacheData s).chip = s.chip := rfl
  rw [(spiNandWritePage_done (clearReadCacheData s) _ _ _ _ _ _ done).2, chip]
  generalize (spiNandReadPage env page (clearReadCacheData s)).2.cache = base at baseData baseOob ⊢
  have data : ∀ i < pageSize, ((s.chip.pages page).and
      ⟨overlay base.data addrOffset buf dat.flatten.length,
        env.layout.scatter base.oob spare maxUseOobSize⟩).data i =
      if addrOffset ≤ i ∧ i < addrOffset + dat.flatten.length then landed dat (i - addrOffset)
      else if env.uncorrectable s.chip.ticks page then s.cache.data i else 0xff := by
    intro i below
    rw [Page.and_data, erased.data i below, ones_and_byte, ← buffered, ← baseData i below]
    rfl
  have oobs : ∀ k < oob.flatten.length, ((s.chip.pages page).and
      ⟨overlay base.data addrOffset buf dat.flatten.length,
        env.layout.scatter base.oob spare maxUseOobSize⟩).oob
          (env.layout.pos (linuxUseOobStartOffset + k)) =
      (if env.uncorrectable s.chip.ticks page then
        s.cache.oob (env.layout.pos (linuxUseOobStartOffset + k)) else 0xff) &&&
          oob.flatten.getD k 0 := by
    intro k small
    have low : linuxUseOobStartOffset + k < maxUseOobSize := by
      simp only [linuxUseOobStartOffset, maxUseOobSize, maxLinuxUseOobSize] at room ⊢
      omega
    have inLayout : linuxUseOobStartOffset + k < env.layout.oobsize :=
      low.trans_le env.layout.room
    rw [Page.and_oob, erased.spare _ inLayout, ones_and_byte, ← baseOob _ inLayout,
      ← spared k small]
    exact (env.layout.scatter_pos _ _ _ inLayout).trans (if_pos low)
  constructor
  · intro right
    constructor
    · exact inside
    · intro i below
      rw [← data i below]
      exact right.data i below
    · intro fails k small
      have byte := right.spare k small
      rw [oobs k small, if_pos fails] at byte
      exact byte
  · intro lands
    constructor
    · intro i below
      rw [data i below]
      exact lands.data i below
    · intro k small
      rw [oobs k small]
      split
      · next fails => exact lands.spare fails k small
      · exact ones_and_byte _

end Page

/-- A page program through the commands leaves the right page if and only if the chunks
land. -/
theorem programChunks_iff {env : Env} {g : Geometry} {depth addrOffset column page : ℕ}
    {dat oob : List (List UInt8)} {m : MtdInfo}
    (inPage : column < pageSize) (fits : dat.flatten.length ≤ pageSize - column)
    (reached : oob = [] ∨ column + dat.flatten.length = pageSize)
    (room : oob.flatten.length ≤ maxLinuxUseOobSize)
    (erased : ErasedPage env.layout (m.spi.chip.pages (physicalPage g m.ram page)))
    (done : env.outcome m.spi.chip.ticks = .done) :
    (∃ m', programChunks env g depth addrOffset column page (dat ++ oob) m = some m' ∧
      Programmed env.layout column dat.flatten oob.flatten
        (m'.spi.chip.pages (physicalPage g m.ram page))) ↔
      ChunksLand env (physicalPage g m.ram page) addrOffset column dat oob m.spi := by
  obtain ⟨spare, row, idx, buf, len⟩ := writeChunks_all page inPage fits reached room
  have run : programChunks env g depth addrOffset column page (dat ++ oob) m =
      spinandProgramPage env g depth addrOffset { m with
        state := writeChunks (dat ++ oob) ⟨column, page, column, allOnes, 0, allOnes, 0⟩ } := rfl
  rw [run, spinandProgramPage]
  dsimp only
  rw [exec_spiNandWritePageInternal done, row, len]
  split
  · next outside =>
    apply iff_of_false
    · rintro ⟨m', stuck, -⟩
      cases stuck
    · exact fun lands => absurd (lands.inside outside.1) (not_le.mpr outside.2)
  · next inside =>
    have written := programmed_iff addrOffset column
      (fun i => (writeChunks (dat ++ oob)
        ⟨column, page, column, allOnes, 0, allOnes, 0⟩).buf ((writeChunks (dat ++ oob)
        ⟨column, page, column, allOnes, 0, allOnes, 0⟩).bufIdx + i))
      (indexedOob g (getMappingBlockIndex g m.ram (page * pageSize / eraseSize))
        (writeChunks (dat ++ oob) ⟨column, page, column, allOnes, 0, allOnes, 0⟩).oobBuf)
      erased done room
      (fun some_data => not_lt.mp fun behind => inside ⟨some_data, behind⟩)
      (fun k => by rw [idx, buf]) ?_
    · rw [← written]
      constructor
      · rintro ⟨m', same, right⟩
        cases same
        exact right
      · exact fun right => ⟨_, rfl, right⟩
    · intro k small
      rw [indexedOob_linux, spare, overlay_of_mem (by omega), Nat.add_sub_cancel_left, chunkBytes]

/-- One chunk lands when the offset is the column and the page can be read. -/
theorem chunksLand_single {env : Env} {page column : ℕ} {chunk : List UInt8}
    {oob : List (List UInt8)} {s : Spi} (fits : column + chunk.length ≤ pageSize)
    (readable : ¬ env.uncorrectable s.chip.ticks page) :
    ChunksLand env page column column [chunk] oob s where
  inside := by
    intro _
    simpa using fits
  data := by
    intro i _
    rw [List.flatten_singleton]
    split
    · next within =>
      have reached : i - column < chunk.length := by omega
      simp [landed, reached]
    · rfl
  spare := fun fails => absurd fails readable

/-- A page of block 1 is erased when the driver has been set up on an erased chip. -/
theorem readyChip_page : ∃ done r s, readyChip [] = some (done, r, s) ∧
    physicalPage eightBlocks r 64 = 64 ∧ ErasedPage ooblayoutMxic (s.chip.pages 64) := by
  have told : (readyChip []).map (fun out => (physicalPage eightBlocks out.2.1 64,
      (List.range pageSize).all fun i => (out.2.2.chip.pages 64).data i == 0xff,
      (List.range 64).all fun i => (out.2.2.chip.pages 64).oob (ooblayoutMxic.pos i) == 0xff)) =
        some (64, true, true) := by decide +kernel
  obtain ⟨⟨done, r, s⟩, ready, same⟩ := Option.map_eq_some_iff.mp told
  simp only [Prod.mk.injEq, List.all_eq_true, List.mem_range, beq_iff_eq] at same
  exact ⟨done, r, s, ready, same.1, same.2.1, same.2.2⟩

/-- The last two bytes of a page and three spare bytes are programmed, each part with the
column for an offset. -/
theorem programChunks_two : ∃ done r s m', readyChip [] = some (done, r, s) ∧
    programChunks (failsAt []) eightBlocks 5 2046 2046 64 [[1, 2], [7], [8, 9]] (readyMtd r s) =
      some m' ∧
    Programmed ooblayoutMxic 2046 [1, 2] [7, 8, 9] (m'.spi.chip.pages 64) := by
  obtain ⟨done, r, s, ready, physical, erased⟩ := readyChip_page
  have lands : ChunksLand (failsAt []) (physicalPage eightBlocks r 64) 2046 2046 [[1, 2]]
      [[7], [8, 9]] (readyMtd r s).spi :=
    chunksLand_single (by decide) Bool.false_ne_true
  have blank : ErasedPage ooblayoutMxic (s.chip.pages (physicalPage eightBlocks r 64)) := by
    rw [physical]
    exact erased
  obtain ⟨m', run, right⟩ := (programChunks_iff (g := eightBlocks) (m := readyMtd r s) (by decide)
    (by decide) (by decide) (by decide) blank rfl).mpr lands
  rw [readyMtd, physical] at right
  exact ⟨done, r, s, m', ready, run, right⟩

/-- Two chunks of data: the second one takes the place of the first. -/
theorem programChunks_wrong : ∃ done r s, readyChip [] = some (done, r, s) ∧
    physicalPage eightBlocks r 64 = 64 ∧ ErasedPage ooblayoutMxic (s.chip.pages 64) ∧
    ¬ ∃ m', programChunks (failsAt []) eightBlocks 5 0 0 64 [[1], [2]] (readyMtd r s) = some m' ∧
      Programmed ooblayoutMxic 0 [1, 2] [] (m'.spi.chip.pages 64) := by
  have told : ((readyChip []).bind fun out => programChunks (failsAt []) eightBlocks 5 0 0 64
      [[1], [2]] (readyMtd out.2.1 out.2.2)).map (fun m' => (m'.spi.chip.pages 64).data 0) =
        some 2 := by decide +kernel
  obtain ⟨done, r, s, ready, physical, erased⟩ := readyChip_page
  refine ⟨done, r, s, ready, physical, erased, ?_⟩
  rintro ⟨m', run, right⟩
  rw [ready, Option.bind_some, run, Option.map_some, right.data 0 (by decide)] at told
  revert told
  decide

end En7512.Mtd
