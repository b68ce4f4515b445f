/-
# Logical flash as an array of bytes

Without faults, what is written to a range of logical addresses is what a read of
the range returns, and a read of any other address returns what it returned
before. A range may begin and end anywhere in a page and cross any number of
pages and blocks.

The bytes of a logical page lie together in one physical page, and an injective
mapping of the blocks keeps the pages apart. A piece that is written programs one
physical page: the bytes that were erased take the new values, and the others are
programmed with themselves. A piece that is read copies from one physical page. So
both loops come down to the logical bytes of the array, each by an induction on
the length that is left.
-/

import En7512.Flash.Internal
import En7512.Bmt.Remapping

namespace En7512.Flash

open En7512.Logic En7512.Nand En7512.Bmt

/-- The byte the array holds for a logical address. -/
def logicalByte (g : Geometry) (r : Ram) (pages : ℕ → Page) (addr : ℕ) : UInt8 :=
  (pages (physicalAddr g r addr / pageSize)).data (addr % pageSize)

/-- From now on every program and erase succeeds and every page can be read. -/
def Faultless (env : Env) (now : ℕ) : Prop :=
  ∀ t, now ≤ t → env.outcome t = .done ∧ ∀ page, env.uncorrectable t page = false

/-- The data in memory is that of the page it was loaded from. -/
def DataCurrent (s : Spi) : Prop :=
  ∀ p, s.cache.pageNum = some p → s.cache.data = (s.chip.pages p).data

/-! ## Addresses -/

section Addresses

variable {g : Geometry} {r : Ram} {a b : ℕ}

theorem physicalAddr_mod (g : Geometry) (r : Ram) (a : ℕ) :
    physicalAddr g r a % pageSize = a % pageSize := by
  simp only [physicalAddr, eraseSize, pageSize]
  omega

theorem physicalAddr_div (g : Geometry) (r : Ram) (a : ℕ) :
    physicalAddr g r a / pageSize =
      (getMappingBlockIndex g r (a / eraseSize)).1 * pagePerBlock +
        a / pageSize % pagePerBlock := by
  simp only [physicalAddr, eraseSize, pageSize, pagePerBlock]
  omega

/-- The bytes of a logical page lie in one physical page. -/
theorem physicalAddr_div_congr (same : a / pageSize = b / pageSize) :
    physicalAddr g r a / pageSize = physicalAddr g r b / pageSize := by
  have block : a / eraseSize = b / eraseSize := by
    simp only [eraseSize, pageSize] at same ⊢
    omega
  rw [physicalAddr_div, physicalAddr_div, block, same]

/-- The mapping of the first `blocks` logical blocks. -/
def Injective (g : Geometry) (r : Ram) (blocks : ℕ) : Prop :=
  Set.InjOn (fun b => (getMappingBlockIndex g r b).1) (Set.Iio blocks)

/-- Different logical pages lie in different physical pages. -/
theorem Injective.page_inj {blocks : ℕ} (inj : Injective g r blocks)
    (ha : a < blocks * eraseSize) (hb : b < blocks * eraseSize)
    (same : physicalAddr g r a / pageSize = physicalAddr g r b / pageSize) :
    a / pageSize = b / pageSize := by
  rw [physicalAddr_div, physicalAddr_div] at same
  have inBlock (c : ℕ) : c / pageSize % pagePerBlock < pagePerBlock := Nat.mod_lt _ (by decide)
  have blocks_eq : a / eraseSize = b / eraseSize := by
    apply inj (Nat.div_lt_of_lt_mul (by rwa [Nat.mul_comm]))
      (Nat.div_lt_of_lt_mul (by rwa [Nat.mul_comm]))
    have la := inBlock a
    have lb := inBlock b
    simp only [pagePerBlock] at same la lb ⊢
    omega
  rw [blocks_eq] at same
  have offsets := Nat.add_left_cancel same
  simp only [eraseSize, pageSize, pagePerBlock] at blocks_eq offsets ⊢
  omega

end Addresses

/-! ## One page -/

section Page

variable {env : Env} {s : Spi}

theorem Faultless.mono {now later : ℕ} (h : Faultless env now) (le : now ≤ later) :
    Faultless env later := fun t ht => h t (le.trans ht)

/-- A read leaves the array alone and the page in memory. -/
theorem spiNandReadPage_faultless (faultless : Faultless env s.chip.ticks)
    (current : DataCurrent s) (page : ℕ) :
    (spiNandReadPage env page s).2.chip = s.chip ∧
      (spiNandReadPage env page s).2.cache.data = (s.chip.pages page).data ∧
      (spiNandReadPage env page s).2.cache.pageNum = some page := by
  rw [spiNandReadPage]
  by_cases held : s.cache.pageNum = some page
  · rw [if_pos held]
    exact ⟨rfl, current page held, held⟩
  · rw [if_neg held, (faultless _ le_rfl).2 page, if_neg Bool.false_ne_true]
    exact ⟨rfl, rfl, rfl⟩

theorem dataCurrent_readPage (faultless : Faultless env s.chip.ticks) (current : DataCurrent s)
    (page : ℕ) : DataCurrent (spiNandReadPage env page s).2 := by
  obtain ⟨chip, data, held⟩ := spiNandReadPage_faultless faultless current page
  intro p hp
  rw [held] at hp
  rw [chip, data, Option.some.inj hp]

/-- The data a program leaves where the bytes it is to store were erased. -/
theorem and_overlay_erased {old dat : Bytes} {offset len : ℕ}
    (erased : ∀ i, offset ≤ i → i < offset + len → old i = 0xff) :
    (fun i => old i &&& overlay old offset dat len i) = overlay old offset dat len := by
  funext i
  by_cases hi : offset ≤ i ∧ i < offset + len
  · rw [overlay_of_mem hi, erased i hi.1 hi.2, ones_and_byte]
  · rw [overlay_of_not_mem hi, UInt8.and_self]

/-- Programming erased bytes of one page. -/
theorem writePage_faultless (faultless : Faultless env s.chip.ticks) (current : DataCurrent s)
    {page offset len : ℕ} (dat oob : Bytes) (oobLen : ℕ)
    (erased : ∀ i, offset ≤ i → i < offset + len → (s.chip.pages page).data i = 0xff) :
    let out := nandMachine env (.writePage page offset dat len oob oobLen) s
    out.1 = true ∧ out.2.chip.ticks = s.chip.ticks + 1 ∧ DataCurrent out.2 ∧
      (out.2.chip.pages page).data = overlay (s.chip.pages page).data offset dat len ∧
      ∀ p, p ≠ page → out.2.chip.pages p = s.chip.pages p := by
  obtain ⟨chip, data, held⟩ := spiNandReadPage_faultless faultless current page
  have stored : (fun i => (s.chip.pages page).data i &&&
      overlay (s.chip.pages page).data offset dat len i) =
      overlay (s.chip.pages page).data offset dat len := and_overlay_erased erased
  simp only [nandMachine, spiNandWritePage, Chip.program, chip, data,
    (faultless _ le_rfl).1, if_true]
  refine ⟨decide_eq_true trivial, trivial, ?_, stored, fun p hp => if_neg hp⟩
  intro p hp
  rw [held] at hp
  obtain rfl := Option.some.inj hp
  show overlay _ _ _ _ = (if page = page then _ else _ : Page).data
  rw [if_pos rfl]
  exact stored.symm

end Page

/-! ## Reading -/

section Read

variable {env : Env} {g : Geometry} {r : Ram}

theorem readDataLen_eq {dataOffset : ℕ} (inPage : dataOffset < pageSize) (remainLen : ℕ) :
    readDataLen dataOffset remainLen = min remainLen (pageSize - dataOffset) := by
  rw [readDataLen]
  split_ifs <;> omega

/-- A byte of the piece that begins at `a`. -/
theorem logicalByte_of_piece (pages : ℕ → Page) {a i : ℕ} (hi : a % pageSize + i < pageSize) :
    (pages (physicalAddr g r a / pageSize)).data (a % pageSize + i) =
      logicalByte g r pages (a + i) := by
  have same : (a + i) / pageSize = a / pageSize := by
    simp only [pageSize] at hi ⊢
    omega
  have offset : (a + i) % pageSize = a % pageSize + i := by
    simp only [pageSize] at hi ⊢
    omega
  rw [logicalByte, physicalAddr_div_congr same, offset]

/-- The loop copies the logical bytes, by induction on the rounds. -/
theorem readPieces_faultless {len : ℕ} (rounds readAddr remainLen : ℕ) (out : Bytes) {s : Spi}
    (faultless : Faultless env s.chip.ticks) (current : DataCurrent s)
    (enough : remainLen ≤ rounds) (within : remainLen ≤ len) :
    let done := readPieces env g r len rounds readAddr remainLen out s
    done.2.chip = s.chip ∧ DataCurrent done.2 ∧
      ∀ i, done.1 i = if len - remainLen ≤ i ∧ i < len then
        logicalByte g r s.chip.pages (readAddr + (i - (len - remainLen))) else out i := by
  induction rounds generalizing readAddr remainLen out s with
  | zero =>
      refine ⟨rfl, current, fun i => ?_⟩
      rw [if_neg (by omega)]
      rfl
  | succ rounds ih =>
      by_cases none : remainLen = 0
      · rw [readPieces, if_pos none]
        exact ⟨rfl, current, fun i => by rw [if_neg (by omega)]⟩
      · rw [readPieces, if_neg none]
        obtain ⟨chip, data, -⟩ := spiNandReadPage_faultless faultless current
          (physicalAddr g r readAddr / pageSize)
        have current' := dataCurrent_readPage faultless current
          (physicalAddr g r readAddr / pageSize)
        have inPage : readAddr % pageSize < pageSize := Nat.mod_lt _ (by decide)
        have piece := readDataLen_eq inPage remainLen
        simp only [physicalAddr_mod, data]
        generalize hn : readDataLen (readAddr % pageSize) remainLen = n at piece ⊢
        have pos : 0 < n := by omega
        obtain ⟨chip', last, bytes⟩ := ih (readAddr + n) (remainLen - n)
          (overlay out (len - remainLen) (fun i =>
            (s.chip.pages (physicalAddr g r readAddr / pageSize)).data
              (readAddr % pageSize + i)) n)
          (s := (spiNandReadPage env (physicalAddr g r readAddr / pageSize) s).2)
          (by rwa [chip]) current' (by omega) (by omega)
        refine ⟨chip'.trans chip, last, fun i => ?_⟩
        rw [bytes i, chip]
        by_cases copied : len - remainLen ≤ i ∧ i < len - remainLen + n
        · rw [if_neg (by omega), if_pos (by omega), overlay_of_mem copied,
            logicalByte_of_piece _ (by omega)]
        · rw [overlay_of_not_mem copied]
          by_cases later : len - (remainLen - n) ≤ i ∧ i < len
          · rw [if_pos later, if_pos (by omega)]
            congr 1
            omega
          · rw [if_neg later, if_neg (by omega)]

/-- A read below the reserved window returns the logical bytes. -/
theorem spiNandReadInternal_faultless {s : Spi} (faultless : Faultless env s.chip.ticks)
    (current : DataCurrent s) {addr : ℕ} (below : addr < 0xbc000000) (len : ℕ) (out : Bytes) :
    (spiNandReadInternal env g r addr len out s).1 = .noError ∧
      ∀ i < len, (spiNandReadInternal env g r addr len out s).2.1 i =
        logicalByte g r s.chip.pages (addr + i) := by
  have unfolded : foldReserved addr = addr := if_neg (by omega)
  obtain ⟨-, -, bytes⟩ := readPieces_faultless (g := g) (r := r) len (foldReserved addr) len out
    faultless current le_rfl le_rfl
  refine ⟨rfl, fun i hi => ?_⟩
  rw [spiNandReadInternal, bytes i, if_pos (by omega), unfolded]
  congr 1
  omega

end Read

/-! ## Writing -/

section Write

variable {env : Env} {g : Geometry} {r : Ram}

theorem writeDataLen_eq {addrOffset : ℕ} (inPage : addrOffset < pageSize) (remainLen : ℕ) :
    writeDataLen addrOffset remainLen = min remainLen (pageSize - addrOffset) := by
  rw [writeDataLen]
  split_ifs <;> omega

/-- The program of one piece. -/
abbrev pieceOp (g : Geometry) (r : Ram) (writeAddr remainLen : ℕ) (dat : Bytes) : NandOp :=
  .writePage (physicalAddr g r writeAddr / pageSize) (physicalAddr g r writeAddr % pageSize) dat
    (writeDataLen (physicalAddr g r writeAddr % pageSize) remainLen)
    (writeOobBuf g (getMappingBlockIndex g r (writeAddr / eraseSize)).1
      (getMappingBlockIndex g r (writeAddr / eraseSize)).2) oobBufferSize

/-- A round of the loop whose program succeeds. -/
theorem exec_writePieces_succ {M : Machine NandOp NandResp Spi} {depth len rounds : ℕ}
    {buf : Bytes} {writeAddr remainLen : ℕ} {s : Spi} (some_left : remainLen ≠ 0)
    (written : (M (pieceOp g r writeAddr remainLen fun i => buf (len - remainLen + i)) s).1 =
      (true : Bool)) :
    Routine.exec M (writePieces g depth len buf (rounds + 1) writeAddr remainLen) r s =
      Routine.exec M (writePieces g depth len buf rounds
        (writeAddr + writeDataLen (physicalAddr g r writeAddr % pageSize) remainLen)
        (remainLen - writeDataLen (physicalAddr g r writeAddr % pageSize) remainLen)) r
        (M (pieceOp g r writeAddr remainLen fun i => buf (len - remainLen + i)) s).2 := by
  have stored : Routine.exec M (writePiece g depth writeAddr remainLen
      fun i => buf (len - remainLen + i)) r s = some (true, r,
        (M (pieceOp g r writeAddr remainLen fun i => buf (len - remainLen + i)) s).2) := by
    simp only [writePiece, Routine.exec_bind, Routine.exec_get, Option.bind_some,
      Routine.exec_perform]
    rw [if_pos written, Routine.exec_pure]
  rw [writePieces, if_neg some_left]
  simp only [Routine.exec_bind, Routine.exec_get, Option.bind_some, stored, if_true]

/-- One piece: the logical bytes it covers take the new values, all others keep theirs. -/
theorem pieceOp_faultless {blocks : ℕ} (inj : Injective g r blocks) {writeAddr remainLen : ℕ}
    (dat : Bytes) {s : Spi} (faultless : Faultless env s.chip.ticks) (current : DataCurrent s)
    (fits : writeAddr + remainLen ≤ blocks * eraseSize) (some_left : remainLen ≠ 0)
    (erased : ∀ i < remainLen, logicalByte g r s.chip.pages (writeAddr + i) = 0xff) :
    let out := nandMachine env (pieceOp g r writeAddr remainLen dat) s
    let n := writeDataLen (physicalAddr g r writeAddr % pageSize) remainLen
    out.1 = true ∧ out.2.chip.ticks = s.chip.ticks + 1 ∧ DataCurrent out.2 ∧
      ∀ b < blocks * eraseSize, logicalByte g r out.2.chip.pages b =
        if writeAddr ≤ b ∧ b < writeAddr + n then dat (b - writeAddr)
        else logicalByte g r s.chip.pages b := by
  have inPage : writeAddr % pageSize < pageSize := Nat.mod_lt _ (by decide)
  have piece := writeDataLen_eq inPage remainLen
  intro out n
  have hn : n = min remainLen (pageSize - writeAddr % pageSize) := by
    rw [← piece, ← physicalAddr_mod g r writeAddr]
  have offset := physicalAddr_mod g r writeAddr
  have blank : ∀ i, physicalAddr g r writeAddr % pageSize ≤ i →
      i < physicalAddr g r writeAddr % pageSize + n →
      (s.chip.pages (physicalAddr g r writeAddr / pageSize)).data i = 0xff := by
    intro i low high
    rw [offset] at low high
    have byte := erased (i - writeAddr % pageSize) (by omega)
    rw [← logicalByte_of_piece _ (by omega), Nat.add_sub_cancel' low] at byte
    exact byte
  obtain ⟨ok, ticks, last, data, frame⟩ := writePage_faultless faultless current dat
    (writeOobBuf g (getMappingBlockIndex g r (writeAddr / eraseSize)).1
      (getMappingBlockIndex g r (writeAddr / eraseSize)).2) oobBufferSize blank
  refine ⟨ok, ticks, last, fun b hb => ?_⟩
  by_cases same : physicalAddr g r b / pageSize = physicalAddr g r writeAddr / pageSize
  · have page : b / pageSize = writeAddr / pageSize := inj.page_inj hb (by omega) same
    have split := Nat.div_add_mod b pageSize
    have split' := Nat.div_add_mod writeAddr pageSize
    rw [page] at split
    have shown : logicalByte g r out.2.chip.pages b = overlay
        (s.chip.pages (physicalAddr g r writeAddr / pageSize)).data
        (physicalAddr g r writeAddr % pageSize) dat n (b % pageSize) := by
      rw [logicalByte, same]
      exact congrFun data _
    rw [shown, offset]
    by_cases covered : writeAddr ≤ b ∧ b < writeAddr + n
    · rw [if_pos covered, overlay_of_mem (by omega)]
      congr 1
      omega
    · rw [if_neg covered, overlay_of_not_mem (by omega), logicalByte, same]
  · have elsewhere : ¬ (writeAddr ≤ b ∧ b < writeAddr + n) := by
      intro covered
      apply same
      apply physicalAddr_div_congr
      simp only [pageSize] at hn inPage ⊢
      omega
    rw [if_neg elsewhere, logicalByte, logicalByte]
    exact congrArg (fun p : Page => p.data (b % pageSize)) (frame _ same)

/-- The loop stores the logical bytes, by induction on the rounds. -/
theorem writePieces_faultless {blocks : ℕ} (inj : Injective g r blocks) (depth : ℕ) {len : ℕ}
    (buf : Bytes) (rounds writeAddr remainLen : ℕ) {s : Spi}
    (faultless : Faultless env s.chip.ticks) (current : DataCurrent s)
    (enough : remainLen ≤ rounds) (within : remainLen ≤ len)
    (fits : writeAddr + remainLen ≤ blocks * eraseSize)
    (erased : ∀ i < remainLen, logicalByte g r s.chip.pages (writeAddr + i) = 0xff) :
    ∃ s', Routine.exec (nandMachine env) (writePieces g depth len buf rounds writeAddr remainLen)
        r s = some (.noError, r, s') ∧ s.chip.ticks ≤ s'.chip.ticks ∧ DataCurrent s' ∧
      ∀ b < blocks * eraseSize, logicalByte g r s'.chip.pages b =
        if writeAddr ≤ b ∧ b < writeAddr + remainLen then
          buf (len - remainLen + (b - writeAddr))
        else logicalByte g r s.chip.pages b := by
  induction rounds generalizing writeAddr remainLen s with
  | zero =>
      refine ⟨s, rfl, le_rfl, current, fun b _ => ?_⟩
      rw [if_neg (by omega)]
  | succ rounds ih =>
      by_cases none : remainLen = 0
      · refine ⟨s, ?_, le_rfl, current, fun b _ => by rw [if_neg (by omega)]⟩
        rw [writePieces, if_pos none, Routine.exec_pure]
      · obtain ⟨ok, ticks, last, bytes⟩ := pieceOp_faultless inj
          (fun i => buf (len - remainLen + i)) faultless current fits none erased
        have inPage : physicalAddr g r writeAddr % pageSize < pageSize :=
          Nat.mod_lt _ (by decide)
        have piece := writeDataLen_eq inPage remainLen
        rw [exec_writePieces_succ none ok]
        generalize writeDataLen (physicalAddr g r writeAddr % pageSize) remainLen = n
          at piece bytes ⊢
        generalize (nandMachine env (pieceOp g r writeAddr remainLen fun i =>
          buf (len - remainLen + i)) s).2 = mid at ticks last bytes ⊢
        have rest : ∀ i < remainLen - n,
            logicalByte g r mid.chip.pages (writeAddr + n + i) = 0xff := by
          intro i hi
          rw [bytes _ (by omega), if_neg (by omega), Nat.add_assoc]
          exact erased (n + i) (by omega)
        obtain ⟨s', run, later, current', stored⟩ := ih (writeAddr + n) (remainLen - n)
          (faultless.mono (by omega)) last (by omega) (by omega) (by omega) rest
        refine ⟨s', run, by omega, current', fun b hb => ?_⟩
        rw [stored b hb]
        by_cases now : writeAddr ≤ b ∧ b < writeAddr + n
        · rw [if_neg (by omega), bytes b hb, if_pos now, if_pos (by omega)]
        · by_cases next : writeAddr + n ≤ b ∧ b < writeAddr + n + (remainLen - n)
          · rw [if_pos next, if_pos (by omega)]
            congr 1
            omega
          · rw [if_neg next, bytes b hb, if_neg now, if_neg (by omega)]

end Write

/-! ## The array of bytes -/

/-- After a write without faults, a read of the range returns what was written, and a read
of any other byte what it returned before, from an array in the same state and with nothing
stale in memory. The page in memory before the write may be any. -/
theorem write_then_read {env : Env} {g : Geometry} {r : Ram} {blocks : ℕ}
    (inj : Injective g r blocks) (below : blocks * eraseSize ≤ 0xbc000000) (depth addr len : ℕ)
    (fits : addr + len ≤ blocks * eraseSize) (buf : Bytes) {s : Spi}
    (sound : Faultless env s.chip.ticks)
    (erased : ∀ i < len, logicalByte g r s.chip.pages (addr + i) = 0xff) :
    ∃ s', Routine.exec (nandMachine env) (spiNandWriteInternal g depth addr len buf) r s =
        some (.noError, r, s') ∧
      (∀ out, (spiNandReadInternal env g r addr len out s').1 = .noError ∧
        ∀ i < len, (spiNandReadInternal env g r addr len out s').2.1 i = buf i) ∧
      ∀ b < blocks * eraseSize, b < addr ∨ addr + len ≤ b →
        ∀ before : Spi, before.chip = s.chip → DataCurrent before → ∀ out out₀,
          (spiNandReadInternal env g r b 1 out s').2.1 0 =
            (spiNandReadInternal env g r b 1 out₀ before).2.1 0 := by
  have cleared : DataCurrent (clearReadCacheData s) := fun p hp => by cases hp
  obtain ⟨s', run, later, current, stored⟩ := writePieces_faultless inj depth buf len addr len
    (s := clearReadCacheData s) sound cleared le_rfl le_rfl fits erased
  have sound' : Faultless env s'.chip.ticks := sound.mono later
  refine ⟨s', ?_, fun out => ⟨rfl, fun i hi => ?_⟩, ?_⟩
  · rw [spiNandWriteInternal, Routine.exec_bind, Routine.exec_perform]
    exact run
  · rw [(spiNandReadInternal_faultless sound' current (by omega) len out).2 i hi,
      stored _ (by omega), if_pos (by omega)]
    congr 1
    omega
  · intro b hb outside before same current₀ out out₀
    rw [(spiNandReadInternal_faultless sound' current (by omega) 1 out).2 0 Nat.one_pos,
      (spiNandReadInternal_faultless (by rwa [same]) current₀ (by omega) 1 out₀).2 0 Nat.one_pos,
      same]
    exact (stored b hb).trans (if_neg (by omega))

/-- The tables of a device without bad blocks. -/
def unmappedRam : Ram := { Ram.initial with pBbt := id }

theorem injective_unmappedRam : Injective eightBlocks unmappedRam 4 := by
  have identity : ∀ b, b < 4 → (getMappingBlockIndex eightBlocks unmappedRam b).1 = b := by decide
  intro a ha b hb same
  simpa only [identity a ha, identity b hb] using same

/-- Three bytes across the border between the blocks 0 and 1. -/
theorem write_then_read_across_blocks :
    ∃ s', Routine.exec (nandMachine faultless)
        (spiNandWriteInternal eightBlocks 5 131070 3 fun i => UInt8.ofNat (i + 7)) unmappedRam
        blankSpi = some (.noError, unmappedRam, s') ∧
      (spiNandReadInternal faultless eightBlocks unmappedRam 131070 3 allOnes s').2.1 2 = 9 := by
  have sound : Faultless faultless 0 := fun _ _ => ⟨rfl, fun _ => rfl⟩
  obtain ⟨s', run, read, -⟩ := write_then_read (s := blankSpi) injective_unmappedRam
    (by decide) 5 131070 3 (by decide) (fun i => UInt8.ofNat (i + 7)) sound (fun _ _ => rfl)
  exact ⟨s', run, ((read allOnes).2 2 (by decide)).trans rfl⟩

end En7512.Flash
