/-
# The length a write reports

`SPI_NAND_Flash_Write_Nbyte` has a place for the number of bytes it has stored. The
function under it clears that place, and then it moves its pointer by the length of each
piece instead of adding the length to what is there. The function itself puts the length
it was asked for there, whatever has happened.

Beside the loop stands the same loop with a count of the bytes whose page has been
programmed or whose block has been replaced. The two lengths are the same when every
program that fails is recovered, and only then.
-/

import En7512.Flash.BlockErase
import En7512.Flash.ByteArray

namespace En7512.Flash

open En7512.Logic En7512.Nand En7512.Bmt En7512.Logic.Routine

/-- `spi_nand_write_internal`, with what it leaves at `*ptr_rtn_len`: it stores a zero, and
`ptr_rtn_len += data_len` changes the pointer only. -/
def spiNandWriteInternalLen (g : Geometry) (depth dstAddr len : ℕ) (buf : Bytes) :
    Drv (Rtn × ℕ) := do
  let rtnStatus ← spiNandWriteInternal g depth dstAddr len buf
  pure (rtnStatus, 0)

/-- `SPI_NAND_Flash_Write_Nbyte`: the status and `*ptr_rtn_len`. -/
def spiNandFlashWriteNbyte (g : Geometry) (depth dstAddr len : ℕ) (buf : Bytes) :
    Drv (Rtn × ℕ) := do
  let (rtnStatus, _) ← spiNandWriteInternalLen g depth dstAddr len buf
  pure (rtnStatus, len)

/-! ## The bytes that have been stored -/

/-- `writePieces`, with the number of bytes stored so far: the lengths of the pieces whose
page has been programmed, or whose block has been replaced. -/
def writePiecesStored (g : Geometry) (depth len : ℕ) (buf : Bytes) :
    ℕ → ℕ → ℕ → ℕ → Drv (Rtn × ℕ)
  | 0, _, _, count => pure (.noError, count)
  | rounds + 1, writeAddr, remainLen, count =>
      if remainLen = 0 then pure (.noError, count)
      else do
        let r ← get
        let dataLen := writeDataLen (physicalAddr g r writeAddr % pageSize) remainLen
        let stored ← writePiece g depth writeAddr remainLen fun i => buf (len - remainLen + i)
        if stored then
          writePiecesStored g depth len buf rounds (writeAddr + dataLen) (remainLen - dataLen)
            (count + dataLen)
        else pure (.minusOne, count)

/-- `spiNandWriteInternal`, with the number of bytes stored. -/
def spiNandWriteInternalStored (g : Geometry) (depth dstAddr len : ℕ) (buf : Bytes) :
    Drv (Rtn × ℕ) := do
  Routine.perform NandOp.clearCache
  writePiecesStored g depth len buf len dstAddr len 0

section Erase

variable {σ : Type} {M : Machine NandOp NandResp σ} {g : Geometry} {r : Ram} {s : σ}

/-- Without the count it is the loop of the source. -/
theorem exec_writePiecesStored (depth len : ℕ) (buf : Bytes)
    (rounds writeAddr remainLen count : ℕ) :
    (exec M (writePiecesStored g depth len buf rounds writeAddr remainLen count) r s).map
        (fun out => (out.1.1, out.2)) =
      exec M (writePieces g depth len buf rounds writeAddr remainLen) r s := by
  induction rounds generalizing writeAddr remainLen count r s with
  | zero => rfl
  | succ rounds ih =>
      rw [writePiecesStored, writePieces]
      split
      · rfl
      · simp only [exec_bind, exec_get, Option.bind_some, Option.map_bind]
        congr 1
        ext1 ⟨stored, r₁, s₁⟩
        cases stored with
        | true => exact ih ..
        | false => rfl

theorem exec_spiNandWriteInternalStored (depth dstAddr len : ℕ) (buf : Bytes) :
    (exec M (spiNandWriteInternalStored g depth dstAddr len buf) r s).map
        (fun out => (out.1.1, out.2)) =
      exec M (spiNandWriteInternal g depth dstAddr len buf) r s := by
  rw [spiNandWriteInternalStored, spiNandWriteInternal, exec_bind, exec_bind]
  exact exec_writePiecesStored ..

/-- The status is the one below, and the length is the one asked for. -/
theorem exec_spiNandFlashWriteNbyte (depth dstAddr len : ℕ) (buf : Bytes) :
    exec M (spiNandFlashWriteNbyte g depth dstAddr len buf) r s =
      (exec M (spiNandWriteInternal g depth dstAddr len buf) r s).map
        fun out => ((out.1, len), out.2) := by
  rw [spiNandFlashWriteNbyte, spiNandWriteInternalLen, exec_bind, exec_bind]
  cases exec M (spiNandWriteInternal g depth dstAddr len buf) r s <;> rfl

end Erase

/-! ## When every failure is recovered -/

/-- In the rounds of the loop, every program that fails is recovered by `update_bmt`. -/
def FailuresRecovered {σ : Type} (M : Machine NandOp NandResp σ) (g : Geometry) (depth len : ℕ)
    (buf : Bytes) : ℕ → ℕ → ℕ → Ram → σ → Prop
  | 0, _, _, _, _ => True
  | rounds + 1, writeAddr, remainLen, r, s =>
      remainLen = 0 ∨
        let dat : Bytes := fun i => buf (len - remainLen + i)
        let block := getMappingBlockIndex g r (writeAddr / eraseSize)
        let dataLen := writeDataLen (physicalAddr g r writeAddr % pageSize) remainLen
        let s₁ := (M (pieceOp g r writeAddr remainLen dat) s).2
        if (M (pieceOp g r writeAddr remainLen dat) s).1 = (true : Bool) then
          FailuresRecovered M g depth len buf rounds (writeAddr + dataLen) (remainLen - dataLen)
            r s₁
        else
          ∃ r' s', exec M (updateBmt g depth (physicalAddr g r writeAddr / pageSize * pageSize)
              .writeFail (some dat) (some (writeOobBuf g block.1 block.2))) r s₁ =
              some (true, r', s') ∧
            FailuresRecovered M g depth len buf rounds (writeAddr + dataLen)
              (remainLen - dataLen) r' s'

section Recovered

variable {σ : Type} {M : Machine NandOp NandResp σ} {g : Geometry} {r : Ram} {s : σ}

/-- One piece: the program, and `update_bmt` if it fails. -/
theorem exec_writePiece (depth writeAddr remainLen : ℕ) (dat : Bytes) :
    exec M (writePiece g depth writeAddr remainLen dat) r s =
      if (M (pieceOp g r writeAddr remainLen dat) s).1 = (true : Bool) then
        some (true, r, (M (pieceOp g r writeAddr remainLen dat) s).2)
      else
        exec M (updateBmt g depth (physicalAddr g r writeAddr / pageSize * pageSize) .writeFail
          (some dat) (some (writeOobBuf g (getMappingBlockIndex g r (writeAddr / eraseSize)).1
            (getMappingBlockIndex g r (writeAddr / eraseSize)).2))) r
          (M (pieceOp g r writeAddr remainLen dat) s).2 := by
  rw [writePiece]
  simp only [exec_bind, exec_get, exec_perform, Option.bind_some]
  split <;> rfl

theorem writeDataLen_pos {addrOffset remainLen : ℕ} (inPage : addrOffset < pageSize)
    (some_left : remainLen ≠ 0) : 0 < writeDataLen addrOffset remainLen := by
  rw [writeDataLen_eq inPage]
  exact lt_min (Nat.pos_of_ne_zero some_left) (Nat.sub_pos_of_lt inPage)

theorem writeDataLen_le {addrOffset : ℕ} (inPage : addrOffset < pageSize) (remainLen : ℕ) :
    writeDataLen addrOffset remainLen ≤ remainLen := by
  rw [writeDataLen_eq inPage]
  exact min_le_left ..

theorem failuresRecovered_zero (depth len : ℕ) (buf : Bytes) (rounds writeAddr : ℕ) :
    FailuresRecovered M g depth len buf rounds writeAddr 0 r s := by
  cases rounds with
  | zero => trivial
  | succ rounds => exact .inl rfl

/-- One round whose piece is stored, by the program or by `update_bmt`. -/
theorem failuresRecovered_succ {depth len : ℕ} {buf : Bytes} {rounds writeAddr remainLen : ℕ}
    {r' : Ram} {s' : σ} (some_left : remainLen ≠ 0)
    (piece : exec M (writePiece g depth writeAddr remainLen
      fun i => buf (len - remainLen + i)) r s = some (true, r', s')) :
    FailuresRecovered M g depth len buf (rounds + 1) writeAddr remainLen r s ↔
      FailuresRecovered M g depth len buf rounds
        (writeAddr + writeDataLen (physicalAddr g r writeAddr % pageSize) remainLen)
        (remainLen - writeDataLen (physicalAddr g r writeAddr % pageSize) remainLen) r' s' := by
  rw [exec_writePiece] at piece
  rw [FailuresRecovered, or_iff_right some_left]
  split at piece
  · next written =>
    cases piece
    exact iff_of_eq (if_pos written)
  · next failed =>
    rw [if_neg failed, piece]
    constructor
    · rintro ⟨r₁, s₁, same, rest⟩
      cases same
      exact rest
    · exact fun rest => ⟨r', s', rfl, rest⟩

/-- A round whose piece is not stored. -/
theorem not_failuresRecovered_succ {depth len : ℕ} {buf : Bytes}
    {rounds writeAddr remainLen : ℕ} {r' : Ram} {s' : σ} (some_left : remainLen ≠ 0)
    (piece : exec M (writePiece g depth writeAddr remainLen
      fun i => buf (len - remainLen + i)) r s = some (false, r', s')) :
    ¬ FailuresRecovered M g depth len buf (rounds + 1) writeAddr remainLen r s := by
  rw [exec_writePiece] at piece
  rw [FailuresRecovered, or_iff_right some_left]
  split at piece
  · cases piece
  · next failed =>
    rw [if_neg failed, piece]
    rintro ⟨r₁, s₁, same, -⟩
    cases same

/-- The count reaches what was asked for when all failures have been recovered, and only
then. -/
theorem writePiecesStored_count {depth len : ℕ} {buf : Bytes}
    {rounds writeAddr remainLen count stored : ℕ} {rtn : Rtn} {r' : Ram} {s' : σ}
    (enough : remainLen ≤ rounds)
    (run : exec M (writePiecesStored g depth len buf rounds writeAddr remainLen count) r s =
      some ((rtn, stored), r', s')) :
    count + remainLen = stored ↔
      FailuresRecovered M g depth len buf rounds writeAddr remainLen r s := by
  induction rounds generalizing writeAddr remainLen count r s with
  | zero =>
      obtain rfl := Nat.le_zero.mp enough
      cases run
      exact iff_of_true rfl (failuresRecovered_zero ..)
  | succ rounds ih =>
      rw [writePiecesStored] at run
      split at run
      · next none_left =>
        subst none_left
        cases run
        exact iff_of_true rfl (failuresRecovered_zero ..)
      · next some_left =>
        have inPage : physicalAddr g r writeAddr % pageSize < pageSize :=
          Nat.mod_lt _ (by decide)
        have pos := writeDataLen_pos inPage some_left
        have le := writeDataLen_le inPage remainLen
        simp only [exec_bind, exec_get, Option.bind_some] at run
        obtain ⟨⟨done, r₁, s₁⟩, piece, run⟩ := Option.bind_eq_some_iff.mp run
        cases done with
        | true =>
            rw [failuresRecovered_succ some_left piece]
            rw [← ih (by omega) run, Nat.add_assoc, Nat.add_sub_cancel' le]
        | false =>
            cases run
            apply iff_of_false
            · omega
            · exact not_failuresRecovered_succ some_left piece

end Recovered

/-- The array fails at the given operations, and leaves the pages erased. -/
def failsAt (ticks : List ℕ) : Env :=
  { faultless with outcome := fun t => if t ∈ ticks then .fail fun _ => .erased else .done }

/-- The driver is set up on an erased chip. -/
def readyChip (ticks : List ℕ) : Option (Bool × Ram × Spi) :=
  exec (nandMachine (failsAt ticks)) (spiNandSetup eightBlocks 5) Ram.initial blankSpi

/-- Two pages are written to logical block 1. -/
def writeTwoPages : Drv (Rtn × ℕ) :=
  spiNandFlashWriteNbyte eightBlocks 5 eraseSize 4096 fun _ => 7

/-- The same with the count of what is stored. -/
def storeTwoPages : Drv (Rtn × ℕ) :=
  spiNandWriteInternalStored eightBlocks 5 eraseSize 4096 fun _ => 7

end En7512.Flash
