/-
# Reading a page in chunks

`NAND_CMD_READ0` and `NAND_CMD_READOOB` put a position into a page, and the calls that
follow take bytes from there on: `spinand_read_buf` any number of them and
`spinand_read_byte` one. `pageStream` numbers the bytes they are meant to give, the data of
the page first and the spare bytes for Linux behind it.

The position is moved on by both functions in the same way. What they copy from is not the
same: a call that begins in the data does not go over to the spare area, and
`spinand_read_byte` looks at the buffer for writing. `reads_page_iff` says which sequences
of calls give the bytes of the page.
-/

import En7512.Nand.OobLoops
import En7512.Mtd.Commands
import En7512.Flash.WriteLength

namespace En7512.Mtd

open En7512.Logic En7512.Nand En7512.Bmt En7512.Flash

/-- A call that takes bytes out of a page. -/
inductive ReadCall
  /-- `spinand_read_buf` for this many bytes. -/
  | buf (len : ℕ)
  /-- `spinand_read_byte`. -/
  | byte

/-- The number of bytes of a call. -/
def ReadCall.length : ReadCall → ℕ
  | .buf len => len
  | .byte => 1

/-- The number of bytes of all the calls. -/
def totalLength (calls : List ReadCall) : ℕ := (calls.map ReadCall.length).sum

/-- One call. -/
def runCall (behind : Bytes) (m : MtdInfo) : ReadCall → List UInt8 × MtdInfo
  | .buf len => spinandReadBuf behind len m
  | .byte => ([(spinandReadByte m).1], (spinandReadByte m).2)

/-- The calls one after the other; their bytes are put together. -/
def runReads (behind : Bytes) : List ReadCall → MtdInfo → List UInt8 × MtdInfo
  | [], m => ([], m)
  | call :: calls, m =>
      let (out, m) := runCall behind m call
      let (rest, m) := runReads behind calls m
      (out ++ rest, m)

/-- The data of a page, followed by the spare bytes for Linux. -/
def pageStream (L : OobLayout) (p : Page) : Bytes := fun i =>
  if i < pageSize then p.data i else p.oob (L.pos (i - pageSize + linuxUseOobStartOffset))

/-- The same bytes of the page in memory. -/
def cacheStream (cache : Cache) : Bytes := fun i =>
  if i < pageSize then cache.data i
  else cache.oobMapping (i - pageSize + linuxUseOobStartOffset)

/-- The calls, each with the position it begins at. -/
def callsAt : ℕ → List ReadCall → List (ℕ × ReadCall)
  | _, [] => []
  | idx, call :: calls => (idx, call) :: callsAt (idx + call.length) calls

/-- What a call at position `idx` copies: `cache` is the page in memory, and `buf` the buffer
for writing. -/
def callSource (behind buf : Bytes) (cache : Cache) (idx : ℕ) : ReadCall → Bytes
  | .buf _ => fun i =>
      if idx < pageSize ∧ pageSize ≤ i then behind (i - pageSize) else cacheStream cache i
  | .byte => buf

/-! ## The calls -/

section Calls

variable {behind : Bytes} {m : MtdInfo}

/-- A call copies its bytes from the position, and moves the position on. -/
theorem runCall_eq (call : ReadCall) :
    runCall behind m call =
      ((List.range' m.state.bufIdx call.length).map
        (callSource behind m.state.buf m.spi.cache m.state.bufIdx call),
        { m with state := { m.state with bufIdx := m.state.bufIdx + call.length } }) := by
  cases call with
  | byte => rfl
  | buf len =>
      rw [runCall, spinandReadBuf, ReadCall.length, List.range'_eq_map_range, List.map_map]
      congr 1
      apply List.map_congr_left
      intro k _
      simp only [Function.comp_apply, callSource, dataMemory, cacheStream]
      by_cases inData : m.state.bufIdx < pageSize
      · by_cases crossed : m.state.bufIdx + k < pageSize
        · simp [inData, crossed]
        · simp [inData, crossed, not_lt.mp crossed]
      · have spare : ¬ m.state.bufIdx + k < pageSize := by omega
        have next : m.state.bufIdx - pageSize + linuxUseOobStartOffset + k =
            m.state.bufIdx + k - pageSize + linuxUseOobStartOffset := by omega
        simp [inData, spare, next]

/-- The calls give consecutive bytes of `want` when each of them does. -/
theorem runReads_eq_iff (calls : List ReadCall) (want : Bytes) :
    (runReads behind calls m).1 =
        (List.range' m.state.bufIdx (totalLength calls)).map want ↔
      ∀ at_idx ∈ callsAt m.state.bufIdx calls, ∀ i, at_idx.1 ≤ i →
        i < at_idx.1 + at_idx.2.length →
          callSource behind m.state.buf m.spi.cache at_idx.1 at_idx.2 i = want i := by
  induction calls generalizing m with
  | nil => simp [runReads, totalLength, callsAt]
  | cons call calls ih =>
      have total : totalLength (call :: calls) = call.length + totalLength calls := rfl
      rw [runReads, runCall_eq, callsAt, List.forall_mem_cons, total, ← List.range'_append_1,
        List.map_append]
      have later := @ih { m with
        state := { m.state with bufIdx := m.state.bufIdx + call.length } }
      constructor
      · intro same
        obtain ⟨first, rest⟩ := List.append_inj same (by simp)
        constructor
        · intro i above below
          exact List.map_inj_left.mp first i (List.mem_range'_1.mpr ⟨above, below⟩)
        · exact later.mp rest
      · intro ⟨first, rest⟩
        show _ ++ _ = _ ++ _
        rw [later.mpr rest]
        congr 1
        apply List.map_congr_left
        intro i inside
        obtain ⟨above, below⟩ := List.mem_range'_1.mp inside
        exact first i above below

end Calls

/-! ## The page -/

/-- What makes a call at position `idx` give the bytes `want` of a page: a byte is in the
buffer for writing; what a call from the data on finds behind the data is right; and if the
page is not read, the page in memory is right. -/
def CallServed (behind buf : Bytes) (cache : Cache) (unread : Prop) (want : Bytes) (idx : ℕ) :
    ReadCall → Prop
  | .buf len => ∀ i, idx ≤ i → i < idx + len →
      if idx < pageSize ∧ pageSize ≤ i then behind (i - pageSize) = want i
      else unread → cacheStream cache i = want i
  | .byte => buf idx = want idx

section Page

variable {env : Env} {g : Geometry} {page : ℕ}

theorem mem_callsAt_le {calls : List ReadCall} {idx : ℕ} {call : ℕ × ReadCall}
    (member : call ∈ callsAt idx calls) :
    call.1 + call.2.length ≤ idx + totalLength calls := by
  induction calls generalizing idx with
  | nil => cases member
  | cons first calls ih =>
      have total : totalLength (first :: calls) = first.length + totalLength calls := rfl
      obtain rfl | later := List.mem_cons.mp member
      · dsimp only
        omega
      · have := ih later
        omega

/-- Reading a page into memory, for the position of a command. -/
theorem readPageAt_eq (idx : ℕ) (m : MtdInfo) :
    readPageAt env g idx page m = some { m with
      state := { m.state with bufIdx := idx }
      spi := (spiNandReadPage env (physicalPage g m.ram page) m.spi).2 } := by
  rw [readPageAt, spiNandReadPageInternal]
  simp only [Routine.exec_bind, Routine.exec_get, Routine.exec_perform, Routine.exec_pure,
    Option.bind_some, Option.map_some]
  rfl

/-- The page in memory after it has been read. -/
theorem readPage_cacheStream (env : Env) (page : ℕ) (s : Spi) {i : ℕ}
    (inside : i < pageSize + maxLinuxUseOobSize) :
    (Unread env page s →
      cacheStream (spiNandReadPage env page s).2.cache i = cacheStream s.cache i) ∧
    (¬ Unread env page s →
      cacheStream (spiNandReadPage env page s).2.cache i =
        pageStream env.layout (s.chip.pages page) i) := by
  rw [spiNandReadPage, Unread]
  split
  · next hit => exact ⟨fun _ => rfl, fun fresh => absurd (.inl hit) fresh⟩
  · next miss =>
    split
    · next fails => exact ⟨fun _ => rfl, fun fresh => absurd (.inr fails) fresh⟩
    · next passes =>
      constructor
      · exact fun unread => absurd unread (not_or.mpr ⟨miss, passes⟩)
      · intro _
        rw [cacheStream, pageStream]
        split
        · rfl
        · next spare =>
          apply OobLayout.gather_of_lt
          have room := env.layout.room
          simp only [maxLinuxUseOobSize, linuxUseOobStartOffset] at inside ⊢
          omega

/-- A call finds the bytes of the page when it is served. -/
theorem callSource_iff {behind buf : Bytes} {s : Spi} {idx : ℕ} {call : ReadCall}
    (inside : idx + call.length ≤ pageSize + maxLinuxUseOobSize) :
    (∀ i, idx ≤ i → i < idx + call.length →
      callSource behind buf (spiNandReadPage env page s).2.cache idx call i =
        pageStream env.layout (s.chip.pages page) i) ↔
      CallServed behind buf s.cache (Unread env page s)
        (pageStream env.layout (s.chip.pages page)) idx call := by
  cases call with
  | byte =>
      rw [ReadCall.length, CallServed]
      constructor
      · exact fun all => all idx le_rfl (Nat.lt_succ_self idx)
      · intro right i above below
        obtain rfl : i = idx := by omega
        exact right
  | buf len =>
      apply forall_congr'
      intro i
      apply forall₂_congr
      intro _ below
      rw [ReadCall.length] at inside below
      simp only [callSource]
      obtain ⟨stale, fresh⟩ := readPage_cacheStream env page s (i := i) (by omega)
      split
      · rfl
      · by_cases unread : Unread env page s
        · rw [stale unread, forall_prop_of_true unread]
        · rw [fresh unread]
          exact iff_of_true rfl fun h => absurd h unread

end Page

/-- The position that a command for reading puts into a page. -/
def Command.start : Command → ℕ → ℕ
  | .readOob, column => column + pageSize
  | _, column => column

/-- After `NAND_CMD_READ0` or `NAND_CMD_READOOB` the calls give the consecutive bytes of the
page if and only if each of them is served. -/
theorem reads_page_iff {env : Env} {g : Geometry} {depth addrOffset column page : ℕ}
    {command : Command} {m m' : MtdInfo} (behind : Bytes) (calls : List ReadCall)
    (reading : command = .read0 ∨ command = .readOob)
    (issued : spinandCmdfunc env g depth addrOffset command column page m = some m')
    (inside : command.start column + totalLength calls ≤ pageSize + maxLinuxUseOobSize) :
    (runReads behind calls m').1 = (List.range' (command.start column) (totalLength calls)).map
        (pageStream env.layout (m.spi.chip.pages (physicalPage g m.ram page))) ↔
      ∀ call ∈ callsAt (command.start column) calls,
        CallServed behind m.state.buf m.spi.cache
          (Unread env (physicalPage g m.ram page) m.spi)
          (pageStream env.layout (m.spi.chip.pages (physicalPage g m.ram page))) call.1 call.2 := by
  have placed : readPageAt env g (command.start column) page m = some m' := by
    obtain rfl | rfl := reading
    · exact issued
    · exact issued
  rw [readPageAt_eq] at placed
  cases placed
  rw [runReads_eq_iff]
  apply forall₂_congr
  intro call member
  exact callSource_iff ((mem_callsAt_le member).trans inside)

/-- A call of `spinand_read_buf` on one side of the end of the data is served when the page
has been read for it. -/
theorem callServed_of_split {behind buf want : Bytes} {cache : Cache} {unread : Prop}
    {idx len : ℕ} (read : ¬ unread) (split : idx + len ≤ pageSize ∨ pageSize ≤ idx) :
    CallServed behind buf cache unread want idx (.buf len) := by
  intro i above below
  rw [if_neg (by omega)]
  exact fun h => absurd h read

/-- The interface when the driver has been set up on an erased chip. -/
def readyMtd (r : Ram) (s : Spi) : MtdInfo := ⟨.initial, r, s⟩

/-- The end of the data and the spare bytes are read in three calls. -/
theorem reads_page_three : ∃ done r s m', readyChip [] = some (done, r, s) ∧
    spinandCmdfunc (failsAt []) eightBlocks 5 0 .read0 2040 64 (readyMtd r s) = some m' ∧
    (runReads allOnes [.buf 8, .buf 20, .buf 6] m').1 = (List.range' 2040 34).map
      (pageStream ooblayoutMxic (s.chip.pages (physicalPage eightBlocks r 64))) := by
  have told : (readyChip []).map (fun out =>
      (out.2.2.cache.pageNum, physicalPage eightBlocks out.2.1 64)) = some (some 256, 64) := by
    decide +kernel
  obtain ⟨⟨done, r, s⟩, ready, same⟩ := Option.map_eq_some_iff.mp told
  obtain ⟨held, physical⟩ := Prod.mk.inj same
  have read : ¬ Unread (failsAt []) (physicalPage eightBlocks r 64) s := by
    rw [Unread, held, physical]
    simp [failsAt, faultless]
  have issued : spinandCmdfunc (failsAt []) eightBlocks 5 0 .read0 2040 64 (readyMtd r s) =
      some _ := readPageAt_eq ..
  refine ⟨done, r, s, _, ready, issued, ?_⟩
  apply (reads_page_iff allOnes _ (.inl rfl) issued (by decide)).mpr
  intro call member
  obtain rfl | rfl | rfl : call = (2040, .buf 8) ∨ call = (2048, .buf 20) ∨
      call = (2068, .buf 6) := by
    simpa [callsAt, ReadCall.length, Command.start] using member
  · exact callServed_of_split read (by decide)
  · exact callServed_of_split read (by decide)
  · exact callServed_of_split read (by decide)

/-- The first byte of an erased page is read with `spinand_read_byte`. -/
theorem reads_page_wrong : ∃ done r s m', readyChip [] = some (done, r, s) ∧
    spinandCmdfunc (failsAt []) eightBlocks 5 0 .read0 0 64 (readyMtd r s) = some m' ∧
    (runReads allOnes [.byte] m').1 = [0] ∧
    (List.range' 0 1).map
      (pageStream ooblayoutMxic (s.chip.pages (physicalPage eightBlocks r 64))) = [0xff] := by
  have told : (readyChip []).map (fun out =>
      (out.2.2.chip.pages (physicalPage eightBlocks out.2.1 64)).data 0) = some 0xff := by
    decide +kernel
  obtain ⟨⟨done, r, s⟩, ready, erased⟩ := Option.map_eq_some_iff.mp told
  have issued : spinandCmdfunc (failsAt []) eightBlocks 5 0 .read0 0 64 (readyMtd r s) =
      some _ := readPageAt_eq ..
  refine ⟨done, r, s, _, ready, issued, rfl, ?_⟩
  show [_] = [_]
  congr 1

end En7512.Mtd
