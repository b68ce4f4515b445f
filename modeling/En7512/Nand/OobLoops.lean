/-
# Scattering and gathering the spare area

`spi_nand_read_page` and `spi_nand_write_page` each walk the layout of the spare area in two
nested loops of their own: one gathers the free bytes into the logical spare area, the other
clears bits of the physical one. Here stand the loops as they are written, for any layout,
and `readPageLoops_eq` and `writePageLoops_eq` say that the page layer does what they do.

The two walks number the same positions. What has been written is read back wherever the
page was read before it was changed; a page that is in memory is not read again, and stale
bytes of it are programmed with the new ones.
-/

import En7512.Logic.Segments
import En7512.Nand.PageCache

namespace En7512.Nand

open En7512.Logic

/-! ## The loops -/

/-- `struct spi_nand_flash_ooblayout`: the number of logical spare bytes and the entries. -/
structure RawOobLayout where
  /-- Number of logical spare bytes. -/
  oobsize : ℕ
  /-- The parts of the spare area the driver may use. -/
  oobfree : List OobFree

namespace RawOobLayout

variable (lay : RawOobLayout)

/-- The entries as offsets and lengths. -/
def entries : List (ℕ × ℕ) := lay.oobfree.map fun e => (e.offset, e.len)

/-- The loops at the end of `spi_nand_read_page`, from physical to logical offsets. -/
def gatherLoop (oob oobMapping : Bytes) : Bytes :=
  walkSegments (fun idx => idx < lay.oobsize)
    (fun idx pos mapping => Function.update mapping idx (oob pos))
    oobFreeEntryMax lay.entries 0 oobMapping

/-- The loops of `spi_nand_write_page`, from logical to physical offsets. Both of them test
`idx < oob_len` besides, and the inner one tests `idx < oobsize` twice. -/
def scatterLoop (oob w : Bytes) (oobLen : ℕ) : Bytes :=
  if oobLen > 0 then
    walkSegments (fun idx => idx < lay.oobsize && idx < oobLen)
      (fun idx pos oob => Function.update oob pos (oob pos &&& w idx))
      oobFreeEntryMax lay.entries 0 oob
  else oob

/-- The entries before the end of the list. -/
def used : List (ℕ × ℕ) := usedSegments oobFreeEntryMax lay.entries

/-- The physical offsets of the logical spare bytes, in order. -/
def positions : List ℕ := (segmentPositions lay.used).take lay.oobsize

/-- The entries are disjoint, lie inside a spare area of `area` bytes, and add up to at least
`oobsize`. -/
structure Valid (area : ℕ) : Prop where
  disjoint : lay.used.Pairwise fun e f => e.1 + e.2 ≤ f.1 ∨ f.1 + f.2 ≤ e.1
  inside : ∀ e ∈ lay.used, e.1 + e.2 ≤ area
  room : lay.oobsize ≤ (lay.used.map Prod.snd).sum

/-- The layout of the chip that was probed. -/
def ofLayout (L : OobLayout) : RawOobLayout := ⟨L.oobsize, L.oobfree⟩

section Loops

variable {lay}

/-- The reading loops store what is at the positions. -/
theorem gatherLoop_apply (oob oobMapping : Bytes) (i : ℕ) :
    lay.gatherLoop oob oobMapping i =
      if i < lay.positions.length then oob (lay.positions.getD i 0) else oobMapping i := by
  rw [gatherLoop, walkSegments_eq, visitAll_store, Nat.sub_zero, Nat.sub_zero, Nat.zero_add]
  apply if_congr _ rfl rfl
  exact and_iff_right (Nat.zero_le i)

/-- The writing loops clear bits at the first of the same positions. -/
theorem scatterLoop_apply (nodup : lay.positions.Nodup) (oob w : Bytes) (oobLen j : ℕ) :
    lay.scatterLoop oob w oobLen j =
      if j ∈ lay.positions.take oobLen then oob j &&& w (lay.positions.idxOf j) else oob j := by
  have both : (fun idx => decide (idx < lay.oobsize) && decide (idx < oobLen)) =
      fun idx => decide (idx < min oobLen lay.oobsize) := by
    ext idx
    simp only [lt_min_iff, Bool.decide_and, Bool.and_comm]
  have firsts : (segmentPositions (usedSegments oobFreeEntryMax lay.entries)).take
      (min oobLen lay.oobsize) = lay.positions.take oobLen := by
    rw [positions, List.take_take, used]
  rw [scatterLoop]
  split
  · rw [both, walkSegments_eq, Nat.sub_zero, firsts,
      visitAll_modify (fun x idx => x &&& w idx) (nodup.sublist (List.take_sublist ..))]
    split
    · next covered => rw [Nat.zero_add, (List.take_prefix ..).idxOf_eq_of_mem covered]
    · rfl
  · next none =>
    rw [Nat.eq_zero_of_not_pos none, List.take_zero, if_neg List.not_mem_nil]

end Loops

/-! ## Valid layouts -/

section Valid

variable {lay} {area : ℕ} (valid : lay.Valid area)

include valid

theorem Valid.nodup : lay.positions.Nodup :=
  (nodup_segmentPositions valid.disjoint).sublist (List.take_sublist ..)

theorem Valid.length_positions : lay.positions.length = lay.oobsize := by
  rw [positions, List.length_take, length_segmentPositions]
  exact min_eq_left valid.room

theorem Valid.lt_area {j : ℕ} (member : j ∈ lay.positions) : j < area := by
  obtain ⟨e, used, -, below⟩ := mem_segmentPositions.mp (List.mem_of_mem_take member)
  exact below.trans_le (valid.inside e used)

end Valid

end RawOobLayout

/-! ## The page layer with its loops -/

variable (env : Env) (lay : RawOobLayout)

/-- `spi_nand_read_page`, with the loops over the layout `lay`. -/
def spiNandReadPageLoops (page : ℕ) (s : Spi) : Rtn × Spi :=
  if s.cache.pageNum = some page then (.noError, s)
  else if env.uncorrectable s.chip.ticks page then (.detectedBadBlock, s)
  else
    let p := s.chip.pages page
    (.noError, { s with cache := ⟨some page, p.data, p.oob,
      lay.gatherLoop p.oob s.cache.oobMapping⟩ })

/-- `spi_nand_write_page`, with the loops over the layout `lay`. -/
def spiNandWritePageLoops (page dataOffset : ℕ) (dat : Bytes) (dataLen : ℕ) (oob : Bytes)
    (oobLen : ℕ) (s : Spi) : Rtn × Spi :=
  let s := (spiNandReadPageLoops env lay page s).2
  let cache := { s.cache with
    data := overlay s.cache.data dataOffset dat dataLen
    oob := lay.scatterLoop s.cache.oob oob oobLen }
  let (ok, chip) := s.chip.program env page ⟨cache.data, cache.oob⟩
  (if ok then .noError else .programFail, ⟨chip, cache⟩)

section Refines

variable {env}

theorem positions_ofLayout (L : OobLayout) :
    (RawOobLayout.ofLayout L).positions = L.positions := by
  simp only [RawOobLayout.positions, RawOobLayout.used, RawOobLayout.entries,
    RawOobLayout.ofLayout, OobLayout.positions, oobPositions, usedSegments, segmentPositions,
    ← List.map_take, List.takeWhile_map, List.flatMap_map, List.range_eq_range']
  rfl

theorem gatherLoop_ofLayout (L : OobLayout) :
    (RawOobLayout.ofLayout L).gatherLoop = L.gather := by
  ext oob oobMapping i
  rw [RawOobLayout.gatherLoop_apply, positions_ofLayout, L.positions_length, OobLayout.gather,
    OobLayout.pos]

theorem scatterLoop_ofLayout (L : OobLayout) :
    (RawOobLayout.ofLayout L).scatterLoop = L.scatter := by
  ext oob w oobLen j
  rw [RawOobLayout.scatterLoop_apply (by rw [positions_ofLayout]; exact L.nodup),
    positions_ofLayout, OobLayout.scatter]

/-- Reading a page in the page layer is reading it with the loops. -/
theorem readPageLoops_eq :
    spiNandReadPageLoops env (.ofLayout env.layout) = spiNandReadPage env := by
  ext1 page
  ext1 s
  rw [spiNandReadPageLoops, spiNandReadPage, gatherLoop_ofLayout]

/-- Writing a page in the page layer is writing it with the loops. -/
theorem writePageLoops_eq :
    spiNandWritePageLoops env (.ofLayout env.layout) = spiNandWritePage env := by
  ext1 page
  ext1 dataOffset
  ext1 dat
  ext1 dataLen
  ext1 oob
  ext1 oobLen
  ext1 s
  rw [spiNandWritePageLoops, spiNandWritePage, readPageLoops_eq, scatterLoop_ofLayout]

end Refines

/-! ## What is stored -/

variable (page : ℕ) (s : Spi)

/-- The page is not read before it is changed: it is in memory, or reading it fails. -/
def Unread : Prop := s.cache.pageNum = some page ∨ env.uncorrectable s.chip.ticks page = true

/-- The byte that is to be cleared into the spare area at `j`. -/
def spareMask (w : Bytes) (oobLen j : ℕ) : UInt8 :=
  if j ∈ lay.positions.take oobLen then w (lay.positions.idxOf j) else 0xff

/-- What writing `w` to the spare area `old` is to leave, in a spare area of `area` bytes:
`mapping` is the logical spare area that is read afterwards, and `new` the physical one. -/
structure OobStored (area : ℕ) (w : Bytes) (oobLen : ℕ) (old new mapping : Bytes) : Prop where
  /-- The logical bytes of the buffer are cleared into the old ones. -/
  written : ∀ i < min lay.oobsize oobLen,
    mapping i = old (lay.positions.getD i 0) &&& w i
  /-- The other logical bytes are the old ones. -/
  kept : ∀ i < lay.oobsize, oobLen ≤ i → mapping i = old (lay.positions.getD i 0)
  /-- The other physical bytes are the old ones. -/
  untouched : ∀ j < area, j ∉ lay.positions.take (min lay.oobsize oobLen) → new j = old j

section Stored

variable {env lay page s}

/-- The arrays after the reading at the start of `spi_nand_write_page`. -/
theorem readPageLoops_oob (env : Env) (lay : RawOobLayout) (page : ℕ) (s : Spi) :
    (spiNandReadPageLoops env lay page s).2.chip = s.chip ∧
      (Unread env page s → (spiNandReadPageLoops env lay page s).2.cache.oob = s.cache.oob) ∧
      (¬ Unread env page s → (spiNandReadPageLoops env lay page s).2.cache.oob =
        (s.chip.pages page).oob) := by
  rw [spiNandReadPageLoops, Unread]
  split
  · next hit => exact ⟨rfl, fun _ => rfl, fun fresh => absurd (.inl hit) fresh⟩
  · next miss =>
    split
    · next fails => exact ⟨rfl, fun _ => rfl, fun fresh => absurd (.inr fails) fresh⟩
    · next passes =>
      refine ⟨rfl, fun unread => ?_, fun _ => rfl⟩
      exact absurd unread (not_or.mpr ⟨miss, passes⟩)

variable {dataOffset dataLen oobLen : ℕ} {dat w : Bytes} {s' s'' : Spi}

/-- The spare area that a write without failure leaves. -/
theorem writePageLoops_oob
    (write : spiNandWritePageLoops env lay page dataOffset dat dataLen w oobLen s =
      (.noError, s')) :
    (s'.chip.pages page).oob = fun j => (s.chip.pages page).oob j &&&
      lay.scatterLoop (spiNandReadPageLoops env lay page s).2.cache.oob w oobLen j := by
  rw [spiNandWritePageLoops] at write
  dsimp only at write
  rw [(readPageLoops_oob env lay page s).1, Chip.program] at write
  split at write
  · cases write
    dsimp only
    rw [if_pos rfl]
    rfl
  · cases write

/-- The logical spare area that a fresh read finds. -/
theorem readPageLoops_mapping (valid : lay.positions.length = lay.oobsize)
    (read : spiNandReadPageLoops env lay page (clearReadCacheData s') = (.noError, s'')) {i : ℕ}
    (hi : i < lay.oobsize) :
    s''.cache.oobMapping i = (s'.chip.pages page).oob (lay.positions.getD i 0) := by
  rw [spiNandReadPageLoops, if_neg (by simp [clearReadCacheData])] at read
  split at read
  · cases read
  · cases read
    rw [← valid] at hi
    exact (RawOobLayout.gatherLoop_apply ..).trans (if_pos hi)

end Stored

/-- The scattered byte is the byte that was there with the bits of the mask. -/
theorem scatterLoop_mask (nodup : lay.positions.Nodup) (oob w : Bytes) (oobLen j : ℕ) :
    lay.scatterLoop oob w oobLen j = oob j &&& spareMask lay w oobLen j := by
  rw [RawOobLayout.scatterLoop_apply nodup, spareMask]
  split
  · rfl
  · exact (byte_and_ones _).symm

/-- The bytes that a write is to leave are the old ones with the bits of the mask. -/
theorem oobStored_iff {area : ℕ} (valid : lay.Valid area) {w old new mapping : Bytes}
    {oobLen : ℕ} (read : ∀ i < lay.oobsize, mapping i = new (lay.positions.getD i 0)) :
    OobStored lay area w oobLen old new mapping ↔
      ∀ j < area, new j = old j &&& spareMask lay w oobLen j := by
  have firsts : lay.positions.take (min lay.oobsize oobLen) = lay.positions.take oobLen := by
    rw [Nat.min_comm, ← valid.length_positions, List.take_eq_take_min]
    simp
  have mask_pos : ∀ i < lay.oobsize, spareMask lay w oobLen (lay.positions.getD i 0) =
      if i < oobLen then w i else 0xff := by
    intro i hi
    have bound : i < lay.positions.length := by rw [valid.length_positions]; exact hi
    rw [spareMask, List.getD_eq_getElem _ _ bound, valid.nodup.idxOf_getElem]
    apply if_congr _ rfl rfl
    rw [List.mem_take_iff_getElem]
    constructor
    · rintro ⟨k, hk, same⟩
      have : k = i := valid.nodup.getElem_inj_iff.mp same
      omega
    · exact fun h => ⟨i, by omega, rfl⟩
  constructor
  · intro stored j inside
    by_cases member : j ∈ lay.positions
    · obtain ⟨i, bound, rfl⟩ := List.mem_iff_getElem.mp member
      have hi : i < lay.oobsize := valid.length_positions ▸ bound
      rw [← List.getD_eq_getElem _ 0 bound, mask_pos i hi, ← read i hi]
      split
      · next written => exact stored.written i (lt_min hi written)
      · next kept => rw [byte_and_ones, stored.kept i hi (not_lt.mp kept)]
    · have outside : j ∉ lay.positions.take oobLen := fun h => member (List.mem_of_mem_take h)
      rw [spareMask, if_neg outside, byte_and_ones]
      exact stored.untouched j inside (firsts ▸ outside)
  · intro all
    have logical : ∀ i < lay.oobsize,
        mapping i = old (lay.positions.getD i 0) &&& if i < oobLen then w i else 0xff := by
      intro i hi
      have bound : i < lay.positions.length := by rw [valid.length_positions]; exact hi
      have inside : lay.positions.getD i 0 < area := by
        rw [List.getD_eq_getElem _ _ bound]
        exact valid.lt_area (List.getElem_mem bound)
      rw [read i hi, all _ inside, mask_pos i hi]
    constructor
    · intro i hi
      obtain ⟨hi, written⟩ := lt_min_iff.mp hi
      rw [logical i hi, if_pos written]
    · intro i hi kept
      rw [logical i hi, if_neg (not_lt.mpr kept), byte_and_ones]
    · intro j inside outside
      rw [firsts] at outside
      rw [all j inside, spareMask, if_neg outside, byte_and_ones]

variable {env lay page s}

/-- What is written to the spare area is stored, and nothing else in it changes, if and only
if a page that is not read first leaves in memory every bit that is not to be cleared. -/
theorem writePage_oob_iff {area : ℕ} (valid : lay.Valid area) {dataOffset dataLen oobLen : ℕ}
    {dat w : Bytes} {s' s'' : Spi}
    (write : spiNandWritePageLoops env lay page dataOffset dat dataLen w oobLen s =
      (.noError, s'))
    (read : spiNandReadPageLoops env lay page (clearReadCacheData s') = (.noError, s'')) :
    OobStored lay area w oobLen (s.chip.pages page).oob (s'.chip.pages page).oob
        s''.cache.oobMapping ↔
      (Unread env page s → ∀ j < area,
        s.cache.oob j &&& ((s.chip.pages page).oob j &&& spareMask lay w oobLen j) =
          (s.chip.pages page).oob j &&& spareMask lay w oobLen j) := by
  have mapped := fun i hi => readPageLoops_mapping (i := i) valid.length_positions read hi
  rw [oobStored_iff lay valid mapped, writePageLoops_oob write]
  simp only [scatterLoop_mask lay valid.nodup]
  obtain ⟨-, unread, fresh⟩ := readPageLoops_oob env lay page s
  by_cases first : Unread env page s
  · rw [unread first, forall_prop_of_true first]
    apply forall₂_congr
    intro j _
    rw [← UInt8.and_assoc, UInt8.and_comm _ (s.cache.oob j), UInt8.and_assoc]
  · rw [fresh first]
    apply iff_of_true
    · intro j _
      exact byte_and_self_assoc ..
    · exact fun h => absurd h first

/-- Two entries, the second of which is used in part. -/
def twoEntries : RawOobLayout := ⟨3, [⟨4, 1⟩, ⟨8, 4⟩, ⟨0, 0⟩, ⟨16, 8⟩]⟩

theorem twoEntries_valid : twoEntries.Valid 64 where
  disjoint := by decide
  inside := by decide
  room := by decide

/-- The driver just loaded writes two spare bytes to an erased page. -/
theorem writePage_oob_two : ∃ s' s'',
    spiNandWritePageLoops faultless twoEntries 0 0 allOnes 0 (fun _ => 7) 2 blankSpi =
      (.noError, s') ∧
    spiNandReadPageLoops faultless twoEntries 0 (clearReadCacheData s') = (.noError, s'') ∧
    OobStored twoEntries 64 (fun _ => 7) 2 allOnes (s'.chip.pages 0).oob s''.cache.oobMapping := by
  have write : spiNandWritePageLoops faultless twoEntries 0 0 allOnes 0 (fun _ => 7) 2 blankSpi =
    (.noError, _) := rfl
  have exact := writePage_oob_iff twoEntries_valid write rfl
  have fresh : ¬ Unread faultless 0 blankSpi := by
    simp [Unread, faultless, blankSpi, Cache.initial]
  exact ⟨_, _, rfl, rfl, exact.mpr fun h => absurd h fresh⟩

/-- A page is marked, its block is erased, and the page is written: the mark is in memory
still, and is programmed again. -/
theorem writePage_oob_wrong : (RawOobLayout.ofLayout ooblayoutMxic).Valid 64 ∧ ∃ s s' s'',
    s = (spiNandEraseBlock faultless 0 (spiNandWritePageLoops faultless (.ofLayout ooblayoutMxic)
      0 0 allOnes 0 BadKind.raw.mark 8 blankSpi).2).2 ∧
    spiNandWritePageLoops faultless (.ofLayout ooblayoutMxic) 0 0 allOnes 0 allOnes 8 s =
      (.noError, s') ∧
    spiNandReadPageLoops faultless (.ofLayout ooblayoutMxic) 0 (clearReadCacheData s') =
      (.noError, s'') ∧
    ¬ OobStored (.ofLayout ooblayoutMxic) 64 allOnes 8 (s.chip.pages 0).oob
      (s'.chip.pages 0).oob s''.cache.oobMapping := by
  have valid : (RawOobLayout.ofLayout ooblayoutMxic).Valid 64 := by
    constructor <;> decide
  refine ⟨valid, _, _, _, rfl, rfl, rfl, fun stored => ?_⟩
  have zero := stored.written 0 (by decide)
  revert zero
  decide

end En7512.Nand
