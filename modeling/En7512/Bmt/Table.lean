/-
# The two tables of `bmt.c` and their images on flash

`bmt_struct` maps bad blocks to blocks of the replacement pool;
`init_bbt_struct` lists the blocks that were bad from the factory. Both are
kept in memory and written to page 0 of a pool block, with a signature, a
version, a count and a checksum in front of the entries.

Both decoders invert the image builders, for every table the driver can hold.
-/

import En7512.Nand.Chip
import Mathlib.Data.UInt

namespace En7512.Bmt

open En7512.Nand

/-- `MAX_BMT_SIZE`. -/
@[simp] def maxBmtSize : ℕ := 500

/-- `MAX_RAW_BAD_BLOCK_SIZE`. -/
@[simp] def maxRawBadBlockSize : ℕ := 1000

/-- `BMT_VERSION` and `BBT_VERSION`. -/
def tableVersion : UInt8 := 1

/-- What `init_bmt` fixes. It refuses a pool outside `0 .. MAX_BMT_SIZE`, and
block offsets are `int`s. -/
structure Geometry where
  /-- `total_block_count`. -/
  totalBlockCount : ℕ
  /-- `bmt_block_count`, the size of the replacement pool. -/
  bmtBlockCount : ℕ
  /-- `mtd_bmt->oobsize`, which the MTD core may change after the driver has set it. -/
  mtdOobsize : ℕ
  pool_pos : 0 < bmtBlockCount
  pool_lt : bmtBlockCount < maxBmtSize
  system_pos : bmtBlockCount < totalBlockCount
  offsets_fit : totalBlockCount * eraseSize ≤ 2 ^ 31

namespace Geometry

variable (g : Geometry)

/-- `system_block_count`. -/
def systemBlockCount : ℕ := g.totalBlockCount - g.bmtBlockCount

/-- The blocks of the replacement pool. -/
def InPool (block : ℕ) : Prop := g.systemBlockCount ≤ block ∧ block < g.totalBlockCount

instance (block : ℕ) : Decidable (g.InPool block) := inferInstanceAs (Decidable (_ ∧ _))

/-- The pool from its beginning. -/
def poolBlocks : List ℕ := List.range' g.systemBlockCount g.bmtBlockCount

theorem systemBlockCount_pos : 0 < g.systemBlockCount := Nat.sub_pos_of_lt g.system_pos

theorem system_add_pool : g.systemBlockCount + g.bmtBlockCount = g.totalBlockCount :=
  Nat.sub_add_cancel g.system_pos.le

theorem totalBlockCount_le : g.totalBlockCount ≤ 16384 := by
  have fit := g.offsets_fit
  simp only [eraseSize] at fit
  omega

@[simp] theorem mem_poolBlocks {block : ℕ} : block ∈ g.poolBlocks ↔ g.InPool block := by
  have split := g.system_add_pool
  simp only [poolBlocks, InPool, List.mem_range'_1]
  omega

theorem InPool.pos {g : Geometry} {block : ℕ} (h : g.InPool block) : block ≠ 0 := by
  have := g.systemBlockCount_pos
  have := h.1
  omega

end Geometry

/-! ## The tables in memory -/

/-- `bmt_entry`. -/
structure BmtEntry where
  /-- The bad block. -/
  badIndex : ℕ
  /-- The pool block that stands in for it. -/
  mappedIndex : ℕ
  deriving DecidableEq, Repr

/-- `bmt_struct`. -/
structure BmtStruct where
  table : ℕ → BmtEntry
  version : UInt8
  /-- `mapped_count`, a `u8`. -/
  mappedCount : ℕ
  badCount : UInt8

/-- `init_bbt_struct`. -/
structure InitBbtStruct where
  badblockTable : ℕ → ℕ
  version : UInt8
  /-- `badblock_count`, a `u8`. -/
  badblockCount : ℕ

namespace BmtStruct

variable (bmt : BmtStruct)

/-- The entries below `mapped_count`. -/
def live : List BmtEntry := (List.range bmt.mappedCount).map bmt.table

/-- `is_block_mapped`; the callers use only whether the result is negative. -/
def isBlockMapped (index : ℕ) : Bool := bmt.live.any fun e => e.mappedIndex = index

/-- `is_badblock_raw`: no entry has the block as its bad block. -/
def isBadblockRaw (index : ℕ) : Bool := !bmt.live.any fun e => e.badIndex = index

/-- The entry a look-up of the bad block ends at. -/
def lookup (index : ℕ) : Option BmtEntry := bmt.live.find? fun e => e.badIndex = index

theorem mem_live {e : BmtEntry} : e ∈ bmt.live ↔ ∃ i < bmt.mappedCount, bmt.table i = e := by
  simp [live]

theorem live_eq_iff (bmt' : BmtStruct) : bmt.live = bmt'.live ↔
    bmt.mappedCount = bmt'.mappedCount ∧ ∀ i < bmt.mappedCount, bmt.table i = bmt'.table i := by
  constructor
  · intro h
    have count : bmt.mappedCount = bmt'.mappedCount := by
      simpa [live] using congrArg List.length h
    refine ⟨count, fun i hi => ?_⟩
    have entries : (List.range bmt.mappedCount).map bmt.table =
        (List.range bmt.mappedCount).map bmt'.table := by
      rw [live, live, ← count] at h
      exact h
    exact List.map_inj_left.mp entries i (List.mem_range.mpr hi)
  · rintro ⟨count, entries⟩
    rw [live, live, ← count]
    exact List.map_congr_left fun i hi => entries i (List.mem_range.mp hi)

theorem nodup_mapped_iff : (bmt.live.map (·.mappedIndex)).Nodup ↔
    ∀ i < bmt.mappedCount, ∀ j < bmt.mappedCount,
      (bmt.table i).mappedIndex = (bmt.table j).mappedIndex → i = j := by
  rw [live, List.map_map, List.nodup_map_iff_inj_on List.nodup_range]
  simp only [List.mem_range, Function.comp_apply]

@[simp] theorem isBlockMapped_iff {index : ℕ} :
    bmt.isBlockMapped index = true ↔ ∃ e ∈ bmt.live, e.mappedIndex = index := by
  simp [isBlockMapped]

@[simp] theorem isBadblockRaw_iff {index : ℕ} :
    bmt.isBadblockRaw index = true ↔ ∀ e ∈ bmt.live, e.badIndex ≠ index := by
  simp [isBadblockRaw]

theorem lookup_some {index : ℕ} {e : BmtEntry} (h : bmt.lookup index = some e) :
    e ∈ bmt.live ∧ e.badIndex = index := by
  refine ⟨List.mem_of_find?_eq_some h, ?_⟩
  simpa using List.find?_some h

theorem lookup_eq_none {index : ℕ} :
    bmt.lookup index = none ↔ ∀ e ∈ bmt.live, e.badIndex ≠ index := by
  simp [lookup]

end BmtStruct

/-- `get_mapping_block_index_by_bmt`. -/
def getMappingBlockIndexByBmt (g : Geometry) (bmt : BmtStruct) (index : ℕ) : ℕ :=
  if g.systemBlockCount ≤ index then index
  else match bmt.lookup index with
    | some e => e.mappedIndex
    | none => index

/-! ## The image of the BMT -/

/-- Offset of the table behind `phys_bmt_header`. -/
@[simp] def bmtTableOffset : ℕ := 20

/-- `sizeof(phys_bmt_struct)`. -/
@[simp] def physBmtSize : ℕ := 2020

/-- Entry `i` of the table in an image. -/
def physEntry (dat : Bytes) (i : ℕ) : BmtEntry :=
  ⟨u16At dat (bmtTableOffset + 4 * i), u16At dat (bmtTableOffset + 4 * i + 2)⟩

/-- `header.mapped_count` of an image. -/
def physMappedCount (dat : Bytes) : ℕ := (dat 5).toNat

/-- `match_bmt_signature`: the page begins with `BMT`. -/
def matchBmtSignature (dat : Bytes) : Prop := dat 0 = 0x42 ∧ dat 1 = 0x4d ∧ dat 2 = 0x54

instance (dat : Bytes) : Decidable (matchBmtSignature dat) := inferInstanceAs (Decidable (_ ∧ _))

/-- `cal_bmt_checksum` over the version, the count and the first entries. -/
def calBmtChecksum (g : Geometry) (dat : Bytes) : UInt8 :=
  dat 3 + dat 5 +
    ((List.range (4 * g.bmtBlockCount)).map fun i => dat (bmtTableOffset + i)).sum

/-- `valid_bmt_data`. -/
def validBmtData (g : Geometry) (dat : Bytes) : Prop :=
  dat 6 = calBmtChecksum g dat ∧
    ∀ i < physMappedCount dat, (physEntry dat i).badIndex < g.totalBlockCount ∧
      (physEntry dat i).mappedIndex < g.totalBlockCount ∧
      g.systemBlockCount ≤ (physEntry dat i).mappedIndex

instance (g : Geometry) (dat : Bytes) : Decidable (validBmtData g dat) :=
  inferInstanceAs (Decidable (_ ∧ _))

/-- The test `load_bmt_data` makes on a page. -/
def IsBmtImage (g : Geometry) (dat : Bytes) : Prop :=
  matchBmtSignature dat ∧ validBmtData g dat

instance (g : Geometry) (dat : Bytes) : Decidable (IsBmtImage g dat) :=
  inferInstanceAs (Decidable (_ ∧ _))

/-- What `load_bmt_data` copies from a valid image into the table. -/
def BmtStruct.load (bmt : BmtStruct) (dat : Bytes) : BmtStruct where
  table := fun i => if i < physMappedCount dat then physEntry dat i else bmt.table i
  version := dat 3
  mappedCount := physMappedCount dat
  badCount := bmt.badCount

/-- Byte `k` of an array of `u16`s. -/
def u16Byte (v : ℕ → ℕ) (k : ℕ) : UInt8 :=
  if k % 2 = 0 then UInt8.ofNat (v (k / 2) / 256) else UInt8.ofNat (v (k / 2))

/-- The `u16`s of the table: bad block and mapped block of each entry in turn. -/
def BmtStruct.word (bmt : BmtStruct) (k : ℕ) : ℕ :=
  if k % 2 = 0 then (bmt.table (k / 2)).badIndex else (bmt.table (k / 2)).mappedIndex

/-- `phys_bmt_header` before the checksum is filled in. -/
def physBmtHeader (bmt : BmtStruct) : Bytes
  | 0 => 0x42
  | 1 => 0x4d
  | 2 => 0x54
  | 3 => tableVersion
  | 5 => UInt8.ofNat bmt.mappedCount
  | _ => 0xff

/-- `phys_bmt` before the checksum is filled in. -/
def physBmt (g : Geometry) (bmt : BmtStruct) : Bytes := fun i =>
  if i < bmtTableOffset then physBmtHeader bmt i
  else if i < bmtTableOffset + 4 * g.bmtBlockCount then u16Byte bmt.word (i - bmtTableOffset)
  else 0xff

/-- `fill_nand_bmt_buffer`. -/
def fillNandBmtBuffer (g : Geometry) (bmt : BmtStruct) (dat : Bytes) : Bytes :=
  let phys := physBmt g bmt
  overlay dat 0 (fun i => if i = 6 then calBmtChecksum g phys else phys i) physBmtSize

section BmtImage

variable (g : Geometry) (bmt : BmtStruct) (dat : Bytes)

theorem fillNandBmtBuffer_of_lt {i : ℕ} (hi : i < 2020) :
    fillNandBmtBuffer g bmt dat i =
      if i = 6 then calBmtChecksum g (physBmt g bmt) else physBmt g bmt i := by
  simp only [fillNandBmtBuffer]
  rw [overlay_of_mem ⟨Nat.zero_le i, by simpa using hi⟩, Nat.sub_zero]

/-- The checksum looks at the version, the count and the table only. -/
theorem calBmtChecksum_congr {dat dat' : Bytes} (version : dat 3 = dat' 3)
    (count : dat 5 = dat' 5)
    (table : ∀ i < 4 * g.bmtBlockCount, dat (bmtTableOffset + i) = dat' (bmtTableOffset + i)) :
    calBmtChecksum g dat = calBmtChecksum g dat' := by
  simp only [calBmtChecksum, version, count]
  congr 2
  refine List.map_congr_left fun i hi => ?_
  exact table i (List.mem_range.mp hi)

theorem calBmtChecksum_fill :
    calBmtChecksum g (fillNandBmtBuffer g bmt dat) = calBmtChecksum g (physBmt g bmt) := by
  have small := g.pool_lt
  simp only [maxBmtSize] at small
  refine calBmtChecksum_congr g ?_ ?_ fun i hi => ?_
  · simp [fillNandBmtBuffer_of_lt]
  · simp [fillNandBmtBuffer_of_lt]
  · rw [fillNandBmtBuffer_of_lt _ _ _ (by simp; omega), if_neg (by simp; omega)]

theorem physMappedCount_fill (small : bmt.mappedCount < 256) :
    physMappedCount (fillNandBmtBuffer g bmt dat) = bmt.mappedCount := by
  simp [physMappedCount, fillNandBmtBuffer_of_lt, physBmt, physBmtHeader, Nat.mod_eq_of_lt small]

theorem matchBmtSignature_fill : matchBmtSignature (fillNandBmtBuffer g bmt dat) := by
  simp [matchBmtSignature, fillNandBmtBuffer_of_lt, physBmt, physBmtHeader]

/-- Reading back one `u16` of an array. -/
theorem u16At_u16Byte {v : ℕ → ℕ} {d : Bytes} {base k : ℕ}
    (high : d (base + 2 * k) = u16Byte v (2 * k))
    (low : d (base + 2 * k + 1) = u16Byte v (2 * k + 1)) (small : v k < 65536) :
    u16At d (base + 2 * k) = v k := by
  have half : (2 * k + 1) / 2 = k := by omega
  simp only [u16At, high, low, u16Byte, half]
  simp
  omega

theorem u16At_fill {k : ℕ} (hk : k < 2 * g.bmtBlockCount) (small : bmt.word k < 65536) :
    u16At (fillNandBmtBuffer g bmt dat) (bmtTableOffset + 2 * k) = bmt.word k := by
  have pool := g.pool_lt
  simp only [maxBmtSize] at pool
  have byte : ∀ j < 4 * g.bmtBlockCount,
      fillNandBmtBuffer g bmt dat (bmtTableOffset + j) = u16Byte bmt.word j := by
    intro j hj
    rw [fillNandBmtBuffer_of_lt _ _ _ (by simp; omega), if_neg (by simp; omega), physBmt,
      if_neg (by omega), if_pos (by omega), Nat.add_sub_cancel_left]
  exact u16At_u16Byte (byte (2 * k) (by omega)) (byte (2 * k + 1) (by omega)) small

/-- An entry of the image is the entry of the table. -/
theorem physEntry_fill {i : ℕ} (hi : i < g.bmtBlockCount)
    (bad : (bmt.table i).badIndex < 65536) (mapped : (bmt.table i).mappedIndex < 65536) :
    physEntry (fillNandBmtBuffer g bmt dat) i = bmt.table i := by
  have first : bmt.word (2 * i) = (bmt.table i).badIndex := by simp [BmtStruct.word]
  have second : bmt.word (2 * i + 1) = (bmt.table i).mappedIndex := by
    have half : (2 * i + 1) / 2 = i := by omega
    simp [BmtStruct.word, half]
  have readFirst := u16At_fill g bmt dat (k := 2 * i) (by omega) (by rw [first]; exact bad)
  have readSecond := u16At_fill g bmt dat (k := 2 * i + 1) (by omega) (by rw [second]; exact mapped)
  rw [first, show bmtTableOffset + 2 * (2 * i) = bmtTableOffset + 4 * i by ring] at readFirst
  rw [second, show bmtTableOffset + 2 * (2 * i + 1) = bmtTableOffset + 4 * i + 2 by ring]
    at readSecond
  simp only [physEntry, readFirst, readSecond]

end BmtImage

/-- What a table needs so that its image can be read back: the count is in
range, and the live entries name blocks of the chip and of the pool. -/
structure BmtStruct.Sound (g : Geometry) (bmt : BmtStruct) : Prop where
  count_le : bmt.mappedCount ≤ g.bmtBlockCount
  count_lt : bmt.mappedCount < 256
  bad_lt : ∀ e ∈ bmt.live, e.badIndex < g.totalBlockCount
  mapped_mem : ∀ e ∈ bmt.live, g.InPool e.mappedIndex

section BmtImage

variable {g : Geometry} {bmt : BmtStruct} (sound : bmt.Sound g) (dat : Bytes)

include sound

theorem physEntry_fill_of_live {i : ℕ} (hi : i < bmt.mappedCount) :
    physEntry (fillNandBmtBuffer g bmt dat) i = bmt.table i := by
  have total := g.totalBlockCount_le
  have mem : bmt.table i ∈ bmt.live := bmt.mem_live.mpr ⟨i, hi, rfl⟩
  have bad := sound.bad_lt _ mem
  have mapped := (sound.mapped_mem _ mem).2
  exact physEntry_fill g bmt dat (lt_of_lt_of_le hi sound.count_le) (by omega) (by omega)

/-- The image of a table passes the tests of `load_bmt_data`. -/
theorem isBmtImage_fill : IsBmtImage g (fillNandBmtBuffer g bmt dat) := by
  refine ⟨matchBmtSignature_fill g bmt dat, ?_, fun i hi => ?_⟩
  · rw [calBmtChecksum_fill]
    simp [fillNandBmtBuffer_of_lt]
  · rw [physMappedCount_fill g bmt dat sound.count_lt] at hi
    rw [physEntry_fill_of_live sound dat hi]
    have mem : bmt.table i ∈ bmt.live := bmt.mem_live.mpr ⟨i, hi, rfl⟩
    exact ⟨sound.bad_lt _ mem, (sound.mapped_mem _ mem).2, (sound.mapped_mem _ mem).1⟩

/-- Loading the image of a table gives back its count and its live entries. -/
theorem live_load_fill (old : BmtStruct) :
    (old.load (fillNandBmtBuffer g bmt dat)).live = bmt.live := by
  simp only [BmtStruct.live, BmtStruct.load, physMappedCount_fill g bmt dat sound.count_lt]
  refine List.map_congr_left fun i hi => ?_
  have hi := List.mem_range.mp hi
  rw [if_pos hi, physEntry_fill_of_live sound dat hi]

end BmtImage

/-! ## The image of the bad-block table -/

/-- Offset of the table behind `init_table_header`. -/
@[simp] def bbtTableOffset : ℕ := 12

/-- `sizeof(init_table_struct)`. -/
@[simp] def initTableSize : ℕ := 2012

/-- The `u32` at offset `i`. -/
def u32At (b : Bytes) (i : ℕ) : ℕ := u16At b i * 65536 + u16At b (i + 2)

/-- Entry `i` of the table in an image. -/
def physBadblock (dat : Bytes) (i : ℕ) : ℕ := u16At dat (bbtTableOffset + 2 * i)

/-- `header.badblock_count` of an image. -/
def physBadblockCount (dat : Bytes) : ℕ := (dat 9).toNat

/-- `match_bbt_signature`: the page begins with `RAWB`. -/
def matchBbtSignature (dat : Bytes) : Prop :=
  dat 0 = 0x52 ∧ dat 1 = 0x41 ∧ dat 2 = 0x57 ∧ dat 3 = 0x42

instance (dat : Bytes) : Decidable (matchBbtSignature dat) := inferInstanceAs (Decidable (_ ∧ _))

/-- `cal_bbt_checksum`, a `u16` sum over the version, the count and the table. -/
def calBbtChecksum (dat : Bytes) : ℕ :=
  ((dat 8).toNat + (dat 9).toNat +
    ((List.range (2 * maxRawBadBlockSize)).map fun i =>
      (dat (bbtTableOffset + i)).toNat).sum) % 65536

/-- `valid_bbt_data`. -/
def validBbtData (g : Geometry) (dat : Bytes) : Prop :=
  u32At dat 4 = calBbtChecksum dat ∧
    ∀ i < physBadblockCount dat, physBadblock dat i < g.systemBlockCount

instance (g : Geometry) (dat : Bytes) : Decidable (validBbtData g dat) :=
  inferInstanceAs (Decidable (_ ∧ _))

/-- The test `load_bbt_data` makes on a page. -/
def IsBbtImage (g : Geometry) (dat : Bytes) : Prop :=
  matchBbtSignature dat ∧ validBbtData g dat

instance (g : Geometry) (dat : Bytes) : Decidable (IsBbtImage g dat) :=
  inferInstanceAs (Decidable (_ ∧ _))

/-- The listed blocks. -/
def InitBbtStruct.bad (bbt : InitBbtStruct) : List ℕ :=
  (List.range bbt.badblockCount).map bbt.badblockTable

/-- What `load_bbt_data` copies from a valid image into the table. -/
def InitBbtStruct.load (bbt : InitBbtStruct) (dat : Bytes) : InitBbtStruct where
  badblockTable := fun i =>
    if i < physBadblockCount dat then physBadblock dat i else bbt.badblockTable i
  version := dat 8
  badblockCount := physBadblockCount dat

/-- `init_table_header` before the checksum is filled in. -/
def initTableHeader (bbt : InitBbtStruct) : Bytes
  | 0 => 0x52
  | 1 => 0x41
  | 2 => 0x57
  | 3 => 0x42
  | 8 => tableVersion
  | 9 => UInt8.ofNat bbt.badblockCount
  | _ => 0xff

/-- `init_table` before the checksum is filled in. -/
def physBbt (bbt : InitBbtStruct) : Bytes := fun i =>
  if i < bbtTableOffset then initTableHeader bbt i
  else if i < initTableSize then u16Byte bbt.badblockTable (i - bbtTableOffset)
  else 0xff

/-- `fill_nand_bbt_buffer`. The checksum is a `u16` stored in a `u32`. -/
def fillNandBbtBuffer (bbt : InitBbtStruct) (dat : Bytes) : Bytes :=
  let phys := physBbt bbt
  overlay dat 0 (putU16 (putU16 phys 4 0) 6 (calBbtChecksum phys)) initTableSize

/-- What a list of bad blocks needs so that its image can be read back. -/
structure InitBbtStruct.Sound (g : Geometry) (bbt : InitBbtStruct) : Prop where
  count_lt : bbt.badblockCount < 256
  bad_lt : ∀ b ∈ bbt.bad, b < g.systemBlockCount

section BbtImage

variable (bbt : InitBbtStruct) (dat : Bytes)

theorem fillNandBbtBuffer_of_lt {i : ℕ} (hi : i < 2012)
    (outside : i < 4 ∨ 8 ≤ i) : fillNandBbtBuffer bbt dat i = physBbt bbt i := by
  simp only [fillNandBbtBuffer]
  rw [overlay_of_mem ⟨Nat.zero_le i, by simpa using hi⟩, Nat.sub_zero,
    putU16_of_ne (by omega) (by omega), putU16_of_ne (by omega) (by omega)]

theorem calBbtChecksum_fill :
    calBbtChecksum (fillNandBbtBuffer bbt dat) = calBbtChecksum (physBbt bbt) := by
  have table : ((List.range (2 * maxRawBadBlockSize)).map fun i =>
      (fillNandBbtBuffer bbt dat (bbtTableOffset + i)).toNat) =
      (List.range (2 * maxRawBadBlockSize)).map fun i =>
        (physBbt bbt (bbtTableOffset + i)).toNat := by
    refine List.map_congr_left fun i hi => ?_
    have hi := List.mem_range.mp hi
    simp only [maxRawBadBlockSize] at hi
    rw [fillNandBbtBuffer_of_lt bbt dat (by simp; omega) (by simp; omega)]
  rw [calBbtChecksum, table, calBbtChecksum,
    fillNandBbtBuffer_of_lt bbt dat (i := 8) (by norm_num) (by norm_num),
    fillNandBbtBuffer_of_lt bbt dat (i := 9) (by norm_num) (by norm_num)]

theorem matchBbtSignature_fill : matchBbtSignature (fillNandBbtBuffer bbt dat) := by
  simp [matchBbtSignature, fillNandBbtBuffer_of_lt, physBbt, initTableHeader]

theorem physBadblockCount_fill (small : bbt.badblockCount < 256) :
    physBadblockCount (fillNandBbtBuffer bbt dat) = bbt.badblockCount := by
  simp [physBadblockCount, fillNandBbtBuffer_of_lt, physBbt, initTableHeader,
    Nat.mod_eq_of_lt small]

theorem checksum_fill :
    u32At (fillNandBbtBuffer bbt dat) 4 = calBbtChecksum (physBbt bbt) := by
  have small : calBbtChecksum (physBbt bbt) < 65536 := Nat.mod_lt _ (by norm_num)
  have inside : ∀ i < initTableSize, fillNandBbtBuffer bbt dat i =
      putU16 (putU16 (physBbt bbt) 4 0) 6 (calBbtChecksum (physBbt bbt)) i := fun i hi => by
    simp only [fillNandBbtBuffer]
    rw [overlay_of_mem (by omega), Nat.sub_zero]
  have high : u16At (fillNandBbtBuffer bbt dat) 4 = 0 := by
    rw [u16At, inside _ (by simp), inside _ (by simp)]
    simp [putU16]
  have low : u16At (fillNandBbtBuffer bbt dat) 6 = calBbtChecksum (physBbt bbt) := by
    rw [u16At_congr (inside _ (by simp)) (inside _ (by simp)), u16At_putU16 _ _ small]
  simp only [u32At, high, low]
  simp

theorem physBadblock_fill {i : ℕ} (hi : i < maxRawBadBlockSize)
    (small : bbt.badblockTable i < 65536) :
    physBadblock (fillNandBbtBuffer bbt dat) i = bbt.badblockTable i := by
  simp only [maxRawBadBlockSize] at hi
  have byte : ∀ j < 2000, fillNandBbtBuffer bbt dat (bbtTableOffset + j) =
      u16Byte bbt.badblockTable j := by
    intro j hj
    rw [fillNandBbtBuffer_of_lt bbt dat (by simp; omega) (by simp; omega), physBbt,
      if_neg (by omega), if_pos (by simp; omega), Nat.add_sub_cancel_left]
  exact u16At_u16Byte (byte (2 * i) (by omega)) (byte (2 * i + 1) (by omega)) small

variable {bbt} {g : Geometry}

include g in
theorem physBadblock_fill_of_lt (sound : bbt.Sound g) {i : ℕ} (hi : i < bbt.badblockCount) :
    physBadblock (fillNandBbtBuffer bbt dat) i = bbt.badblockTable i := by
  have total := g.totalBlockCount_le
  have split := g.system_add_pool
  have count := sound.count_lt
  have listed := sound.bad_lt (bbt.badblockTable i) (by
    simp only [InitBbtStruct.bad, List.mem_map, List.mem_range]
    exact ⟨i, hi, rfl⟩)
  exact physBadblock_fill bbt dat (by simp; omega) (by omega)

/-- The image of a list passes the tests of `load_bbt_data`. -/
theorem isBbtImage_fill (sound : bbt.Sound g) : IsBbtImage g (fillNandBbtBuffer bbt dat) := by
  refine ⟨matchBbtSignature_fill bbt dat, ?_, fun i hi => ?_⟩
  · rw [checksum_fill, calBbtChecksum_fill]
  · rw [physBadblockCount_fill bbt dat sound.count_lt] at hi
    rw [physBadblock_fill_of_lt dat sound hi]
    refine sound.bad_lt _ ?_
    simp only [InitBbtStruct.bad, List.mem_map, List.mem_range]
    exact ⟨i, hi, rfl⟩

/-- Loading the image of a list gives back the list. -/
theorem bad_load_fill (sound : bbt.Sound g) (old : InitBbtStruct) :
    (old.load (fillNandBbtBuffer bbt dat)).bad = bbt.bad := by
  simp only [InitBbtStruct.bad, InitBbtStruct.load,
    physBadblockCount_fill bbt dat sound.count_lt]
  refine List.map_congr_left fun i hi => ?_
  have hi := List.mem_range.mp hi
  rw [if_pos hi, physBadblock_fill_of_lt dat sound hi]

end BbtImage

/-- No page is an image of both tables. -/
theorem not_isBmtImage_of_isBbtImage {g : Geometry} {dat : Bytes} (h : IsBbtImage g dat) :
    ¬ IsBmtImage g dat := fun h' => by
  have first := h.1.1
  rw [h'.1.1] at first
  exact absurd first (by decide)

end En7512.Bmt
