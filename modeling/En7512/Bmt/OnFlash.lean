/-
# What the bad-block layer finds on the flash

The layer looks at page 0 of a block only: at its two bad marks, at the table
image in its data and at the index in its spare area. The definitions here say
what it finds there, as statements about the pages.
-/

import En7512.Bmt.Driver
import En7512.Nand.Device

namespace En7512.Bmt

open En7512.Nand

variable (g : Geometry) (L : OobLayout) (pages : ℕ → Page)

/-- The first page of a block. -/
def firstPage (block : ℕ) : Page := pages (pageAddr block)

/-- The block carries one of the two marks. -/
def BlockBad (block : ℕ) : Prop :=
  (firstPage pages block).Marked L .raw ∨ (firstPage pages block).Marked L .generateLater

/-- `load_bmt_data` would stop at the block. -/
def HoldsBmt (block : ℕ) : Prop :=
  ¬ BlockBad L pages block ∧ IsBmtImage g (firstPage pages block).data

/-- `load_bbt_data` would stop at the block. -/
def HoldsBbt (block : ℕ) : Prop :=
  ¬ BlockBad L pages block ∧ IsBbtImage g (firstPage pages block).data

/-- The index in the spare area of a page. -/
def pageIndex (p : Page) : ℕ := (p.oob (L.pos 2)).toNat * 256 + (p.oob (L.pos 3)).toNat

/-- The block says which system block it stands in for, and `reconstruct_bmt`
believes it. -/
def PointsBack (block : ℕ) : Prop :=
  ¬ BlockBad L pages block ∧ pageIndex L (firstPage pages block) < g.systemBlockCount

instance (block : ℕ) : Decidable (BlockBad L pages block) := inferInstanceAs (Decidable (_ ∨ _))

instance (block : ℕ) : Decidable (HoldsBmt g L pages block) :=
  inferInstanceAs (Decidable (_ ∧ _))

instance (block : ℕ) : Decidable (HoldsBbt g L pages block) :=
  inferInstanceAs (Decidable (_ ∧ _))

instance (block : ℕ) : Decidable (PointsBack g L pages block) :=
  inferInstanceAs (Decidable (_ ∧ _))

/-- The entries of an image that count. -/
def imageLive (dat : Bytes) : List BmtEntry :=
  (List.range (physMappedCount dat)).map (physEntry dat)

/-- The blocks of an image that count. -/
def imageBad (dat : Bytes) : List ℕ :=
  (List.range (physBadblockCount dat)).map (physBadblock dat)

/-! ## Addresses -/

theorem blockOffset_div_page (block : ℕ) : blockOffset block / pageSize = pageAddr block := by
  simp only [blockOffset, pageAddr, eraseSize, pageSize, pagePerBlock]
  omega

theorem blockOffset_div_erase (block : ℕ) : blockOffset block / eraseSize = block := by
  simp only [blockOffset, eraseSize]
  omega

theorem pageAddr_div (block : ℕ) {page : ℕ} (h : page < pagePerBlock) :
    (pageAddr block + page) / pagePerBlock = block := by
  simp only [pageAddr, pagePerBlock] at h ⊢
  omega

theorem pageAddr_inj {b b' : ℕ} : pageAddr b = pageAddr b' ↔ b = b' := by
  simp only [pageAddr, pagePerBlock]
  omega

@[simp] theorem pageAddr_div_self (block : ℕ) : pageAddr block / pagePerBlock = block := by
  simp only [pageAddr, pagePerBlock]
  omega

/-- Offsets below 2 ^ 31 are not folded. -/
theorem foldReserved_of_lt {offset : ℕ} (h : offset < 2 ^ 31) : foldReserved offset = offset :=
  if_neg (by omega)

theorem foldReserved_block {g : Geometry} {block : ℕ} (h : block < g.totalBlockCount) :
    foldReserved (blockOffset block) = blockOffset block := by
  have fit := g.offsets_fit
  simp only [eraseSize] at fit
  refine foldReserved_of_lt ?_
  simp only [blockOffset, eraseSize]
  omega

/-! ## What matters of a page -/

variable {g L pages}

theorem IsBmtImage.congr {dat dat' : Bytes} (same : ∀ i < pageSize, dat i = dat' i) :
    IsBmtImage g dat ↔ IsBmtImage g dat' := by
  have pool := g.pool_lt
  simp only [maxBmtSize] at pool
  simp only [pageSize] at same
  have entry : ∀ i < physMappedCount dat, physEntry dat i = physEntry dat' i := fun i hi => by
    have small : physMappedCount dat < 256 := (dat 5).toNat_lt
    simp only [physEntry, bmtTableOffset]
    rw [u16At_congr (same _ (by omega)) (same _ (by omega)),
      u16At_congr (same _ (by omega)) (same _ (by omega))]
  have count : physMappedCount dat = physMappedCount dat' := by
    simp only [physMappedCount, same 5 (by norm_num)]
  have checksum : calBmtChecksum g dat = calBmtChecksum g dat' :=
    calBmtChecksum_congr g (same _ (by norm_num)) (same _ (by norm_num))
      fun i hi => same _ (by simp only [bmtTableOffset]; omega)
  simp only [IsBmtImage, matchBmtSignature, validBmtData, checksum, ← count,
    same 0 (by norm_num), same 1 (by norm_num), same 2 (by norm_num), same 6 (by norm_num)]
  constructor
  · rintro ⟨signature, sum, valid⟩
    exact ⟨signature, sum, fun i hi => entry i hi ▸ valid i hi⟩
  · rintro ⟨signature, sum, valid⟩
    exact ⟨signature, sum, fun i hi => (entry i hi).symm ▸ valid i hi⟩

theorem IsBbtImage.congr {dat dat' : Bytes} (same : ∀ i < pageSize, dat i = dat' i) :
    IsBbtImage g dat ↔ IsBbtImage g dat' := by
  simp only [pageSize] at same
  have entry : ∀ i < physBadblockCount dat, physBadblock dat i = physBadblock dat' i :=
    fun i hi => by
      have small : physBadblockCount dat < 256 := (dat 9).toNat_lt
      simp only [physBadblock, bbtTableOffset]
      rw [u16At_congr (same _ (by omega)) (same _ (by omega))]
  have count : physBadblockCount dat = physBadblockCount dat' := by
    simp only [physBadblockCount, same 9 (by norm_num)]
  have table : ((List.range (2 * maxRawBadBlockSize)).map fun i =>
      (dat (bbtTableOffset + i)).toNat) =
      (List.range (2 * maxRawBadBlockSize)).map fun i => (dat' (bbtTableOffset + i)).toNat := by
    refine List.map_congr_left fun i hi => ?_
    have hi := List.mem_range.mp hi
    simp only [maxRawBadBlockSize] at hi
    rw [same _ (by simp only [bbtTableOffset]; omega)]
  have checksum : calBbtChecksum dat = calBbtChecksum dat' := by
    rw [calBbtChecksum, table, calBbtChecksum, same 8 (by norm_num), same 9 (by norm_num)]
  have stored : u32At dat 4 = u32At dat' 4 := by
    simp only [u32At, u16At, same 4 (by norm_num), same 5 (by norm_num), same 6 (by norm_num),
      same 7 (by norm_num)]
  simp only [IsBbtImage, matchBbtSignature, validBbtData, checksum, stored, ← count,
    same 0 (by norm_num), same 1 (by norm_num), same 2 (by norm_num), same 3 (by norm_num)]
  constructor
  · rintro ⟨signature, sum, valid⟩
    exact ⟨signature, sum, fun i hi => entry i hi ▸ valid i hi⟩
  · rintro ⟨signature, sum, valid⟩
    exact ⟨signature, sum, fun i hi => (entry i hi).symm ▸ valid i hi⟩

theorem BmtStruct.load_congr (bmt : BmtStruct) {dat dat' : Bytes}
    (same : ∀ i < pageSize, dat i = dat' i) : bmt.load dat = bmt.load dat' := by
  simp only [pageSize] at same
  have count : physMappedCount dat = physMappedCount dat' := by
    simp only [physMappedCount, same 5 (by norm_num)]
  have small : physMappedCount dat < 256 := (dat 5).toNat_lt
  have table : (fun i => if i < physMappedCount dat then physEntry dat i else bmt.table i) =
      fun i => if i < physMappedCount dat' then physEntry dat' i else bmt.table i := by
    funext i
    rw [← count]
    split
    · simp only [physEntry, bmtTableOffset]
      rw [u16At_congr (same _ (by omega)) (same _ (by omega)),
        u16At_congr (same _ (by omega)) (same _ (by omega))]
    · rfl
  rw [BmtStruct.load, table, count, same 3 (by norm_num)]
  rfl

theorem InitBbtStruct.load_congr (bbt : InitBbtStruct) {dat dat' : Bytes}
    (same : ∀ i < pageSize, dat i = dat' i) : bbt.load dat = bbt.load dat' := by
  simp only [pageSize] at same
  have count : physBadblockCount dat = physBadblockCount dat' := by
    simp only [physBadblockCount, same 9 (by norm_num)]
  have small : physBadblockCount dat < 256 := (dat 9).toNat_lt
  have table : (fun i => if i < physBadblockCount dat then physBadblock dat i
      else bbt.badblockTable i) =
      fun i => if i < physBadblockCount dat' then physBadblock dat' i else bbt.badblockTable i := by
    funext i
    rw [← count]
    split
    · simp only [physBadblock, bbtTableOffset]
      rw [u16At_congr (same _ (by omega)) (same _ (by omega))]
    · rfl
  rw [InitBbtStruct.load, table, count, same 8 (by norm_num)]
  rfl

@[simp] theorem live_load (bmt : BmtStruct) (dat : Bytes) :
    (bmt.load dat).live = imageLive dat := by
  refine List.map_congr_left fun i hi => ?_
  exact if_pos (List.mem_range.mp hi)

@[simp] theorem bad_load (bbt : InitBbtStruct) (dat : Bytes) :
    (bbt.load dat).bad = imageBad dat := by
  refine List.map_congr_left fun i hi => ?_
  exact if_pos (List.mem_range.mp hi)

theorem overlay_page_of_lt (dst src : Bytes) {i : ℕ} (hi : i < pageSize) :
    overlay dst 0 src pageSize i = src i :=
  overlay_of_mem ⟨Nat.zero_le i, by simpa using hi⟩

/-- The index read from a logical spare area. -/
theorem getBadIndexFromOob_of_shows {p : Page} {mapping before : Bytes}
    (shows : p.Shows L mapping) :
    getBadIndexFromOob (overlay before 0 mapping oobBufferSize) = pageIndex L p := by
  have room := L.room
  have copied : ∀ i < 4, overlay before 0 mapping oobBufferSize i = p.oob (L.pos i) :=
    fun i hi => by
      rw [overlay_of_mem ⟨Nat.zero_le i, by simp only [oobBufferSize]; omega⟩, Nat.sub_zero]
      exact shows i (by omega)
  simp only [getBadIndexFromOob, u16At, pageIndex, copied 2 (by norm_num),
    copied (2 + 1) (by norm_num)]

end En7512.Bmt
