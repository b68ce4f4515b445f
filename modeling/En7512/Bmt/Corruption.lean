/-
# The table images, and damage to them

An image of one of the two tables is accepted and read back. One byte of it cannot be
changed without being noticed: the checksum is a sum, and a sum in which one term changes
changes too, modulo 2 ^ 8 as modulo 2 ^ 16.

An image carries the version of the driver that writes it, not the one in memory.
-/

import En7512.Bmt.Remapping
import Mathlib.Data.UInt

namespace En7512.Bmt

open En7512.Nand
open scoped UInt8.CommRing

/-! ## Sums -/

section Sums

variable {α : Type} {M : Type} [AddCommMonoid M] {f : ℕ → α} (size : α → M) {n i : ℕ} (v : α)

theorem sum_range_update_of_le (h : n ≤ i) :
    ((List.range n).map fun k => size (Function.update f i v k)).sum =
      ((List.range n).map fun k => size (f k)).sum := by
  congr 1
  apply List.map_congr_left
  intro k hk
  have before : k < i := (List.mem_range.mp hk).trans_le h
  rw [Function.update_of_ne before.ne]

/-- The sum after a change of one term. -/
theorem sum_range_update (h : i < n) :
    ((List.range n).map fun k => size (Function.update f i v k)).sum + size (f i) =
      ((List.range n).map fun k => size (f k)).sum + size v := by
  induction n with
  | zero => exact absurd h (Nat.not_lt_zero i)
  | succ n ih =>
      simp only [List.range_succ, List.map_append, List.sum_append, List.map_singleton,
        List.sum_singleton]
      rcases Nat.lt_succ_iff_lt_or_eq.mp h with before | rfl
      · rw [Function.update_of_ne before.ne', add_right_comm, ih before, add_right_comm]
      · rw [sum_range_update_of_le size v le_rfl, Function.update_self, add_right_comm]

end Sums

/-- A table that begins at an offset, with one of its bytes changed. -/
theorem update_table (dat : Bytes) (offset i : ℕ) (v : UInt8) :
    (fun k => Function.update dat (offset + i) v (offset + k)) =
      Function.update (fun k => dat (offset + k)) i v := by
  ext k
  simp only [Function.update_apply, Nat.add_left_cancel_iff]

/-! ## Damage to the BMT -/

/-- The bytes of an image of the BMT that are checked: the version, the count, the checksum
and the table. -/
def BmtChecked (g : Geometry) (i : ℕ) : Prop :=
  i = 3 ∨ i = 5 ∨ i = 6 ∨ bmtTableOffset ≤ i ∧ i < bmtTableOffset + 4 * g.bmtBlockCount

section Bmt

variable {g : Geometry} {dat : Bytes} {i : ℕ} {v : UInt8}

theorem calBmtChecksum_update_table (table : i < 4 * g.bmtBlockCount) :
    calBmtChecksum g (Function.update dat (bmtTableOffset + i) v) + dat (bmtTableOffset + i) =
      calBmtChecksum g dat + v := by
  have version : Function.update dat (bmtTableOffset + i) v 3 = dat 3 :=
    Function.update_of_ne (by simp; omega) _ _
  have count : Function.update dat (bmtTableOffset + i) v 5 = dat 5 :=
    Function.update_of_ne (by simp; omega) _ _
  have sum := sum_range_update (f := fun k => dat (bmtTableOffset + k)) id v table
  simp only [id_eq, ← update_table] at sum
  rw [calBmtChecksum, calBmtChecksum, version, count, add_assoc, sum, ← add_assoc]

/-- The checksum is at 6, and does not enter the sum. -/
theorem calBmtChecksum_update_checksum :
    calBmtChecksum g (Function.update dat 6 v) = calBmtChecksum g dat := by
  apply calBmtChecksum_congr
  · exact Function.update_of_ne (by decide) _ _
  · exact Function.update_of_ne (by decide) _ _
  · intro k _
    exact Function.update_of_ne (by simp; omega) _ _

theorem calBmtChecksum_update_header (header : i = 3 ∨ i = 5) :
    calBmtChecksum g (Function.update dat i v) + dat i = calBmtChecksum g dat + v := by
  have table : ((List.range (4 * g.bmtBlockCount)).map fun k =>
      Function.update dat i v (bmtTableOffset + k)) =
      (List.range (4 * g.bmtBlockCount)).map fun k => dat (bmtTableOffset + k) := by
    apply List.map_congr_left
    intro k _
    exact Function.update_of_ne (by simp; omega) _ _
  rw [calBmtChecksum, calBmtChecksum, table]
  rcases header with rfl | rfl
  · rw [Function.update_self, Function.update_of_ne (by decide)]
    abel
  · rw [Function.update_self, Function.update_of_ne (by decide)]
    abel

/-- A valid image in which one byte is changed is rejected. -/
theorem not_validBmtData_update (valid : validBmtData g dat) (checked : BmtChecked g i)
    (changed : v ≠ dat i) : ¬ validBmtData g (Function.update dat i v) := by
  rintro ⟨checksum, -⟩
  have before := valid.1
  by_cases own : i = 6
  · subst own
    rw [Function.update_self, calBmtChecksum_update_checksum, ← before] at checksum
    exact changed checksum
  · rw [Function.update_of_ne (Ne.symm own), before] at checksum
    have sum : calBmtChecksum g (Function.update dat i v) + dat i = calBmtChecksum g dat + v := by
      rcases checked with rfl | rfl | rfl | ⟨low, high⟩
      · exact calBmtChecksum_update_header (.inl rfl)
      · exact calBmtChecksum_update_header (.inr rfl)
      · exact absurd rfl own
      · obtain ⟨k, rfl⟩ := Nat.exists_eq_add_of_le low
        exact calBmtChecksum_update_table (by omega)
    rw [← checksum] at sum
    exact changed (add_left_cancel sum).symm

end Bmt

/-! ## Damage to the bad-block table -/

/-- The bytes of an image of the bad-block table that are checked: the checksum, the
version, the count and the table. -/
def BbtChecked (i : ℕ) : Prop :=
  4 ≤ i ∧ i < 8 ∨ i = 8 ∨ i = 9 ∨ bbtTableOffset ≤ i ∧ i < bbtTableOffset + 2 * maxRawBadBlockSize

/-- `cal_bbt_checksum` before it is cut to a `u16`. -/
def bbtSum (dat : Bytes) : ℕ :=
  (dat 8).toNat + (dat 9).toNat +
    ((List.range (2 * maxRawBadBlockSize)).map fun i => (dat (bbtTableOffset + i)).toNat).sum

section Bbt

variable {g : Geometry} {dat : Bytes} {i : ℕ} {v : UInt8}

theorem bbtSum_update_table (table : i < 2 * maxRawBadBlockSize) :
    bbtSum (Function.update dat (bbtTableOffset + i) v) + (dat (bbtTableOffset + i)).toNat =
      bbtSum dat + v.toNat := by
  have version : Function.update dat (bbtTableOffset + i) v 8 = dat 8 :=
    Function.update_of_ne (by simp; omega) _ _
  have count : Function.update dat (bbtTableOffset + i) v 9 = dat 9 :=
    Function.update_of_ne (by simp; omega) _ _
  have sum := sum_range_update (f := fun k => dat (bbtTableOffset + k)) UInt8.toNat v table
  simp only [← update_table] at sum
  rw [bbtSum, bbtSum, version, count, add_assoc, sum, ← add_assoc]

theorem bbtTable_update (outside : i < bbtTableOffset) :
    (List.range (2 * maxRawBadBlockSize)).map (fun k =>
      (Function.update dat i v (bbtTableOffset + k)).toNat) =
      (List.range (2 * maxRawBadBlockSize)).map fun k => (dat (bbtTableOffset + k)).toNat := by
  apply List.map_congr_left
  intro k _
  rw [Function.update_of_ne]
  exact (outside.trans_le (Nat.le_add_right _ k)).ne'

theorem bbtSum_update_header (header : i = 8 ∨ i = 9) :
    bbtSum (Function.update dat i v) + (dat i).toNat = bbtSum dat + v.toNat := by
  rcases header with rfl | rfl
  · rw [bbtSum, bbtSum, bbtTable_update (by decide), Function.update_self,
      Function.update_of_ne (by decide)]
    ring
  · rw [bbtSum, bbtSum, bbtTable_update (by decide), Function.update_self,
      Function.update_of_ne (by decide)]
    ring

/-- The checksum does not enter the sum. -/
theorem bbtSum_update_checksum (low : 4 ≤ i) (high : i < 8) :
    bbtSum (Function.update dat i v) = bbtSum dat := by
  have outside : i < bbtTableOffset := high.trans (by decide)
  rw [bbtSum, bbtSum, bbtTable_update outside, Function.update_of_ne (by omega),
    Function.update_of_ne (by omega)]

/-- A `u32` says which bytes it has. -/
theorem u32At_update_ne (low : 4 ≤ i) (high : i < 8) (changed : v ≠ dat i) :
    u32At (Function.update dat i v) 4 ≠ u32At dat 4 := by
  have other : v.toNat ≠ (dat i).toNat := fun eq => changed (UInt8.toNat_inj.mp eq)
  have bound : ∀ k, (dat k).toNat < 256 := fun k => (dat k).toNat_lt
  have value := v.toNat_lt
  have b₄ := bound 4
  have b₅ := bound 5
  have b₆ := bound 6
  have b₇ := bound 7
  interval_cases i <;> simp [u32At, u16At] <;> omega

/-- A valid image in which one byte is changed is rejected. -/
theorem not_validBbtData_update (valid : validBbtData g dat) (checked : BbtChecked i)
    (changed : v ≠ dat i) : ¬ validBbtData g (Function.update dat i v) := by
  rintro ⟨checksum, -⟩
  have before : u32At dat 4 = bbtSum dat % 65536 := valid.1
  have after : u32At (Function.update dat i v) 4 = bbtSum (Function.update dat i v) % 65536 :=
    checksum
  by_cases own : 4 ≤ i ∧ i < 8
  · rw [bbtSum_update_checksum own.1 own.2, ← before] at after
    exact u32At_update_ne own.1 own.2 changed after
  · have same : u32At (Function.update dat i v) 4 = u32At dat 4 := by
      have outside : ∀ k, 4 ≤ k → k < 8 → Function.update dat i v k = dat k :=
        fun k low high => Function.update_of_ne (by rintro rfl; exact own ⟨low, high⟩) _ _
      simp only [u32At, u16At, outside 4 (by decide) (by decide), outside 5 (by decide) (by decide),
        outside 6 (by decide) (by decide), outside 7 (by decide) (by decide)]
    have sum : bbtSum (Function.update dat i v) + (dat i).toNat = bbtSum dat + v.toNat := by
      rcases checked with inside | version | count | ⟨low, high⟩
      · exact absurd inside own
      · exact bbtSum_update_header (.inl version)
      · exact bbtSum_update_header (.inr count)
      · obtain ⟨k, rfl⟩ := Nat.exists_eq_add_of_le low
        exact bbtSum_update_table (by omega)
    -- two bytes that differ do not differ by a multiple of 2 ^ 16
    have other : v.toNat ≠ (dat i).toNat := fun eq => changed (UInt8.toNat_inj.mp eq)
    have old := (dat i).toNat_lt
    have new := v.toNat_lt
    omega

end Bbt

/-! ## Both tables -/

/-- What writing an image of the BMT and reading it back gives. -/
structure BmtRoundTrip (g : Geometry) (bmt old : BmtStruct) (dat : Bytes) : Prop where
  accepted : IsBmtImage g dat
  version : (old.load dat).version = tableVersion
  count : (old.load dat).mappedCount = bmt.mappedCount
  live : (old.load dat).live = bmt.live
  damaged : ∀ i v, BmtChecked g i → v ≠ dat i → ¬ validBmtData g (Function.update dat i v)

/-- The same for the bad-block table. -/
structure BbtRoundTrip (g : Geometry) (bbt old : InitBbtStruct) (dat : Bytes) : Prop where
  accepted : IsBbtImage g dat
  version : (old.load dat).version = tableVersion
  count : (old.load dat).badblockCount = bbt.badblockCount
  bad : (old.load dat).bad = bbt.bad
  damaged : ∀ i v, BbtChecked i → v ≠ dat i → ¬ validBbtData g (Function.update dat i v)

theorem bmt_roundTrip {g : Geometry} {bmt : BmtStruct} (sound : bmt.Sound g) (old : BmtStruct)
    (dat : Bytes) : BmtRoundTrip g bmt old (fillNandBmtBuffer g bmt dat) where
  accepted := isBmtImage_fill sound dat
  version := by simp [BmtStruct.load, fillNandBmtBuffer_of_lt, physBmt, physBmtHeader]
  count := physMappedCount_fill g bmt dat sound.count_lt
  live := live_load_fill sound dat old
  damaged := fun _ _ checked changed =>
    not_validBmtData_update (isBmtImage_fill sound dat).2 checked changed

theorem bbt_roundTrip {g : Geometry} {bbt : InitBbtStruct} (sound : bbt.Sound g)
    (old : InitBbtStruct) (dat : Bytes) : BbtRoundTrip g bbt old (fillNandBbtBuffer bbt dat) where
  accepted := isBbtImage_fill dat sound
  version := by simp [InitBbtStruct.load, fillNandBbtBuffer_of_lt, physBbt, initTableHeader]
  count := physBadblockCount_fill bbt dat sound.count_lt
  bad := bad_load_fill dat sound old
  damaged := fun _ _ checked changed =>
    not_validBbtData_update (isBbtImage_fill dat sound).2 checked changed

/-- Both images are accepted and read back, and are rejected when one byte is changed. -/
theorem table_images_round_trip (g : Geometry) (bmt oldBmt : BmtStruct) (bbt oldBbt : InitBbtStruct)
    (dat : Bytes) (soundBmt : bmt.Sound g) (soundBbt : bbt.Sound g) :
    BmtRoundTrip g bmt oldBmt (fillNandBmtBuffer g bmt dat) ∧
      BbtRoundTrip g bbt oldBbt (fillNandBbtBuffer bbt dat) :=
  ⟨bmt_roundTrip soundBmt oldBmt dat, bbt_roundTrip soundBbt oldBbt dat⟩

/-- A table with one entry, of the given version. -/
def oneEntry (version : UInt8) : BmtStruct := ⟨fun _ => ⟨1, 4⟩, version, 1, 0⟩

theorem oneEntry_sound (version : UInt8) : (oneEntry version).Sound eightBlocks := by
  have live : (oneEntry version).live = [⟨1, 4⟩] := rfl
  constructor
  · show 1 ≤ eightBlocks.bmtBlockCount
    decide
  · show 1 < 256
    decide
  · rw [live]
    decide
  · rw [live]
    decide

/-- One entry, and one factory-bad block. -/
theorem table_images_round_trip_one :
    BmtRoundTrip eightBlocks (oneEntry 1) (oneEntry 0)
        (fillNandBmtBuffer eightBlocks (oneEntry 1) allOnes) ∧
      BbtRoundTrip eightBlocks (.ofList [2]) (.ofList [])
        (fillNandBbtBuffer (.ofList [2]) allOnes) :=
  table_images_round_trip eightBlocks _ _ _ _ _ (oneEntry_sound 1) ⟨by decide, by decide⟩

/-- A table of version 2 is read back with version 1. -/
theorem table_image_changes_version : (oneEntry 2).Sound eightBlocks ∧
    IsBmtImage eightBlocks (fillNandBmtBuffer eightBlocks (oneEntry 2) allOnes) ∧
    ((oneEntry 0).load (fillNandBmtBuffer eightBlocks (oneEntry 2) allOnes)).version ≠
      (oneEntry 2).version :=
  ⟨oneEntry_sound 2, isBmtImage_fill (oneEntry_sound 2) allOnes, by decide⟩

end En7512.Bmt
