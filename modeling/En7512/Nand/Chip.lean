/-
# The flash array

What the driver stores and what the array may do with it: bytes, pages with
their spare area, page program and block erase. The array is NAND flash.
Programming a page can clear bits and never sets one; only erasing a block
sets bits again. Whether an operation succeeds is not up to the driver, so the
outcomes come from an environment that a result quantifies over.

Every chip of the driver's device table has pages of 2 KiB and blocks of
128 KiB; only the size of the array and the layout of the spare area vary.
-/

import Mathlib.Data.List.GetD
import Mathlib.Tactic

namespace En7512.Nand

/-- `_SPI_NAND_PAGE_SIZE`. -/
def pageSize : ℕ := 2048

/-- `_SPI_NAND_BLOCK_SIZE_128KBYTE`. -/
def eraseSize : ℕ := 131072

/-- Pages in a block: `BLOCK_SIZE_BMT / PAGE_SIZE_BMT`. -/
def pagePerBlock : ℕ := 64

/-- The block of the page of an address. -/
theorem page_div_block (offset : ℕ) : offset / pageSize / pagePerBlock = offset / eraseSize :=
  Nat.div_div_eq_div_mul ..

/-- `_SPI_NAND_OOB_SIZE`, the length of the driver's spare-area buffers. -/
def oobBufferSize : ℕ := 128

/-! ## Bytes -/

/-- The memory from a pointer on. A length beside it says how much of it is
meant; what lies behind that length is memory like any other. -/
abbrev Bytes : Type := ℕ → UInt8

/-- `memset(buf, 0xFF, ..)`. -/
def allOnes : Bytes := fun _ => 0xff

@[simp] theorem allOnes_apply (i : ℕ) : allOnes i = 0xff := rfl

/-- `memcpy(&dst[offset], src, len)`. -/
def overlay (dst : Bytes) (offset : ℕ) (src : Bytes) (len : ℕ) : Bytes := fun i =>
  if offset ≤ i ∧ i < offset + len then src (i - offset) else dst i

theorem overlay_of_mem {dst src : Bytes} {offset len i : ℕ}
    (hi : offset ≤ i ∧ i < offset + len) :
    overlay dst offset src len i = src (i - offset) := if_pos hi

theorem overlay_of_not_mem {dst src : Bytes} {offset len i : ℕ}
    (hi : ¬ (offset ≤ i ∧ i < offset + len)) :
    overlay dst offset src len i = dst i := if_neg hi

@[simp] theorem overlay_zero_len (dst src : Bytes) (offset : ℕ) :
    overlay dst offset src 0 = dst := by
  funext i
  exact overlay_of_not_mem (by omega)

@[simp] theorem byte_and_ones (x : UInt8) : x &&& 0xff = x := UInt8.and_neg_one

@[simp] theorem ones_and_byte (x : UInt8) : 0xff &&& x = x := by
  rw [UInt8.and_comm, byte_and_ones]

@[simp] theorem byte_and_self_assoc (x y : UInt8) : x &&& (x &&& y) = x &&& y := by
  rw [← UInt8.and_assoc, UInt8.and_self]

/-- The `u16` at offset `i`; the processor is big-endian. -/
def u16At (b : Bytes) (i : ℕ) : ℕ := (b i).toNat * 256 + (b (i + 1)).toNat

/-- Store a `u16` at offset `i`, as `memcpy` of a big-endian `u16` does. -/
def putU16 (b : Bytes) (i v : ℕ) : Bytes := fun j =>
  if j = i then UInt8.ofNat (v / 256) else if j = i + 1 then UInt8.ofNat v else b j

theorem u16At_lt (b : Bytes) (i : ℕ) : u16At b i < 65536 := by
  have high := (b i).toNat_lt
  have low := (b (i + 1)).toNat_lt
  simp only [u16At]
  omega

theorem u16At_putU16 (b : Bytes) (i : ℕ) {v : ℕ} (hv : v < 65536) :
    u16At (putU16 b i v) i = v := by
  simp [u16At, putU16]
  omega

theorem u16At_congr {b b' : Bytes} {i : ℕ} (high : b i = b' i) (low : b (i + 1) = b' (i + 1)) :
    u16At b i = u16At b' i := by
  simp only [u16At, high, low]

/-- Storing the number that is there changes nothing. -/
theorem putU16_u16At (b b' : Bytes) (i : ℕ) {j : ℕ} (here : j = i ∨ j = i + 1) :
    putU16 b i (u16At b' i) j = b' j := by
  have high := (b' i).toNat_lt
  have low := (b' (i + 1)).toNat_lt
  rcases here with rfl | rfl
  · have value : u16At b' j / 256 = (b' j).toNat := by
      simp only [u16At]
      omega
    rw [putU16, if_pos rfl, value, UInt8.ofNat_toNat]
  · rw [putU16, if_neg (by omega), if_pos rfl]
    ext
    simp only [u16At]
    simp

theorem putU16_of_ne {b : Bytes} {i v j : ℕ} (first : j ≠ i) (second : j ≠ i + 1) :
    putU16 b i v j = b j := by
  simp [putU16, first, second]

/-! ## Pages -/

/-- One page of the array: its data and its physical spare area. Both are read
below their sizes only. -/
@[ext] structure Page where
  /-- The data bytes. -/
  data : Bytes
  /-- The spare area, at physical offsets. -/
  oob : Bytes

namespace Page

/-- An erased page. -/
def erased : Page := ⟨allOnes, allOnes⟩

/-- The page that programming `new` over `old` leaves: a bit that is clear in
either is clear. -/
def and (old new : Page) : Page :=
  ⟨fun i => old.data i &&& new.data i, fun i => old.oob i &&& new.oob i⟩

@[simp] theorem erased_data : erased.data = allOnes := rfl

@[simp] theorem erased_oob : erased.oob = allOnes := rfl

@[simp] theorem and_data (old new : Page) (i : ℕ) :
    (old.and new).data i = old.data i &&& new.data i := rfl

@[simp] theorem and_oob (old new : Page) (i : ℕ) :
    (old.and new).oob i = old.oob i &&& new.oob i := rfl

@[simp] theorem and_self (p : Page) : p.and p = p := by
  ext i <;> simp

@[simp] theorem erased_and (p : Page) : erased.and p = p := by
  ext i <;> simp

end Page

/-! ## The layout of the spare area

The chip keeps its own error-correcting code in parts of the spare area. A
layout lists the parts that are left, and the driver numbers their bytes
through: that number is the logical spare offset.
-/

/-- One entry of `oobfree`. -/
structure OobFree where
  /-- First physical offset of the entry. -/
  offset : ℕ
  /-- Number of bytes; a zero length ends the list. -/
  len : ℕ

/-- `SPI_NAND_FLASH_OOB_FREE_ENTRY_MAX`. -/
def oobFreeEntryMax : ℕ := 32

/-- The physical offsets in the order in which the scatter and gather loops
visit them: entry by entry, until the entry maximum, a zero length or `oobsize`
bytes end the loops. -/
def oobPositions (oobsize : ℕ) (oobfree : List OobFree) : List ℕ :=
  (((oobfree.take oobFreeEntryMax).takeWhile (fun e => e.len ≠ 0)).flatMap fun e =>
    (List.range e.len).map fun j => e.offset + j).take oobsize

/-- `struct spi_nand_flash_ooblayout` with what every layout of the device table
satisfies: the visited bytes are distinct, they add up to `oobsize`, and they
hold at least `MAX_USE_OOB_SIZE` bytes. -/
structure OobLayout where
  /-- Number of logical spare bytes. -/
  oobsize : ℕ
  /-- The parts of the spare area the driver may use. -/
  oobfree : List OobFree
  nodup : (oobPositions oobsize oobfree).Nodup
  full : (oobPositions oobsize oobfree).length = oobsize
  room : 32 ≤ oobsize

/-- `ooblayout_esmt`, which is also `ooblayout_zentel`. -/
def ooblayoutEsmt : OobLayout where
  oobsize := 36
  oobfree := [⟨0, 1⟩, ⟨8, 8⟩, ⟨16, 1⟩, ⟨24, 8⟩, ⟨32, 1⟩, ⟨40, 8⟩, ⟨48, 1⟩, ⟨56, 8⟩]
  nodup := by decide
  full := by decide
  room := by decide

/-- `ooblayout_mxic`, which the Toshiba, Micron and two GigaDevice chips share. -/
def ooblayoutMxic : OobLayout where
  oobsize := 64
  oobfree := [⟨0, 64⟩]
  nodup := by decide
  full := by decide
  room := by decide

/-- `ooblayout_winbond`. -/
def ooblayoutWinbond : OobLayout where
  oobsize := 32
  oobfree := [⟨0, 8⟩, ⟨16, 8⟩, ⟨32, 8⟩, ⟨48, 8⟩]
  nodup := by decide
  full := by decide
  room := by decide

/-- `ooblayout_gigadevice_a`. -/
def ooblayoutGigadeviceA : OobLayout where
  oobsize := 48
  oobfree := [⟨0, 12⟩, ⟨16, 12⟩, ⟨32, 12⟩, ⟨48, 12⟩]
  nodup := by decide
  full := by decide
  room := by decide

/-- `ooblayout_etron`. -/
def ooblayoutEtron : OobLayout where
  oobsize := 60
  oobfree := [⟨0, 16⟩, ⟨30, 16⟩, ⟨60, 16⟩, ⟨90, 16⟩]
  nodup := by decide
  full := by decide
  room := by decide

namespace OobLayout

variable (L : OobLayout)

/-- The physical offsets of the logical spare bytes, in order. -/
def positions : List ℕ := oobPositions L.oobsize L.oobfree

/-- The physical offset of logical spare byte `i`. -/
def pos (i : ℕ) : ℕ := L.positions.getD i 0

/-- Read the spare area through the layout, as the loop at the end of
`spi_nand_read_page` does. Entries of the target from `oobsize` on keep their
old bytes. -/
def gather (oob before : Bytes) : Bytes := fun i =>
  if i < L.oobsize then oob (L.pos i) else before i

/-- The `&=` loop of `spi_nand_write_page`: logical bytes of `w` below `oobsize`
and below `len` clear bits of the spare area. -/
def scatter (oob w : Bytes) (len : ℕ) : Bytes := fun j =>
  if j ∈ L.positions.take len then oob j &&& w (L.positions.idxOf j) else oob j

theorem positions_length : L.positions.length = L.oobsize := L.full

theorem pos_eq_getElem {i : ℕ} (hi : i < L.positions.length) :
    L.pos i = L.positions[i] := List.getD_eq_getElem _ _ hi

theorem pos_mem_take {i len : ℕ} (hi : i < L.oobsize) :
    L.pos i ∈ L.positions.take len ↔ i < len := by
  have bound : i < L.positions.length := by rw [positions_length]; exact hi
  rw [L.pos_eq_getElem bound, List.mem_take_iff_getElem]
  constructor
  · rintro ⟨j, hj, eq⟩
    have same : j = i := (L.nodup.getElem_inj_iff).mp eq
    omega
  · exact fun h => ⟨i, by omega, rfl⟩

theorem idxOf_pos {i : ℕ} (hi : i < L.oobsize) : L.positions.idxOf (L.pos i) = i := by
  have bound : i < L.positions.length := by rw [positions_length]; exact hi
  rw [L.pos_eq_getElem bound]
  exact L.nodup.idxOf_getElem i bound

theorem gather_of_lt {oob before : Bytes} {i : ℕ} (hi : i < L.oobsize) :
    L.gather oob before i = oob (L.pos i) := if_pos hi

/-- What a page program does to the spare area, seen through the layout. -/
theorem scatter_pos (oob w : Bytes) (len : ℕ) {i : ℕ} (hi : i < L.oobsize) :
    L.scatter oob w len (L.pos i) =
      if i < len then oob (L.pos i) &&& w i else oob (L.pos i) := by
  simp only [scatter, L.pos_mem_take hi, L.idxOf_pos hi]

@[simp] theorem scatter_ones (oob : Bytes) (len : ℕ) : L.scatter oob allOnes len = oob := by
  funext j
  simp [scatter]

end OobLayout

/-! ## The environment and the array -/

/-- How the array ends a program or erase operation. A failed operation reports
so and leaves each page it addressed with some content. -/
inductive Outcome
  | done
  | fail (left : ℕ → Page)

/-- Everything around the driver that it does not control. -/
structure Env where
  /-- The layout of the chip that was probed. -/
  layout : OobLayout
  /-- The outcome of each program and erase operation, numbered in order. -/
  outcome : ℕ → Outcome
  /-- Whether loading the page fails its ECC check, after that many operations. -/
  uncorrectable : ℕ → ℕ → Bool

/-- The array, with the number of operations it has been given. -/
structure Chip where
  /-- The pages, by page number. -/
  pages : ℕ → Page
  /-- Program and erase operations so far. -/
  ticks : ℕ

namespace Chip

/-- Program one page; `true` is success. -/
def program (env : Env) (page : ℕ) (new : Page) (c : Chip) : Bool × Chip :=
  match env.outcome c.ticks with
  | .done =>
      (true, ⟨fun p => if p = page then (c.pages p).and new else c.pages p, c.ticks + 1⟩)
  | .fail left =>
      (false, ⟨fun p => if p = page then left p else c.pages p, c.ticks + 1⟩)

/-- Erase one block; `true` is success. -/
def eraseBlock (env : Env) (block : ℕ) (c : Chip) : Bool × Chip :=
  match env.outcome c.ticks with
  | .done =>
      (true, ⟨fun p => if p / pagePerBlock = block then .erased else c.pages p, c.ticks + 1⟩)
  | .fail left =>
      (false, ⟨fun p => if p / pagePerBlock = block then left p else c.pages p, c.ticks + 1⟩)

theorem eraseBlock_cases (env : Env) (block : ℕ) (c : Chip) :
    (c.eraseBlock env block).1 = true ∧ (c.eraseBlock env block).2.pages =
        (fun p => if p / pagePerBlock = block then .erased else c.pages p) ∨
      (c.eraseBlock env block).1 = false ∧ ∃ left : ℕ → Page,
        (c.eraseBlock env block).2.pages =
          fun p => if p / pagePerBlock = block then left p else c.pages p := by
  simp only [eraseBlock]
  split
  · exact .inl ⟨rfl, rfl⟩
  · next left _ => exact .inr ⟨rfl, left, rfl⟩

end Chip

end En7512.Nand
