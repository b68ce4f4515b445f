/-
# The device table

`spi_nand_flash_tables` lists the chips the driver knows, by manufacturer and device number,
with what sets them apart: the size of the array and of the spare area, the layout of the spare
area, where the read command has its dummy byte, and whether the array has two planes.

Three manufacturers share one number. The name of a chip is printed and not used otherwise, so
it is left out; with the name gone two entries are each there twice.
-/

import En7512.Nand.Chip

namespace En7512.Spi

open En7512.Nand

/-! ## Numbers of the manufacturers -/

/-- `_SPI_NAND_MANUFACTURER_ID_GIGADEVICE`. -/
def mfrGigadevice : UInt8 := 0xc8

/-- `_SPI_NAND_MANUFACTURER_ID_WINBOND`. -/
def mfrWinbond : UInt8 := 0xef

/-- `_SPI_NAND_MANUFACTURER_ID_ESMT`. -/
def mfrEsmt : UInt8 := 0xc8

/-- `_SPI_NAND_MANUFACTURER_ID_MXIC`. -/
def mfrMxic : UInt8 := 0xc2

/-- `_SPI_NAND_MANUFACTURER_ID_ZENTEL`. -/
def mfrZentel : UInt8 := 0xc8

/-- `_SPI_NAND_MANUFACTURER_ID_ETRON`. -/
def mfrEtron : UInt8 := 0xd5

/-- `_SPI_NAND_MANUFACTURER_ID_TOSHIBA`. -/
def mfrToshiba : UInt8 := 0x98

/-- `_SPI_NAND_MANUFACTURER_ID_MICRON`. -/
def mfrMicron : UInt8 := 0x2c

/-! ## The entries -/

/-- `SPI_NAND_FLASH_READ_DUMMY_BYTE_T`: the dummy byte of the read command stands before or
behind the column address. -/
inductive DummyMode
  | prepend
  | append
  deriving DecidableEq, Repr

/-- `SPI_NAND_FLASH_PLANE_SELECT_T`. -/
inductive PlaneSelect
  | selectNone
  | selectHave
  deriving DecidableEq, Repr

/-- `struct SPI_NAND_FLASH_INFO_T`, with what every entry of the table satisfies. -/
structure FlashInfo where
  mfrId : UInt8
  devId : UInt8
  /-- Bytes of the array. -/
  deviceSize : ℕ
  /-- Bytes of the spare area of a page. -/
  oobSize : ℕ
  dummyMode : DummyMode
  oobFreeLayout : OobLayout
  planeSelect : PlaneSelect
  /-- The driver's buffers hold the spare area. -/
  fits : oobSize ≤ oobBufferSize
  /-- The layout stays inside the spare area. -/
  inside : ∀ i ∈ oobFreeLayout.positions, i < oobSize

/-- `_SPI_NAND_CHIP_SIZE_512MBIT`. -/
def chipSize512Mbit : ℕ := 0x04000000

/-- `_SPI_NAND_CHIP_SIZE_1GBIT`. -/
def chipSize1Gbit : ℕ := 0x08000000

/-- `_SPI_NAND_CHIP_SIZE_2GBIT`. -/
def chipSize2Gbit : ℕ := 0x10000000

section Entries

variable (devId : UInt8) (deviceSize : ℕ)

/-- The GigaDevice chips of type A. -/
def gigadeviceA : FlashInfo where
  mfrId := mfrGigadevice
  devId := devId
  deviceSize := deviceSize
  oobSize := 64
  dummyMode := .append
  oobFreeLayout := ooblayoutGigadeviceA
  planeSelect := .selectNone
  fits := by decide
  inside := by decide

/-- The GigaDevice chips of type B. -/
def gigadeviceB : FlashInfo where
  mfrId := mfrGigadevice
  devId := devId
  deviceSize := deviceSize
  oobSize := 128
  dummyMode := .append
  oobFreeLayout := ooblayoutMxic
  planeSelect := .selectNone
  fits := by decide
  inside := by decide

/-- The GigaDevice chips of type C. -/
def gigadeviceC : FlashInfo where
  mfrId := mfrGigadevice
  devId := devId
  deviceSize := deviceSize
  oobSize := 128
  dummyMode := .prepend
  oobFreeLayout := ooblayoutMxic
  planeSelect := .selectNone
  fits := by decide
  inside := by decide

/-- The chips of ESMT; those of Zentel have the same entries. -/
def esmt : FlashInfo where
  mfrId := mfrEsmt
  devId := devId
  deviceSize := deviceSize
  oobSize := 64
  dummyMode := .append
  oobFreeLayout := ooblayoutEsmt
  planeSelect := .selectNone
  fits := by decide
  inside := by decide

/-- The chips of Winbond. -/
def winbond : FlashInfo where
  mfrId := mfrWinbond
  devId := devId
  deviceSize := deviceSize
  oobSize := 64
  dummyMode := .append
  oobFreeLayout := ooblayoutWinbond
  planeSelect := .selectNone
  fits := by decide
  inside := by decide

/-- The chips of MXIC. -/
def mxic (planeSelect : PlaneSelect) : FlashInfo where
  mfrId := mfrMxic
  devId := devId
  deviceSize := deviceSize
  oobSize := 64
  dummyMode := .append
  oobFreeLayout := ooblayoutMxic
  planeSelect := planeSelect
  fits := by decide
  inside := by decide

/-- The chips of Etron. -/
def etron : FlashInfo where
  mfrId := mfrEtron
  devId := devId
  deviceSize := deviceSize
  oobSize := 128
  dummyMode := .append
  oobFreeLayout := ooblayoutEtron
  planeSelect := .selectNone
  fits := by decide
  inside := by decide

/-- The chips of Toshiba. -/
def toshiba : FlashInfo where
  mfrId := mfrToshiba
  devId := devId
  deviceSize := deviceSize
  oobSize := 64
  dummyMode := .append
  oobFreeLayout := ooblayoutMxic
  planeSelect := .selectNone
  fits := by decide
  inside := by decide

/-- The chips of Micron. -/
def micron : FlashInfo where
  mfrId := mfrMicron
  devId := devId
  deviceSize := deviceSize
  oobSize := 128
  dummyMode := .append
  oobFreeLayout := ooblayoutMxic
  planeSelect := .selectNone
  fits := by decide
  inside := by decide

end Entries

/-- `spi_nand_flash_tables`. -/
def spiNandFlashTables : List FlashInfo :=
  [gigadeviceA 0xf1 chipSize1Gbit, gigadeviceB 0xd1 chipSize1Gbit, gigadeviceC 0xb1 chipSize1Gbit,
   gigadeviceB 0xd2 chipSize2Gbit, gigadeviceC 0xb2 chipSize2Gbit, esmt 0x20 chipSize512Mbit,
   esmt 0x21 chipSize1Gbit, winbond 0xaa chipSize1Gbit, winbond 0xab chipSize2Gbit,
   mxic 0x12 chipSize1Gbit .selectNone, mxic 0x22 chipSize2Gbit .selectHave,
   esmt 0x20 chipSize512Mbit, esmt 0x21 chipSize1Gbit, etron 0x11 chipSize1Gbit,
   etron 0x12 chipSize2Gbit,
   toshiba 0xc2 chipSize1Gbit, toshiba 0xcb chipSize2Gbit, micron 0x14 chipSize1Gbit]

end En7512.Spi
