import Rv32Soc.Device.Storage

/-!
# Windows and pages

The address space is divided into pages of 1024 bytes. A device shows in a
window: whole pages from a base address on, as many as the device has. For
the offset inside the window the address is cut to the low bits that a window
of twice, four times, eight times … one page needs, so that a device of three
pages is treated like one of four. That is right because a base must be a
multiple of this rounded size.
-/

namespace Rv32Soc

/-- The number of pages in the address space. -/
def pageCount : Nat := wordCount / pageSize

/-- The least power of two that is not below a number. -/
def roundUp (n : Nat) : Nat :=
  if n ≤ 1 then 1 else 1 <<< ((n - 1).log2 + 1)

/-- The bits of an address that tell places in a window of so many pages apart. -/
def windowMask (pages : Word) : Word :=
  BitVec.ofNat 32 (roundUp (pages.toNat * pageSize) - 1)

/-- The rounded size of a window of so many pages, in bytes. -/
def windowSize (pages : Word) : Nat :=
  (windowMask pages).toNat + 1

/-- The page that an address lies in. -/
def pageOf (address : Word) : Nat :=
  address.toNat / pageSize

/-- A device's place in the address space. -/
structure Window where
  base : Word
  pages : Word
  /-- The slot of the device. -/
  slot : Nat
  deriving DecidableEq

namespace Window

/-- The first page of a window. -/
def firstPage (w : Window) : Nat :=
  pageOf w.base

/-- The page behind the last one of a window. -/
def endPage (w : Window) : Nat :=
  w.firstPage + w.pages.toNat

/-- The page belongs to the window. -/
def covers (w : Window) (page : Nat) : Bool :=
  decide (w.firstPage ≤ page ∧ page < w.endPage)

/-- The place of an address inside the window. -/
def offset (w : Window) (address : Word) : Word :=
  address &&& windowMask w.pages

/-- The first page that a window has in common with the pages from `first` to before `stop`. -/
def firstCommon? (w : Window) (first stop : Nat) : Option Nat :=
  let page := max first w.firstPage
  if page < min stop w.endPage then some page else none

end Window

end Rv32Soc
