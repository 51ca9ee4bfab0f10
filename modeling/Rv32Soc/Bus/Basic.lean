import Rv32Soc.Bus.Window
import Rv32Soc.Device.Basic
import Rv32Soc.Journal

/-!
# The bus

A bus holds devices in slots and opens windows on them. A device may have no
window, or several; what a device is and where it shows are kept apart. While
a device takes a turn of its own its slot is vacant, so that nobody can reach
it through the bus, itself included.

The bus also holds the reservation of load-reserved and store-conditional:
at most one word, named by its address.
-/

namespace Rv32Soc

/-- Why a window cannot be opened. -/
inductive BusError where
  | noPages
  | misalignedBase (base : Word) (window : Nat)
  | beyondAddressSpace (base : Word)
  /-- The first page that another window has already. -/
  | pageInUse (page : Nat)
  deriving DecidableEq

/-- The text of a refusal. -/
def BusError.message : BusError → String
  | noPages => "peripheral must occupy at least one page"
  | misalignedBase base window =>
      "base " ++ Text.address base ++ " is not aligned to the peripheral window (0x"
        ++ Text.hex window ++ " bytes)"
  | beyondAddressSpace base =>
      "peripheral at " ++ Text.address base ++ " extends beyond the end of the address space"
  | pageInUse page =>
      "page at 0x" ++ Text.hexPadded 8 (page * pageSize)
        ++ " is already mapped to another peripheral"

/-- The state of the bus and of everything on it. -/
structure Bus (ε : Type) where
  /-- The devices. A slot is vacant while its device takes a turn. -/
  slots : Array (Option (Device ε)) := #[]
  /-- The windows in the order in which they were opened. -/
  windows : List Window := []
  /-- The address of the reserved word. -/
  reservation : Option Word := none
  journal : Journal := {}

namespace Bus

variable {ε : Type}

/-- Write down a record. -/
def note (b : Bus ε) (r : Record) : Bus ε :=
  { b with journal := b.journal.note r }

/-! ## Slots -/

/-- The device in a slot, unless the slot is vacant. -/
def device? (b : Bus ε) (slot : Nat) : Option (Device ε) :=
  (b.slots[slot]?).join

/-- Give a device a slot of its own. -/
def install (b : Bus ε) (d : Device ε) : Nat × Bus ε :=
  (b.slots.size, { b with slots := b.slots.push (some d) })

/-- The bus without the device in a slot. -/
def vacate (b : Bus ε) (slot : Nat) : Bus ε :=
  { b with slots := b.slots.setIfInBounds slot none }

/-- The bus with a device in a slot. -/
def put (b : Bus ε) (slot : Nat) (d : Device ε) : Bus ε :=
  { b with slots := b.slots.setIfInBounds slot (some d) }

/-- Let the device in a slot do something; `absent` is the answer of a vacant slot. -/
def visit {σ α : Type} (slot : Nat) (f : EStateM σ (Device ε) α) (absent : σ) :
    EStateM σ (Bus ε) α := fun b =>
  match b.device? slot with
  | none => .error absent b
  | some d =>
      let b := b.vacate slot
      match f d with
      | .ok a d => .ok a (b.put slot d)
      | .error e d => .error e (b.put slot d)

/-- Replace the device in a slot by what a function makes of it. -/
def update (b : Bus ε) (slot : Nat) (f : Device ε → Device ε) : Bus ε :=
  match b.device? slot with
  | none => b
  | some d => (b.vacate slot).put slot (f d)

/-! ## Windows -/

/-- The window that a page belongs to. -/
def window? (b : Bus ε) (page : Nat) : Option Window :=
  b.windows.find? (·.covers page)

/-- The slot that answers for an address, and the offset that it is asked for. -/
def route (b : Bus ε) (address : Word) : Option (Nat × Word) :=
  (b.window? (pageOf address)).map fun w => (w.slot, w.offset address)

/-- The first page from `first` to before `stop` that has a window already. -/
def firstTaken? (b : Bus ε) (first stop : Nat) : Option Nat :=
  (b.windows.filterMap (·.firstCommon? first stop)).min?

/-- Open a window on the device in a slot. The base must suit the rounded size of the window, the
pages must exist, and no page may have a window already; a refusal changes nothing. -/
def attach [Peripheral ε] (b : Bus ε) (slot : Nat) (base : Word) : Except BusError (Bus ε) :=
  match (b.device? slot).map Device.pages with
  | none => .error .noPages
  | some pages =>
      let window : Window := ⟨base, pages, slot⟩
      if pages = 0 then .error .noPages
      else if base.toNat % windowSize pages ≠ 0 then
        .error (.misalignedBase base (windowSize pages))
      else if window.endPage > pageCount then .error (.beyondAddressSpace base)
      else
        match b.firstTaken? window.firstPage window.endPage with
        | some page => .error (.pageInUse page)
        | none =>
            .ok ({ b with windows := b.windows ++ [window] }.note
              (.attached b.windows.length base pages))

/-! ## The reservation -/

/-- The word that an address lies in is reserved. -/
def isReserved (b : Bus ε) (address : Word) : Bool :=
  b.reservation == some (wordAddress address)

/-- Reserve the word that an address lies in. -/
def reserve (b : Bus ε) (address : Word) : Bus ε :=
  { b with reservation := some (wordAddress address) }.note (.reservationSet address)

/-- Drop the reservation. -/
def unreserve (b : Bus ε) : Bus ε :=
  { b with reservation := none }

/-- Take note of a store that succeeded: it takes the reservation of its word away. -/
def loseReservation (b : Bus ε) (address : Word) : Bus ε :=
  if b.isReserved address then b.unreserve.note (.reservationLost address) else b

/-- The record of a bus: its windows and its reservation. -/
def record (b : Bus ε) : String :=
  let windows := b.windows.map fun w =>
    "(" ++ Text.decimal w.base.toNat ++ ", " ++ Text.decimal w.pages.toNat ++ ")"
  let reservation := match b.reservation with
    | some address => "Some(" ++ Text.decimal address.toNat ++ ")"
    | none => "None"
  "SystemBus \x7b windows: [" ++ ", ".intercalate windows ++ "], reservation: " ++ reservation
    ++ " \x7d"

end Bus

end Rv32Soc
