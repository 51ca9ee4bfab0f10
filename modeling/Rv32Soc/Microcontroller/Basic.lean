import Rv32Soc.Hart.Step

/-!
# The microcontroller

One hart; a ROM for the program at address 0, a RAM for data at 0x10000000 and
the interrupt controller at 0xea001000; and whatever else is attached in the
rest of the address space.

Time has two grains. In a cycle the hart takes a step, then each attached
device has its cycle in the order of attachment, and at last the controller
polls its sources and may raise the interrupt of the hart. A timestep is
coarser: the owner calls for one after some number of cycles, and then each
attached device has its timestep.
-/

namespace Rv32Soc

/-! ## The map -/

/-- The first address of the ROM. -/
def romBase : Word := 0x00000000

/-- The first address of the RAM; the ROM ends before it. -/
def ramBase : Word := 0x10000000

/-- The address that the RAM ends before. -/
def ramTop : Word := 0x20000000

/-- The first address of the interrupt controller. -/
def controllerBase : Word := 0xea001000

/-- The slot of the ROM. -/
def romSlot : Nat := 0

/-- The slot of the RAM. -/
def ramSlot : Nat := 1

/-- The slot of the interrupt controller. -/
def controllerSlot : Nat := 2

/-! ## Construction -/

/-- The sizes of the two memories in pages. -/
structure Config where
  romPages : Word := 64
  ramPages : Word := 64
  deriving DecidableEq, Inhabited

/-- Why there is no such microcontroller. -/
inductive ConfigError where
  | romTooLarge (pages : Word)
  | ramTooLarge (pages : Word)
  | bus (error : BusError)
  deriving DecidableEq

/-- The text of a wrong configuration. -/
def ConfigError.message : ConfigError → String
  | romTooLarge pages =>
      "ROM of " ++ Text.decimal pages.toNat ++ " pages does not fit below the RAM base 0x10000000"
  | ramTooLarge pages =>
      "RAM of " ++ Text.decimal pages.toNat ++ " pages does not fit below 0x20000000"
  | bus error => error.message

/-- The stack pointer after a reset: the last eight bytes of the RAM, at a multiple of eight. -/
def initialStackPointer (ramPages : Word) : Word :=
  (ramBase + ramPages * BitVec.ofNat 32 pageSize - 1) &&& ~~~7#32

/-- The register that holds the stack pointer. -/
def stackPointer : Isa.Reg := 2

/-- The state of the microcontroller. -/
structure Microcontroller (ε : Type) where
  hart : Hart ε
  config : Config
  /-- The slots of the attached devices in the order of attachment. -/
  attached : List Nat := []

namespace Microcontroller

variable {ε : Type} [Peripheral ε]

/-- Open a window for a device that is new to the bus. -/
def place (b : Bus ε) (d : Device ε) (base : Word) : Except ConfigError (Bus ε) :=
  let (slot, b) := b.install d
  match b.attach slot base with
  | .ok b => .ok b
  | .error e => .error (.bus e)

/-- A microcontroller with memories of the given sizes, all zero, and nothing attached. -/
def new (config : Config) : Except ConfigError (Microcontroller ε) := do
  if config.romPages.toNat * pageSize > ramBase.toNat - romBase.toNat then
    throw (.romTooLarge config.romPages)
  if config.ramPages.toNat * pageSize > ramTop.toNat - ramBase.toNat then
    throw (.ramTooLarge config.ramPages)
  let b ← place {} (.rom (Storage.ofPages config.romPages)) romBase
  let b ← place b (.ram (Storage.ofPages config.ramPages)) ramBase
  let b ← place b (.controller {}) controllerBase
  let hart : Hart ε := { bus := b }
  return { hart := hart.setX stackPointer (initialStackPointer config.ramPages), config }

/-! ## Parts -/

/-- The bus. -/
def bus (m : Microcontroller ε) : Bus ε :=
  m.hart.bus

/-- Change the bus. -/
def onBus (m : Microcontroller ε) (f : Bus ε → Bus ε) : Microcontroller ε :=
  { m with hart := { m.hart with bus := f m.hart.bus } }

/-- The memory in a slot. -/
def memoryAt (m : Microcontroller ε) (slot : Nat) : Memory :=
  match (m.bus.device? slot).bind Device.storage? with
  | some s => s.memory
  | none => ⟨#[]⟩

/-- The contents of the ROM. -/
def rom (m : Microcontroller ε) : Memory :=
  m.memoryAt romSlot

/-- The contents of the RAM. -/
def ram (m : Microcontroller ε) : Memory :=
  m.memoryAt ramSlot

/-- The interrupt controller. -/
def controller (m : Microcontroller ε) : InterruptController :=
  (m.bus.controller? controllerSlot).getD {}

/-! ## Attaching devices -/

/-- Open a window on the device in a slot, and let it take part in cycles and timesteps after
those attached before. A refusal changes nothing. -/
def attach (m : Microcontroller ε) (slot : Nat) (base : Word) :
    Except BusError (Microcontroller ε) :=
  match m.bus.attach slot base with
  | .ok b => .ok { m with hart := { m.hart with bus := b }, attached := m.attached ++ [slot] }
  | .error e => .error e

/-- Register the device in a slot as a source of an interrupt line. -/
def register (m : Microcontroller ε) (slot : Nat) (l : Line) : Microcontroller ε :=
  m.onBus (·.updateController controllerSlot (·.register slot l))

/-! ## Running -/

/-- Back to the reset vector: the hart and the interrupt controller are reset and the stack
pointer is set. Memories and devices are kept. -/
def reset (m : Microcontroller ε) : Microcontroller ε :=
  let hart := m.hart.reset.setX stackPointer (initialStackPointer m.config.ramPages)
  { m with hart }.onBus fun b =>
    (b.updateController controllerSlot (·.reset)).note (.restarted resetVector)

/-- Let the controller poll its sources and decide whether to interrupt the hart. -/
def arbitrate (m : Microcontroller ε) : Microcontroller ε :=
  let b := m.hart.bus.cycle controllerSlot
  let (delivered, b) := b.dispatch controllerSlot m.hart.listening
  { m with hart := { m.hart with bus := b, pending := m.hart.pending || delivered.isSome } }

/-- One cycle, with the trap that the hart took in it. -/
def cycle (m : Microcontroller ε) : Option Trap × Microcontroller ε :=
  let (trap, hart) := m.hart.step
  let m := { m with hart }.onBus fun b => m.attached.foldl Bus.cycle b
  (trap, m.arbitrate)

/-- One timestep. The controller has nothing to do in it. -/
def timestep (m : Microcontroller ε) : Microcontroller ε :=
  m.onBus fun b => m.attached.foldl Bus.timestep b

end Microcontroller

end Rv32Soc
