import Rv32Soc.Bus.Access
import Rv32Soc.Hart.Csr
import Rv32Soc.Hart.Registers

/-!
# The hart

One hardware thread with its registers, and the bus that it owns. An
instruction is a step on this state that may raise an exception; the state
that it leaves is handed on in either case. The small steps from which
instructions are made are here, each about one part of the state.
-/

namespace Rv32Soc

open Isa (Reg)

/-- Where execution starts. -/
def resetVector : Word := 0x200

/-- Where every trap leads. -/
def trapVector : Word := 0x1c0

/-- The state of the hart. -/
structure Hart (ε : Type) where
  pc : Word := resetVector
  registers : Registers := {}
  csr : Csr := {}
  /-- The external interrupt has been raised and not yet been taken. -/
  pending : Bool := false
  bus : Bus ε := {}

/-- A step of the hart that may raise an exception. -/
abbrev HartM (ε : Type) := EStateM Exception (Hart ε)

namespace Hart

variable {ε : Type}

/-- The value of a register. -/
def x (h : Hart ε) (r : Reg) : Word :=
  h.registers.get r

/-- The hart with a register written. -/
def setX (h : Hart ε) (r : Reg) (value : Word) : Hart ε :=
  { h with registers := h.registers.set r value }

/-- The hart with a record written down. -/
def note (h : Hart ε) (r : Record) : Hart ε :=
  { h with bus := h.bus.note r }

/-- Raise the external interrupt. -/
def raiseExternal (h : Hart ε) : Hart ε :=
  { h with pending := true }

/-- The hart at the reset vector, with everything but the bus cleared. Of the bus only the
reservation goes. -/
def reset (h : Hart ε) : Hart ε :=
  { bus := h.bus.unreserve }

/-! ## Steps -/

/-- Read a register. -/
def readX (r : Reg) : HartM ε Word := fun h =>
  .ok (h.x r) h

/-- Write a register. -/
def writeX (r : Reg) (value : Word) : HartM ε Unit := fun h =>
  .ok () (h.setX r value)

/-- Read the pc. -/
def readPc : HartM ε Word := fun h =>
  .ok h.pc h

/-- Go to the next instruction in sequence. -/
def advance : HartM ε Unit := fun h =>
  .ok () { h with pc := h.pc + 4 }

/-- Go to the target of a jump, which must be the address of a word. -/
def jumpTo (target : Word) : HartM ε Unit := fun h =>
  if Width.Aligned .word target then .ok () { h with pc := target }
  else .error (.instructionAddressMisaligned target) h

/-- Write down a record. -/
def record (r : Record) : HartM ε Unit := fun h =>
  .ok () (h.note r)

/-- Do something on the bus; a refused access raises its exception. -/
def onBus {α : Type} (f : EStateM AddressTrap (Bus ε) α) : HartM ε α := fun h =>
  match f h.bus with
  | .ok a b => .ok a { h with bus := b }
  | .error trap b => .error trap.toException { h with bus := b }

/-- Change the bus. -/
def changeBus (f : Bus ε → Bus ε) : HartM ε Unit := fun h =>
  .ok () { h with bus := f h.bus }

/-- Load a word for inspection, as the hart itself would. -/
def loadWord [Peripheral ε] (address : Word) : EStateM Trap (Hart ε) Word := fun h =>
  match onBus (Bus.load .word address) h with
  | .ok value h => .ok value h
  | .error e h => .error (.exception e) h

end Hart

end Rv32Soc
