import Rv32Soc.Hart.Execute

/-!
# A step of the hart

A step takes the pending interrupt if interrupts are on, and else fetches,
decodes and executes one instruction. If that ends in a trap, the trap is
entered at once: the control registers record it, interrupts go off, and the
pc moves to the trap vector. A step therefore always succeeds, and tells which
trap it took.
-/

namespace Rv32Soc.Hart

open Isa

variable {ε : Type} [Peripheral ε]

/-- The hart listens to interrupts. -/
def listening (h : Hart ε) : Bool :=
  h.csr.ie

/-- Fetch the instruction at the pc and execute it. -/
def fetchAndExecute : HartM ε Unit := do
  let pc ← readPc
  let word ← onBus (Bus.fetch pc)
  record (.fetched pc word)
  execute (Instr.decode word) word

/-- Take the interrupt if there is one to take, or else run one instruction. -/
def attempt : EStateM Trap (Hart ε) Unit := fun h =>
  if h.pending && h.listening then
    .error (.interrupt .external) { h with pending := false }
  else
    match fetchAndExecute h with
    | .ok () h => .ok () h
    | .error e h => .error (.exception e) h

/-- Enter a trap that was taken at `pc`. -/
def enterTrap (h : Hart ε) (pc : Word) (trap : Trap) : Hart ε :=
  { h with
    pc := trapVector
    csr := h.csr.enterTrap pc trap.mcause trap.badAddress? }.note (.trapped pc trap)

/-- One step, with the trap that it took. -/
def step (h : Hart ε) : Option Trap × Hart ε :=
  let pc := h.pc
  match attempt h with
  | .ok () h => (none, h)
  | .error trap h => (some trap, h.enterTrap pc trap)

end Rv32Soc.Hart
