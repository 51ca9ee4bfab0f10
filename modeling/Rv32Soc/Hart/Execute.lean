import Rv32Soc.Hart.Basic
import Rv32Soc.Isa.Alu

/-!
# Executing an instruction

Each family of instructions is one step. What is common to all: a step that
raises an exception has written no register and left the pc at the
instruction, so that the instruction can be restarted after the trap. Hence
sources are read before the destination is written, a jump looks at its target
before it links, and a control register is written before the old value goes
to the destination.

The one exception to "nothing has happened" is store-conditional, which drops
the reservation however it ends.
-/

namespace Rv32Soc.Hart

open Isa

variable {ε : Type} [Peripheral ε]

/-! ## Jumps and branches -/

/-- Jump to a target and leave the address of the next instruction in `dest`. -/
def jumpAndLink (dest : Reg) (target : Word) : HartM ε Unit := do
  let pc ← readPc
  jumpTo target
  writeX dest (pc + 4)

/-- Execute a conditional branch. Only a taken branch looks at its target. -/
def executeBranch (cond : Branch) (src1 src2 : Reg) (offset : Word) : HartM ε Unit := do
  let a ← readX src1
  let b ← readX src2
  if cond.holds a b then
    let pc ← readPc
    jumpTo (pc + offset)
  else advance

/-! ## Memory -/

/-- Execute a load. -/
def executeLoad (kind : Load) (dest base : Reg) (offset : Word) : HartM ε Unit := do
  let address ← readX base
  let value ← onBus (Bus.load kind.width (address + offset))
  writeX dest (kind.extend value)
  advance

/-- Execute a store of the low part of `src`. -/
def executeStore (width : Width) (src base : Reg) (offset : Word) : HartM ε Unit := do
  let address ← readX base
  let value ← readX src
  onBus (Bus.store width (address + offset) (value.setWidth width.bits))
  advance

/-! ## Arithmetic -/

/-- Put the result of an operation into a register and go on. -/
def finish (dest : Reg) (value : Word) : HartM ε Unit := do
  writeX dest value
  advance

/-- Execute an operation of a register and a constant. -/
def executeWithImm (op : Op) (dest src : Reg) (imm : Word) : HartM ε Unit := do
  let a ← readX src
  finish dest (op.eval a imm)

/-- Execute an operation of two registers. -/
def executeOp (op : Op) (dest src1 src2 : Reg) : HartM ε Unit := do
  let a ← readX src1
  let b ← readX src2
  finish dest (op.eval a b)

/-! ## Atomics -/

/-- Load a word and reserve it. -/
def executeLoadReserved (dest base : Reg) : HartM ε Unit := do
  let address ← readX base
  let value ← onBus (Bus.load .word address)
  changeBus (·.reserve address)
  finish dest value

/-- Store a word if it is still reserved, and write 0 for a store and 1 for none. The
reservation is gone afterwards, also when the store is refused. -/
def executeStoreConditional (dest base src : Reg) : HartM ε Unit := fun h =>
  let address := h.x base
  if Width.Aligned .word address then
    if h.bus.isReserved address then
      match onBus (Bus.store .word address (h.x src)) h with
      | .ok () h => conclude address 0 { h with bus := h.bus.unreserve }
      | .error e h => .error e { h with bus := h.bus.unreserve }
    else conclude address 1 { h with bus := h.bus.unreserve }
  else .error (.storeAddressMisaligned address) { h with bus := h.bus.unreserve }
where
  /-- Report the status and go on. -/
  conclude (address status : Word) : HartM ε Unit := do
    record (.storedConditionally address status)
    finish dest status

/-- Replace the word in memory by its combination with `src`, and put the old word into `dest`.
A word that cannot be read counts as one that cannot be written. -/
def executeAmo (op : Amo) (dest base src : Reg) : HartM ε Unit := fun h =>
  let address := h.x base
  if Width.Aligned .word address then
    match onBus (Bus.load .word address) h with
    | .error _ h => .error (.storeAccessFault address) h
    | .ok old h =>
        match onBus (Bus.store .word address (op.eval old (h.x src))) h with
        | .error e h => .error e h
        | .ok () h => finish dest old h
  else .error (.storeAddressMisaligned address) h

/-! ## Control registers -/

/-- Exchange a register with a control register. The old value is read first; if the form
writes, the register takes the new one; then `dest` takes the old. A refusal makes the whole
`word` an illegal instruction. -/
def executeCsr (word : Word) (op : CsrOp) (dest : Reg) (number : BitVec 12) (source : Word)
    (writes : Bool) : HartM ε Unit := fun h =>
  match h.csr.read (number.setWidth 16) with
  | .error _ => .error (.illegalInstruction word) h
  | .ok old =>
      if writes then
        match h.csr.write (number.setWidth 16) (op.eval old source) with
        | .error _ => .error (.illegalInstruction word) h
        | .ok csr => finish dest old { h with csr }
      else finish dest old h

/-- A form with a register source writes unless it sets or clears the bits of register 0; the
number of the register decides, not its value. -/
def csrWrites (op : CsrOp) (src : BitVec 5) : Bool :=
  op = .write || src ≠ 0

/-! ## System -/

/-- Return from a trap to where it was taken. -/
def executeReturn : HartM ε Unit := fun h =>
  let csr := h.csr.leaveTrap
  .ok () ({ h with csr, pc := h.csr.mepc }.note (.returned h.csr.mepc))

/-! ## All instructions -/

/-- Execute a decoded instruction. The word is what an illegal use of a control register
reports. -/
def execute (i : Instr) (word : Word) : HartM ε Unit :=
  match i with
  | .lui dest imm => finish dest imm
  | .auipc dest imm => do
      let pc ← readPc
      finish dest (pc + imm)
  | .jal dest offset => do
      let pc ← readPc
      jumpAndLink dest (pc + offset)
  | .jalr dest base offset => do
      let address ← readX base
      jumpAndLink dest ((address + offset) &&& ~~~1#32)
  | .branch cond src1 src2 offset => executeBranch cond src1 src2 offset
  | .load kind dest base offset => executeLoad kind dest base offset
  | .store width src base offset => executeStore width src base offset
  | .opImm op dest src imm => executeWithImm op.toOp dest src imm
  | .shiftImm op dest src amount => executeWithImm op.toOp dest src (amount.setWidth 32)
  | .op op dest src1 src2 => executeOp op dest src1 src2
  | .loadReserved dest base => executeLoadReserved dest base
  | .storeConditional dest base src => executeStoreConditional dest base src
  | .amo op dest base src => executeAmo op dest base src
  | .scall => throw .machineCall
  | .sbreak => throw .breakpoint
  | .eret => executeReturn
  | .csr op dest src number => do
      let source ← readX src
      executeCsr word op dest number source (csrWrites op src)
  | .csrImm op dest value number =>
      executeCsr word op dest number (value.setWidth 32) (csrWrites op value)
  | .illegal word => throw (.illegalInstruction word)

end Rv32Soc.Hart
