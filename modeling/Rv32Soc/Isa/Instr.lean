import Rv32Soc.Isa.Format

/-!
# Instructions

The instruction set is RV32IMA, the control-register instructions and three
machine-mode system instructions. Instructions that are decoded, executed and
written alike form one family, and a family has an index type: `Op` for what
combines two registers, `Load` for the five loads, and so on. So `Instr` has
one constructor per family, and a statement about loads needs one case.

Operands have exactly the width of their fields; immediates are words,
sign-extended already. The last constructor takes every word that is no
instruction, so that decoding can be total.
-/

namespace Rv32Soc.Isa

/-! ## Families -/

/-- The conditions of a conditional branch. -/
inductive Branch where
  | beq | bne | blt | bge | bltu | bgeu
  deriving DecidableEq

/-- The loads: three widths, and two of them with or without sign. -/
inductive Load where
  | lb | lh | lw | lbu | lhu
  deriving DecidableEq

/-- Operations of a register and an immediate, the shifts apart. -/
inductive OpImm where
  | addi | slti | sltiu | xori | ori | andi
  deriving DecidableEq

/-- Shifts of a register by a constant. -/
inductive ShiftImm where
  | slli | srli | srai
  deriving DecidableEq

/-- Operations of two registers: the integer ones, then multiplication and division. -/
inductive Op where
  | add | sub | sll | slt | sltu | xor | srl | sra | or | and
  | mul | mulh | mulhsu | mulhu | div | divu | rem | remu
  deriving DecidableEq

/-- What an atomic memory operation makes of the old word and its source register. -/
inductive Amo where
  | swap | add | xor | and | or | min | max | minu | maxu
  deriving DecidableEq

/-- What a control-register instruction does with its source: replace the register by it, set
the bits it names, or clear them. -/
inductive CsrOp where
  | write | set | clear
  deriving DecidableEq

/-! ## Instructions -/

/-- A decoded instruction. -/
inductive Instr where
  /-- Put the immediate, whose low twelve bits are clear, into `dest`. -/
  | lui (dest : Reg) (imm : Word)
  /-- Put the pc plus the immediate, whose low twelve bits are clear, into `dest`. -/
  | auipc (dest : Reg) (imm : Word)
  /-- Jump by `offset` and leave the address of the next instruction in `dest`. -/
  | jal (dest : Reg) (offset : Word)
  /-- Jump to `base + offset`, bit 0 cleared, and leave the return address in `dest`. -/
  | jalr (dest base : Reg) (offset : Word)
  /-- Jump by `offset` if the condition holds of the two sources. -/
  | branch (cond : Branch) (src1 src2 : Reg) (offset : Word)
  /-- Load from `base + offset` into `dest`. -/
  | load (kind : Load) (dest base : Reg) (offset : Word)
  /-- Store the low part of `src` at `base + offset`. -/
  | store (width : Width) (src base : Reg) (offset : Word)
  /-- Combine a register with an immediate. -/
  | opImm (op : OpImm) (dest src : Reg) (imm : Word)
  /-- Shift a register by a constant. -/
  | shiftImm (op : ShiftImm) (dest src : Reg) (amount : BitVec 5)
  /-- Combine two registers. -/
  | op (op : Op) (dest src1 src2 : Reg)
  /-- Load the word at `base` into `dest` and reserve it. -/
  | loadReserved (dest base : Reg)
  /-- Store `src` at `base` if that word is still reserved; `dest` tells whether it was not. -/
  | storeConditional (dest base src : Reg)
  /-- Replace the word at `base` by its combination with `src`, and put the old one into `dest`. -/
  | amo (op : Amo) (dest base src : Reg)
  /-- Call the environment. -/
  | scall
  /-- Stop at a breakpoint. -/
  | sbreak
  /-- Return from a trap handler. -/
  | eret
  /-- Exchange a register with a control register. -/
  | csr (op : CsrOp) (dest src : Reg) (number : BitVec 12)
  /-- The same with a small constant in place of the source register. -/
  | csrImm (op : CsrOp) (dest : Reg) (value : BitVec 5) (number : BitVec 12)
  /-- A word that is no instruction. -/
  | illegal (word : Word)
  deriving DecidableEq

namespace Instr

/-- The instruction is a word that could not be decoded. -/
def isIllegal : Instr → Bool
  | illegal _ => true
  | _ => false

end Instr

namespace Load

/-- The width of the access that a load makes. -/
def width : Load → Width
  | lb | lbu => .byte
  | lh | lhu => .halfword
  | lw => .word

/-- The load repeats the sign of what it read. -/
def isSigned : Load → Bool
  | lb | lh | lw => true
  | lbu | lhu => false

end Load

namespace OpImm

/-- The two-register operation that an immediate operation performs. -/
def toOp : OpImm → Op
  | addi => .add
  | slti => .slt
  | sltiu => .sltu
  | xori => .xor
  | ori => .or
  | andi => .and

end OpImm

namespace ShiftImm

/-- The two-register operation that a shift by a constant performs. -/
def toOp : ShiftImm → Op
  | slli => .sll
  | srli => .srl
  | srai => .sra

end ShiftImm

end Rv32Soc.Isa
