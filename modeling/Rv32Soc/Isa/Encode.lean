import Rv32Soc.Isa.Code

/-!
# From instructions to words

There is one encoder per family. They are assembler primitives: registers come
as bytes, immediates as words with the value they have in assembly (a branch
offset counts bytes), and nothing is checked. An operand that is too large for
its field spills into the bits above, so only operands in range give the
instruction that was meant.

`Instr.encode` feeds the encoders the operands of an instruction, which are
always in range, and undoes decoding up to the bits that decoding ignores.
-/

namespace Rv32Soc.Isa

namespace Encode

/-- Widen a code or a register number to a word. -/
abbrev widen {n : Nat} (code : BitVec n) : Word :=
  code.setWidth 32

/-- Encode `lui`; the immediate is the upper twenty bits, not yet shifted. -/
def lui (dest : Byte) (imm : Word) : Word :=
  assembleUJ (imm &&& 0xfffff) (widen dest) (widen Major.lui.code)

/-- Encode `auipc`; the immediate is the upper twenty bits, not yet shifted. -/
def auipc (dest : Byte) (imm : Word) : Word :=
  assembleUJ (imm &&& 0xfffff) (widen dest) (widen Major.auipc.code)

/-- Encode `jal`. -/
def jal (dest : Byte) (offset : Word) : Word :=
  assembleUJ (fieldJ offset) (widen dest) (widen Major.jal.code)

/-- Encode `jalr`. -/
def jalr (dest base : Byte) (offset : Word) : Word :=
  assembleI offset (widen base) 0 (widen dest) (widen Major.jalr.code)

/-- Encode a conditional branch. -/
def branch (cond : Branch) (src1 src2 : Byte) (offset : Word) : Word :=
  let (high, low) := splitB offset
  assembleRS high (widen src2) (widen src1) (widen cond.funct3) low (widen Major.branch.code)

/-- Encode a load. -/
def load (kind : Load) (dest base : Byte) (offset : Word) : Word :=
  assembleI offset (widen base) (widen kind.funct3) (widen dest) (widen Major.load.code)

/-- Encode a store. -/
def store (width : Width) (src base : Byte) (offset : Word) : Word :=
  let (high, low) := splitS offset
  assembleRS high (widen src) (widen base) (widen (storeFunct3 width)) low
    (widen Major.store.code)

/-- Encode an operation with an immediate. -/
def opImm (op : OpImm) (dest src : Byte) (imm : Word) : Word :=
  assembleI imm (widen src) (widen op.funct3) (widen dest) (widen Major.opImm.code)

/-- Encode a shift by a constant. -/
def shiftImm (op : ShiftImm) (dest src : Byte) (amount : Word) : Word :=
  assembleI (fieldShift amount (widen op.upper)) (widen src) (widen op.funct3) (widen dest)
    (widen Major.opImm.code)

/-- Encode an operation of two registers. -/
def op (op : Op) (dest src1 src2 : Byte) : Word :=
  assembleRS (widen op.funct7) (widen src2) (widen src1) (widen op.funct3) (widen dest)
    (widen Major.op.code)

/-- Encode an atomic instruction; the two ordering bits are left clear. -/
def atomic (funct5 : BitVec 5) (dest base src : Byte) : Word :=
  assembleRS (widen funct5 <<< 2) (widen src) (widen base) (widen atomicFunct3) (widen dest)
    (widen Major.amo.code)

/-- Encode a load-reserved. -/
def loadReserved (dest base : Byte) : Word :=
  atomic loadReservedFunct5 dest base 0

/-- Encode a store-conditional. -/
def storeConditional (dest base src : Byte) : Word :=
  atomic storeConditionalFunct5 dest base src

/-- Encode an atomic memory operation. -/
def amo (op : Amo) (dest base src : Byte) : Word :=
  atomic op.funct5 dest base src

/-- Encode a system instruction that is named by its funct12. -/
def system (funct12 : BitVec 12) : Word :=
  assembleI (widen funct12) 0 0 0 (widen Major.system.code)

/-- Encode a control-register instruction with a register source. -/
def csr (op : CsrOp) (dest src : Byte) (number : BitVec 16) : Word :=
  assembleI (widen number) (widen src) (widen op.funct3) (widen dest) (widen Major.system.code)

/-- Encode a control-register instruction with a constant source, cut to five bits. -/
def csrImm (op : CsrOp) (dest value : Byte) (number : BitVec 16) : Word :=
  assembleI (widen number) (widen value &&& 0x1f) (widen op.immFunct3) (widen dest)
    (widen Major.system.code)

end Encode

/-- The word of an instruction. What is no instruction is its own word. -/
def Instr.encode : Instr → Word
  | lui dest imm => Encode.lui (dest.setWidth 8) (imm >>> 12)
  | auipc dest imm => Encode.auipc (dest.setWidth 8) (imm >>> 12)
  | jal dest offset => Encode.jal (dest.setWidth 8) offset
  | jalr dest base offset => Encode.jalr (dest.setWidth 8) (base.setWidth 8) offset
  | branch cond src1 src2 offset =>
      Encode.branch cond (src1.setWidth 8) (src2.setWidth 8) offset
  | load kind dest base offset => Encode.load kind (dest.setWidth 8) (base.setWidth 8) offset
  | store width src base offset => Encode.store width (src.setWidth 8) (base.setWidth 8) offset
  | opImm f dest src imm => Encode.opImm f (dest.setWidth 8) (src.setWidth 8) imm
  | shiftImm f dest src amount =>
      Encode.shiftImm f (dest.setWidth 8) (src.setWidth 8) (amount.setWidth 32)
  | op f dest src1 src2 =>
      Encode.op f (dest.setWidth 8) (src1.setWidth 8) (src2.setWidth 8)
  | loadReserved dest base => Encode.loadReserved (dest.setWidth 8) (base.setWidth 8)
  | storeConditional dest base src =>
      Encode.storeConditional (dest.setWidth 8) (base.setWidth 8) (src.setWidth 8)
  | amo f dest base src =>
      Encode.amo f (dest.setWidth 8) (base.setWidth 8) (src.setWidth 8)
  | scall => Encode.system scallFunct12
  | sbreak => Encode.system sbreakFunct12
  | eret => Encode.system eretFunct12
  | csr f dest src number =>
      Encode.csr f (dest.setWidth 8) (src.setWidth 8) (number.setWidth 16)
  | csrImm f dest value number =>
      Encode.csrImm f (dest.setWidth 8) (value.setWidth 8) (number.setWidth 16)
  | illegal word => word

end Rv32Soc.Isa
