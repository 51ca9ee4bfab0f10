import Rv32Soc.Isa.Instr

/-!
# Operation codes

The numbers that tell instructions apart: the major opcodes, and for each
family the minor code of each member. These are the codes as written into a
word; the decoder has its own tables, from code to member, and that the two
agree is something to prove and not something built in.
-/

namespace Rv32Soc.Isa

/-! ## Major opcodes -/

/-- The major opcodes of the families, all with the low two bits set. -/
inductive Major where
  | load | opImm | auipc | store | amo | op | lui | branch | jalr | jal | system
  deriving DecidableEq

/-- The seven bits of a major opcode. -/
def Major.code : Major → BitVec 7
  | load => 0b0000011
  | opImm => 0b0010011
  | auipc => 0b0010111
  | store => 0b0100011
  | amo => 0b0101111
  | op => 0b0110011
  | lui => 0b0110111
  | branch => 0b1100011
  | jalr => 0b1100111
  | jal => 0b1101111
  | system => 0b1110011

/-! ## Minor codes -/

/-- The funct3 of a branch. -/
def Branch.funct3 : Branch → BitVec 3
  | beq => 0b000
  | bne => 0b001
  | blt => 0b100
  | bge => 0b101
  | bltu => 0b110
  | bgeu => 0b111

/-- The funct3 of a load. -/
def Load.funct3 : Load → BitVec 3
  | lb => 0b000
  | lh => 0b001
  | lw => 0b010
  | lbu => 0b100
  | lhu => 0b101

/-- The funct3 of the store of a width. -/
def storeFunct3 : Width → BitVec 3
  | .byte => 0b000
  | .halfword => 0b001
  | .word => 0b010

/-- The funct3 of an operation with an immediate. -/
def OpImm.funct3 : OpImm → BitVec 3
  | addi => 0b000
  | slti => 0b010
  | sltiu => 0b011
  | xori => 0b100
  | ori => 0b110
  | andi => 0b111

/-- The funct3 of a shift by a constant. -/
def ShiftImm.funct3 : ShiftImm → BitVec 3
  | slli => 0b001
  | srli | srai => 0b101

/-- The upper seven bits of a shift's immediate field. -/
def ShiftImm.upper : ShiftImm → BitVec 7
  | slli | srli => 0b0000000
  | srai => 0b0100000

/-- The funct3 of an operation of two registers. -/
def Op.funct3 : Op → BitVec 3
  | add | sub | mul => 0b000
  | sll | mulh => 0b001
  | slt | mulhsu => 0b010
  | sltu | mulhu => 0b011
  | xor | div => 0b100
  | srl | sra | divu => 0b101
  | or | rem => 0b110
  | and | remu => 0b111

/-- The funct7 of an operation of two registers. -/
def Op.funct7 : Op → BitVec 7
  | add | sll | slt | sltu | xor | srl | or | and => 0b0000000
  | sub | sra => 0b0100000
  | mul | mulh | mulhsu | mulhu | div | divu | rem | remu => 0b0000001

/-- The funct3 of every atomic instruction. -/
def atomicFunct3 : BitVec 3 := 0b010

/-- The upper five bits of funct7 in a load-reserved. -/
def loadReservedFunct5 : BitVec 5 := 0b00010

/-- The upper five bits of funct7 in a store-conditional. -/
def storeConditionalFunct5 : BitVec 5 := 0b00011

/-- The upper five bits of funct7 in an atomic memory operation. -/
def Amo.funct5 : Amo → BitVec 5
  | swap => 0b00001
  | add => 0b00000
  | xor => 0b00100
  | and => 0b01100
  | or => 0b01000
  | min => 0b10000
  | max => 0b10100
  | minu => 0b11000
  | maxu => 0b11100

/-- The funct3 of a control-register instruction with a register source. -/
def CsrOp.funct3 : CsrOp → BitVec 3
  | write => 0b001
  | set => 0b010
  | clear => 0b011

/-- The funct3 of a control-register instruction with a constant source. -/
def CsrOp.immFunct3 : CsrOp → BitVec 3
  | write => 0b101
  | set => 0b110
  | clear => 0b111

/-- The funct12 of an environment call. -/
def scallFunct12 : BitVec 12 := 0x000

/-- The funct12 of a breakpoint. -/
def sbreakFunct12 : BitVec 12 := 0x001

/-- The funct12 of a return from a trap. -/
def eretFunct12 : BitVec 12 := 0x100

end Rv32Soc.Isa
