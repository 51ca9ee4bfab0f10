import Rv32Soc.Isa.Encode
import Rv32Soc.Isa.Mnemonic

/-!
# A line assembler

One instruction at a time, from a mnemonic and its operands as numbers. The
operands come destination first and then, for what reaches memory, the base
register before the source; a store has its source first. Numbers are cut to
the size of an encoder's argument: eight bits for a register, sixteen for a
control register, thirty-two for the rest.
-/

namespace Rv32Soc.Isa

/-- An operand as the number of a register. -/
def registerOperand (n : Int) : Byte :=
  BitVec.ofInt 8 n

/-- An operand as an immediate. -/
def wordOperand (n : Int) : Word :=
  BitVec.ofInt 32 n

/-- An operand as the number of a control register. -/
def csrOperand (n : Int) : BitVec 16 :=
  BitVec.ofInt 16 n

/-- The word of a mnemonic with operands, if their number is right. -/
def Mnemonic.assemble? : Mnemonic → List Int → Option Word
  | lui, [dest, imm] => some (Encode.lui (registerOperand dest) (wordOperand imm))
  | auipc, [dest, imm] => some (Encode.auipc (registerOperand dest) (wordOperand imm))
  | jal, [dest, offset] => some (Encode.jal (registerOperand dest) (wordOperand offset))
  | jalr, [dest, base, offset] =>
      some (Encode.jalr (registerOperand dest) (registerOperand base) (wordOperand offset))
  | branch cond, [src1, src2, offset] =>
      some (Encode.branch cond (registerOperand src1) (registerOperand src2)
        (wordOperand offset))
  | load kind, [dest, base, offset] =>
      some (Encode.load kind (registerOperand dest) (registerOperand base) (wordOperand offset))
  | store width, [src, base, offset] =>
      some (Encode.store width (registerOperand src) (registerOperand base) (wordOperand offset))
  | opImm f, [dest, src, imm] =>
      some (Encode.opImm f (registerOperand dest) (registerOperand src) (wordOperand imm))
  | shiftImm f, [dest, src, amount] =>
      some (Encode.shiftImm f (registerOperand dest) (registerOperand src) (wordOperand amount))
  | op f, [dest, src1, src2] =>
      some (Encode.op f (registerOperand dest) (registerOperand src1) (registerOperand src2))
  | loadReserved, [dest, base] =>
      some (Encode.loadReserved (registerOperand dest) (registerOperand base))
  | storeConditional, [dest, base, src] =>
      some (Encode.storeConditional (registerOperand dest) (registerOperand base)
        (registerOperand src))
  | amo f, [dest, base, src] =>
      some (Encode.amo f (registerOperand dest) (registerOperand base) (registerOperand src))
  | scall, [] => some (Encode.system scallFunct12)
  | sbreak, [] => some (Encode.system sbreakFunct12)
  | eret, [] => some (Encode.system eretFunct12)
  | csr f, [dest, src, number] =>
      some (Encode.csr f (registerOperand dest) (registerOperand src) (csrOperand number))
  | csrImm f, [dest, value, number] =>
      some (Encode.csrImm f (registerOperand dest) (registerOperand value) (csrOperand number))
  | _, _ => none

end Rv32Soc.Isa
