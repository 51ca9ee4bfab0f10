import Rv32Soc.Word

/-!
# Instruction formats

An instruction word is divided in one of six ways, named R, I, S, B, U and J.
Here is the geometry alone: which bits make up a field, how the scattered
pieces of an immediate come together, and how a word is assembled again.
Nothing here knows what an instruction does, and every division applies to
every word, whatever its opcode.

Reading yields immediates as operands: sign-extended to a word and already in
place, so that B and J offsets have bit 0 clear and U immediates have their
low twelve bits clear. Writing takes words of any size and shifts them into
place without a check; what is shifted out of the word is lost, and what does
not fit its field falls into the next one.
-/

namespace Rv32Soc.Isa

/-- The number of a register. -/
abbrev Reg := BitVec 5

/-! ## Single fields -/

/-- Bits 6 to 0, the major opcode. -/
def opcode (word : Word) : BitVec 7 :=
  word.extractLsb' 0 7

/-- Bits 11 to 7, the destination register. -/
def rd (word : Word) : Reg :=
  word.extractLsb' 7 5

/-- Bits 14 to 12, the minor opcode. -/
def funct3 (word : Word) : BitVec 3 :=
  word.extractLsb' 12 3

/-- Bits 19 to 15, the first source register. -/
def rs1 (word : Word) : Reg :=
  word.extractLsb' 15 5

/-- Bits 24 to 20, the second source register. -/
def rs2 (word : Word) : Reg :=
  word.extractLsb' 20 5

/-- Bits 31 to 25, the second minor opcode. -/
def funct7 (word : Word) : BitVec 7 :=
  word.extractLsb' 25 7

/-- Bits 31 to 20 without a sign: a CSR number, or the function of a system instruction. -/
def funct12 (word : Word) : BitVec 12 :=
  word.extractLsb' 20 12

/-! ## Immediates -/

/-- The immediate of an I word: bits 31 to 20. -/
def immI (word : Word) : Word :=
  (word.extractLsb' 20 12).signExtend 32

/-- The immediate of an S word: bits 31 to 25 above bits 11 to 7. -/
def immS (word : Word) : Word :=
  (word.extractLsb' 25 7 ++ word.extractLsb' 7 5).signExtend 32

/-- The offset of a B word: bits 31, 7, 30 to 25 and 11 to 8, and a zero. -/
def immB (word : Word) : Word :=
  (word.extractLsb' 31 1 ++ word.extractLsb' 7 1 ++ word.extractLsb' 25 6
    ++ word.extractLsb' 8 4 ++ 0#1).signExtend 32

/-- The immediate of a U word: bits 31 to 12 in place, and twelve zeros. -/
def immU (word : Word) : Word :=
  word &&& 0xfffff000

/-- The offset of a J word: bits 31, 19 to 12, 20 and 30 to 21, and a zero. -/
def immJ (word : Word) : Word :=
  (word.extractLsb' 31 1 ++ word.extractLsb' 12 8 ++ word.extractLsb' 20 1
    ++ word.extractLsb' 21 10 ++ 0#1).signExtend 32

/-! ## Reading a word -/

/-- The fields of a register-register word. -/
structure RType where
  funct7 : BitVec 7
  rs2 : Reg
  rs1 : Reg
  funct3 : BitVec 3
  rd : Reg
  opcode : BitVec 7
  deriving DecidableEq

/-- The fields of a register-immediate word. -/
structure IType where
  imm : Word
  rs1 : Reg
  funct3 : BitVec 3
  rd : Reg
  opcode : BitVec 7
  deriving DecidableEq

/-- The fields of a store word. -/
structure SType where
  imm : Word
  rs2 : Reg
  rs1 : Reg
  funct3 : BitVec 3
  opcode : BitVec 7
  deriving DecidableEq

/-- The fields of a branch word. -/
structure BType where
  imm : Word
  rs2 : Reg
  rs1 : Reg
  funct3 : BitVec 3
  opcode : BitVec 7
  deriving DecidableEq

/-- The fields of an upper-immediate word. -/
structure UType where
  imm : Word
  rd : Reg
  opcode : BitVec 7
  deriving DecidableEq

/-- The fields of a jump word. -/
structure JType where
  imm : Word
  rd : Reg
  opcode : BitVec 7
  deriving DecidableEq

/-- Divide a word as R. -/
def RType.ofWord (word : Word) : RType :=
  { funct7 := Isa.funct7 word, rs2 := Isa.rs2 word, rs1 := Isa.rs1 word,
    funct3 := Isa.funct3 word, rd := Isa.rd word, opcode := Isa.opcode word }

/-- Divide a word as I. -/
def IType.ofWord (word : Word) : IType :=
  { imm := immI word, rs1 := Isa.rs1 word, funct3 := Isa.funct3 word, rd := Isa.rd word,
    opcode := Isa.opcode word }

/-- Divide a word as S. -/
def SType.ofWord (word : Word) : SType :=
  { imm := immS word, rs2 := Isa.rs2 word, rs1 := Isa.rs1 word, funct3 := Isa.funct3 word,
    opcode := Isa.opcode word }

/-- Divide a word as B. -/
def BType.ofWord (word : Word) : BType :=
  { imm := immB word, rs2 := Isa.rs2 word, rs1 := Isa.rs1 word, funct3 := Isa.funct3 word,
    opcode := Isa.opcode word }

/-- Divide a word as U. -/
def UType.ofWord (word : Word) : UType :=
  { imm := immU word, rd := Isa.rd word, opcode := Isa.opcode word }

/-- Divide a word as J. -/
def JType.ofWord (word : Word) : JType :=
  { imm := immJ word, rd := Isa.rd word, opcode := Isa.opcode word }

/-! ## Assembling a word -/

/-- Assemble an R or an S word: `high` is funct7 or the upper part of the immediate, `low`
is the destination or the lower part. -/
def assembleRS (high rs2 rs1 funct3 low opcode : Word) : Word :=
  high <<< 25 ||| rs2 <<< 20 ||| rs1 <<< 15 ||| funct3 <<< 12 ||| low <<< 7 ||| opcode

/-- Assemble an I word. Only the immediate is cut to its twelve bits. -/
def assembleI (imm rs1 funct3 rd opcode : Word) : Word :=
  (imm &&& 0xfff) <<< 20 ||| rs1 <<< 15 ||| funct3 <<< 12 ||| rd <<< 7 ||| opcode

/-- Assemble a U or a J word from the twenty bits of its immediate field. -/
def assembleUJ (imm rd opcode : Word) : Word :=
  imm <<< 12 ||| rd <<< 7 ||| opcode

/-- The two pieces of a store offset, the upper one first. -/
def splitS (offset : Word) : Word × Word :=
  (extractField offset 11 5, extractField offset 4 0)

/-- The two pieces of a branch offset as B words hold them, the upper one first. -/
def splitB (offset : Word) : Word × Word :=
  (extractField offset 12 12 <<< 6 ||| extractField offset 10 5,
    extractField offset 4 1 <<< 1 ||| extractField offset 11 11)

/-- The immediate field of a J word, for a jump by `offset`. -/
def fieldJ (offset : Word) : Word :=
  extractField offset 20 20 <<< 19 ||| extractField offset 10 1 <<< 9
    ||| extractField offset 11 11 <<< 8 ||| extractField offset 19 12

/-- The immediate field of a shift by a constant: `upper` tells the kinds of shift apart, and
only five bits of the amount are kept. -/
def fieldShift (amount upper : Word) : Word :=
  upper <<< 5 ||| extractField amount 4 0

end Rv32Soc.Isa
