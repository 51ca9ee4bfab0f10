import Rv32Soc.Isa.Instr

/-!
# From words to instructions

Decoding is total: a word that is no instruction, be it compressed, reserved
or a known opcode with an unknown minor code, becomes `Instr.illegal` and is
refused when it is executed, not when it is read.

Some bits are not looked at. The two ordering bits of an atomic instruction
mean nothing to a single hart that finishes each instruction before the next;
load-reserved has no second source; and the system instructions with funct3 0
name their function in funct12 alone.
-/

namespace Rv32Soc.Isa

/-! ## Minor codes to members -/

/-- The branch that a funct3 stands for. -/
def Branch.ofFunct3? : BitVec 3 → Option Branch
  | 0b000 => some beq
  | 0b001 => some bne
  | 0b100 => some blt
  | 0b101 => some bge
  | 0b110 => some bltu
  | 0b111 => some bgeu
  | _ => none

/-- The load that a funct3 stands for. -/
def Load.ofFunct3? : BitVec 3 → Option Load
  | 0b000 => some lb
  | 0b001 => some lh
  | 0b010 => some lw
  | 0b100 => some lbu
  | 0b101 => some lhu
  | _ => none

/-- The width of the store that a funct3 stands for. -/
def storeWidth? : BitVec 3 → Option Width
  | 0b000 => some .byte
  | 0b001 => some .halfword
  | 0b010 => some .word
  | _ => none

/-- The operation with an immediate that a funct3 stands for. -/
def OpImm.ofFunct3? : BitVec 3 → Option OpImm
  | 0b000 => some addi
  | 0b010 => some slti
  | 0b011 => some sltiu
  | 0b100 => some xori
  | 0b110 => some ori
  | 0b111 => some andi
  | _ => none

/-- The shift that a funct3 and the upper part of the immediate stand for. -/
def ShiftImm.ofCodes? (funct3 : BitVec 3) (upper : BitVec 7) : Option ShiftImm :=
  if funct3 = 0b001 ∧ upper = 0b0000000 then some slli
  else if funct3 = 0b101 ∧ upper = 0b0000000 then some srli
  else if funct3 = 0b101 ∧ upper = 0b0100000 then some srai
  else none

/-- The integer operation with funct7 zero that a funct3 stands for. -/
def Op.ofBase : BitVec 3 → Op
  | 0b000 => add
  | 0b001 => sll
  | 0b010 => slt
  | 0b011 => sltu
  | 0b100 => xor
  | 0b101 => srl
  | 0b110 => or
  | _ => and

/-- The multiplication or division that a funct3 stands for. -/
def Op.ofMulDiv : BitVec 3 → Op
  | 0b000 => mul
  | 0b001 => mulh
  | 0b010 => mulhsu
  | 0b011 => mulhu
  | 0b100 => div
  | 0b101 => divu
  | 0b110 => rem
  | _ => remu

/-- The operation that a funct7 and a funct3 stand for. -/
def Op.ofCodes? (funct7 : BitVec 7) (funct3 : BitVec 3) : Option Op :=
  if funct7 = 0b0000000 then some (ofBase funct3)
  else if funct7 = 0b0000001 then some (ofMulDiv funct3)
  else if funct7 = 0b0100000 ∧ funct3 = 0b000 then some sub
  else if funct7 = 0b0100000 ∧ funct3 = 0b101 then some sra
  else none

/-- The atomic memory operation that the upper five bits of funct7 stand for. -/
def Amo.ofFunct5? : BitVec 5 → Option Amo
  | 0b00001 => some swap
  | 0b00000 => some add
  | 0b00100 => some xor
  | 0b01100 => some and
  | 0b01000 => some or
  | 0b10000 => some min
  | 0b10100 => some max
  | 0b11000 => some minu
  | 0b11100 => some maxu
  | _ => none

/-! ## Families -/

/-- Decode a word with the opcode of loads. -/
def decodeLoad (word : Word) : Instr :=
  let fields := IType.ofWord word
  match Load.ofFunct3? fields.funct3 with
  | some kind => .load kind fields.rd fields.rs1 fields.imm
  | none => .illegal word

/-- Decode a word with the opcode of stores. -/
def decodeStore (word : Word) : Instr :=
  let fields := SType.ofWord word
  match storeWidth? fields.funct3 with
  | some width => .store width fields.rs2 fields.rs1 fields.imm
  | none => .illegal word

/-- Decode a word with the opcode of immediate operations. A shift has its amount where the
second source register would be, and its kind in funct7. -/
def decodeOpImm (word : Word) : Instr :=
  let fields := IType.ofWord word
  match OpImm.ofFunct3? fields.funct3 with
  | some op => .opImm op fields.rd fields.rs1 fields.imm
  | none =>
      match ShiftImm.ofCodes? fields.funct3 (funct7 word) with
      | some op => .shiftImm op fields.rd fields.rs1 (rs2 word)
      | none => .illegal word

/-- Decode a word with the opcode of two-register operations. -/
def decodeOp (word : Word) : Instr :=
  let fields := RType.ofWord word
  match Op.ofCodes? fields.funct7 fields.funct3 with
  | some op => .op op fields.rd fields.rs1 fields.rs2
  | none => .illegal word

/-- Decode a word with the opcode of branches. -/
def decodeBranch (word : Word) : Instr :=
  let fields := BType.ofWord word
  match Branch.ofFunct3? fields.funct3 with
  | some cond => .branch cond fields.rs1 fields.rs2 fields.imm
  | none => .illegal word

/-- Decode a word with the opcode of atomic instructions. -/
def decodeAtomic (word : Word) : Instr :=
  let fields := RType.ofWord word
  let funct5 := fields.funct7.extractLsb' 2 5
  if fields.funct3 = 0b010 then
    if funct5 = 0b00010 then .loadReserved fields.rd fields.rs1
    else if funct5 = 0b00011 then .storeConditional fields.rd fields.rs1 fields.rs2
    else
      match Amo.ofFunct5? funct5 with
      | some op => .amo op fields.rd fields.rs1 fields.rs2
      | none => .illegal word
  else .illegal word

/-- Decode a word with the opcode of system instructions. -/
def decodeSystem (word : Word) : Instr :=
  let fields := IType.ofWord word
  let number := funct12 word
  match fields.funct3 with
  | 0b000 =>
      if number = 0x000 then .scall
      else if number = 0x001 then .sbreak
      else if number = 0x100 then .eret
      else .illegal word
  | 0b001 => .csr .write fields.rd fields.rs1 number
  | 0b010 => .csr .set fields.rd fields.rs1 number
  | 0b011 => .csr .clear fields.rd fields.rs1 number
  | 0b101 => .csrImm .write fields.rd fields.rs1 number
  | 0b110 => .csrImm .set fields.rd fields.rs1 number
  | 0b111 => .csrImm .clear fields.rd fields.rs1 number
  | _ => .illegal word

/-! ## Instructions -/

/-- The instruction that a word stands for. -/
def Instr.decode (word : Word) : Instr :=
  match opcode word with
  | 0b0000011 => decodeLoad word
  | 0b0010011 => decodeOpImm word
  | 0b0010111 => .auipc (rd word) (immU word)
  | 0b0100011 => decodeStore word
  | 0b0101111 => decodeAtomic word
  | 0b0110011 => decodeOp word
  | 0b0110111 => .lui (rd word) (immU word)
  | 0b1100011 => decodeBranch word
  | 0b1100111 =>
      if funct3 word = 0b000 then .jalr (rd word) (rs1 word) (immI word) else .illegal word
  | 0b1101111 => .jal (rd word) (immJ word)
  | 0b1110011 => decodeSystem word
  | _ => .illegal word

end Rv32Soc.Isa
