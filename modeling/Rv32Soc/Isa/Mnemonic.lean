import Rv32Soc.Isa.Instr

/-!
# Mnemonics

A mnemonic is what remains of an instruction when its operands are left out.
This module has their spellings, the list of all of them, and the way back
from a spelling. The atomic instructions carry the width suffix `.w`.
-/

namespace Rv32Soc.Isa

/-- The names of the instructions. -/
inductive Mnemonic where
  | lui | auipc | jal | jalr
  | branch (cond : Branch)
  | load (kind : Load)
  | store (width : Width)
  | opImm (op : OpImm)
  | shiftImm (op : ShiftImm)
  | op (op : Op)
  | loadReserved | storeConditional
  | amo (op : Amo)
  | scall | sbreak | eret
  | csr (op : CsrOp)
  | csrImm (op : CsrOp)
  deriving DecidableEq

/-! ## Spellings -/

/-- How a branch is spelled. -/
def Branch.name : Branch → String
  | beq => "beq"
  | bne => "bne"
  | blt => "blt"
  | bge => "bge"
  | bltu => "bltu"
  | bgeu => "bgeu"

/-- How a load is spelled. -/
def Load.name : Load → String
  | lb => "lb"
  | lh => "lh"
  | lw => "lw"
  | lbu => "lbu"
  | lhu => "lhu"

/-- How the store of a width is spelled. -/
def storeName : Width → String
  | .byte => "sb"
  | .halfword => "sh"
  | .word => "sw"

/-- How an operation with an immediate is spelled. -/
def OpImm.name : OpImm → String
  | addi => "addi"
  | slti => "slti"
  | sltiu => "sltiu"
  | xori => "xori"
  | ori => "ori"
  | andi => "andi"

/-- How a shift by a constant is spelled. -/
def ShiftImm.name : ShiftImm → String
  | slli => "slli"
  | srli => "srli"
  | srai => "srai"

/-- How an operation of two registers is spelled. -/
def Op.name : Op → String
  | .add => "add"
  | .sub => "sub"
  | .sll => "sll"
  | .slt => "slt"
  | .sltu => "sltu"
  | .xor => "xor"
  | .srl => "srl"
  | .sra => "sra"
  | .or => "or"
  | .and => "and"
  | .mul => "mul"
  | .mulh => "mulh"
  | .mulhsu => "mulhsu"
  | .mulhu => "mulhu"
  | .div => "div"
  | .divu => "divu"
  | .rem => "rem"
  | .remu => "remu"

/-- How an atomic memory operation is spelled. -/
def Amo.name : Amo → String
  | .swap => "amoswap.w"
  | .add => "amoadd.w"
  | .xor => "amoxor.w"
  | .and => "amoand.w"
  | .or => "amoor.w"
  | .min => "amomin.w"
  | .max => "amomax.w"
  | .minu => "amominu.w"
  | .maxu => "amomaxu.w"

/-- How a control-register instruction with a register source is spelled. -/
def CsrOp.name : CsrOp → String
  | .write => "csrrw"
  | .set => "csrrs"
  | .clear => "csrrc"

/-- How a control-register instruction with a constant source is spelled. -/
def CsrOp.immName : CsrOp → String
  | .write => "csrrwi"
  | .set => "csrrsi"
  | .clear => "csrrci"

/-- How a mnemonic is spelled. -/
def Mnemonic.name : Mnemonic → String
  | lui => "lui"
  | auipc => "auipc"
  | jal => "jal"
  | jalr => "jalr"
  | branch cond => cond.name
  | load kind => kind.name
  | store width => storeName width
  | opImm f => f.name
  | shiftImm f => f.name
  | op f => f.name
  | loadReserved => "lr.w"
  | storeConditional => "sc.w"
  | amo f => f.name
  | scall => "scall"
  | sbreak => "sbreak"
  | eret => "eret"
  | csr f => f.name
  | csrImm f => f.immName

/-! ## All of them -/

/-- Every mnemonic once. -/
def Mnemonic.all : List Mnemonic :=
  [lui, auipc, jal, jalr]
    ++ [Branch.beq, .bne, .blt, .bge, .bltu, .bgeu].map branch
    ++ [Load.lb, .lh, .lw, .lbu, .lhu].map load
    ++ [Width.byte, .halfword, .word].map store
    ++ [OpImm.addi, .slti, .sltiu, .xori, .ori, .andi].map opImm
    ++ [ShiftImm.slli, .srli, .srai].map shiftImm
    ++ [Op.add, .sub, .sll, .slt, .sltu, .xor, .srl, .sra, .or, .and, .mul, .mulh, .mulhsu,
        .mulhu, .div, .divu, .rem, .remu].map op
    ++ [loadReserved, storeConditional]
    ++ [Amo.swap, .add, .xor, .and, .or, .min, .max, .minu, .maxu].map amo
    ++ [scall, sbreak, eret]
    ++ [CsrOp.write, .set, .clear].map csr
    ++ [CsrOp.write, .set, .clear].map csrImm

/-- The mnemonic that is spelled so. -/
def Mnemonic.ofName? (name : String) : Option Mnemonic :=
  all.find? fun m => m.name == name

/-- The mnemonic of an instruction; a word that is no instruction has none. -/
def Instr.mnemonic? : Instr → Option Mnemonic
  | lui .. => some .lui
  | auipc .. => some .auipc
  | jal .. => some .jal
  | jalr .. => some .jalr
  | branch cond .. => some (.branch cond)
  | load kind .. => some (.load kind)
  | store width .. => some (.store width)
  | opImm f .. => some (.opImm f)
  | shiftImm f .. => some (.shiftImm f)
  | op f .. => some (.op f)
  | loadReserved .. => some .loadReserved
  | storeConditional .. => some .storeConditional
  | amo f .. => some (.amo f)
  | scall => some .scall
  | sbreak => some .sbreak
  | eret => some .eret
  | csr f .. => some (.csr f)
  | csrImm f .. => some (.csrImm f)
  | illegal _ => none

end Rv32Soc.Isa
