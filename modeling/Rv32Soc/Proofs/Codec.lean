import Rv32Soc.Isa.Encode
import Rv32Soc.Proofs.Codes
import Rv32Soc.Proofs.Formats

/-!
# Decoding undoes encoding

What an encoder makes of operands in range decodes to the same mnemonic and
the same operands, but for the part of an immediate that does not fit its
field.

Each encoder's word is first written as a row of fields. From the row the
decoder reads the codes, which the tables turn back into the member, and the
operands.
-/

namespace Rv32Soc.Isa

/-! ## Encoders give rows -/

namespace Encode

theorem widen_register (r : Reg) : widen (r.setWidth 8) = r.setWidth 32 :=
  BitVec.setWidth_setWidth (by decide)

theorem widen_number (number : BitVec 12) :
    widen (number.setWidth 16) = number.setWidth 32 :=
  BitVec.setWidth_setWidth (by decide)

section Rows

variable (dest base src src1 src2 : Reg) (offset imm : Word) (amount : BitVec 5)
  (number : BitVec 12)

theorem lui_row :
    lui (dest.setWidth 8) imm = joinUpper (imm.setWidth 20) dest Major.lui.code := by
  rw [lui, widen_register, ← assembleUJ_joinUpper, ← and_allOnes_setWidth]
  rfl

theorem auipc_row :
    auipc (dest.setWidth 8) imm = joinUpper (imm.setWidth 20) dest Major.auipc.code := by
  rw [auipc, widen_register, ← assembleUJ_joinUpper, ← and_allOnes_setWidth]
  rfl

theorem jal_row :
    jal (dest.setWidth 8) offset
      = joinUpper (offset.extractLsb' 20 1 ++ offset.extractLsb' 1 10 ++ offset.extractLsb' 11 1
          ++ offset.extractLsb' 12 8) dest Major.jal.code := by
  rw [jal, widen_register, fieldJ_eq, assembleUJ_joinUpper]

theorem jalr_row :
    jalr (dest.setWidth 8) (base.setWidth 8) offset
      = joinFields (offset.extractLsb' 5 7) (offset.extractLsb' 0 5) base 0 dest
          Major.jalr.code := by
  rw [jalr, widen_register, widen_register, ← assembleI_joinFields]
  rfl

theorem branch_row (cond : Branch) :
    branch cond (src1.setWidth 8) (src2.setWidth 8) offset
      = joinFields (offset.extractLsb' 12 1 ++ offset.extractLsb' 5 6) src2 src1 cond.funct3
          (offset.extractLsb' 1 4 ++ offset.extractLsb' 11 1) Major.branch.code := by
  rw [branch, splitB_eq, widen_register, widen_register]
  exact assembleRS_joinFields ..

theorem load_row (kind : Load) :
    load kind (dest.setWidth 8) (base.setWidth 8) offset
      = joinFields (offset.extractLsb' 5 7) (offset.extractLsb' 0 5) base kind.funct3 dest
          Major.load.code := by
  rw [load, widen_register, widen_register]
  exact assembleI_joinFields ..

theorem store_row (width : Width) :
    store width (src.setWidth 8) (base.setWidth 8) offset
      = joinFields (offset.extractLsb' 5 7) src base (storeFunct3 width)
          (offset.extractLsb' 0 5) Major.store.code := by
  rw [store, splitS_eq, widen_register, widen_register]
  exact assembleRS_joinFields ..

theorem opImm_row (f : OpImm) :
    opImm f (dest.setWidth 8) (src.setWidth 8) imm
      = joinFields (imm.extractLsb' 5 7) (imm.extractLsb' 0 5) src f.funct3 dest
          Major.opImm.code := by
  rw [opImm, widen_register, widen_register]
  exact assembleI_joinFields ..

theorem shiftImm_row (f : ShiftImm) :
    shiftImm f (dest.setWidth 8) (src.setWidth 8) (amount.setWidth 32)
      = joinFields f.upper amount src f.funct3 dest Major.opImm.code := by
  rw [shiftImm, widen_register, widen_register, fieldShift_eq,
    BitVec.extractLsb'_setWidth_of_le (by decide), BitVec.extractLsb'_eq_self]
  exact assembleI_append ..

theorem op_row (f : Op) :
    op f (dest.setWidth 8) (src1.setWidth 8) (src2.setWidth 8)
      = joinFields f.funct7 src2 src1 f.funct3 dest Major.op.code := by
  rw [op, widen_register, widen_register, widen_register]
  exact assembleRS_joinFields ..

theorem atomic_row (funct5 : BitVec 5) :
    atomic funct5 (dest.setWidth 8) (base.setWidth 8) (src.setWidth 8)
      = joinFields (funct5 ++ 0#2) src base atomicFunct3 dest Major.amo.code := by
  have hcode : widen funct5 <<< 2 = (funct5 ++ 0#2).setWidth 32 := by
    rw [BitVec.setWidth_append_eq_shiftLeft_setWidth_or]
    simp
  rw [atomic, widen_register, widen_register, widen_register, hcode]
  exact assembleRS_joinFields ..

theorem loadReserved_row :
    loadReserved (dest.setWidth 8) (base.setWidth 8)
      = joinFields (loadReservedFunct5 ++ 0#2) 0 base atomicFunct3 dest Major.amo.code := by
  have hsource : (0 : Byte) = (0 : Reg).setWidth 8 := rfl
  rw [loadReserved, hsource, atomic_row]

theorem storeConditional_row :
    storeConditional (dest.setWidth 8) (base.setWidth 8) (src.setWidth 8)
      = joinFields (storeConditionalFunct5 ++ 0#2) src base atomicFunct3 dest
          Major.amo.code := by
  rw [storeConditional, atomic_row]

theorem amo_row (f : Amo) :
    amo f (dest.setWidth 8) (base.setWidth 8) (src.setWidth 8)
      = joinFields (f.funct5 ++ 0#2) src base atomicFunct3 dest Major.amo.code := by
  rw [amo, atomic_row]

theorem system_row :
    system number
      = joinFields (number.extractLsb' 5 7) (number.extractLsb' 0 5) 0 0 0
          Major.system.code :=
  assembleI_number 0 0 0 Major.system.code number

theorem csr_row (f : CsrOp) :
    csr f (dest.setWidth 8) (src.setWidth 8) (number.setWidth 16)
      = joinFields (number.extractLsb' 5 7) (number.extractLsb' 0 5) src f.funct3 dest
          Major.system.code := by
  rw [csr, widen_register, widen_register, widen_number]
  exact assembleI_number ..

theorem csrImm_row (f : CsrOp) :
    csrImm f (dest.setWidth 8) (amount.setWidth 8) (number.setWidth 16)
      = joinFields (number.extractLsb' 5 7) (number.extractLsb' 0 5) amount f.immFunct3 dest
          Major.system.code := by
  have hcut : amount.setWidth 32 &&& 0x1f = amount.setWidth 32 := by
    refine (and_allOnes_setWidth 5 _).trans ?_
    simp
  rw [csrImm, widen_register, widen_register, widen_number, hcut]
  exact assembleI_number ..

end Rows

end Encode

/-! ## Atomic words

Of funct7 an atomic word has five bits; the other two are never looked at. -/

section Atomic

variable {word : Word}

theorem decodeAtomic_loadReserved (hminor : funct3 word = atomicFunct3)
    (hcode : (funct7 word).extractLsb' 2 5 = loadReservedFunct5) :
    decodeAtomic word = .loadReserved (rd word) (rs1 word) := by
  simp only [decodeAtomic, RType.ofWord, hminor, hcode]
  rfl

theorem decodeAtomic_storeConditional (hminor : funct3 word = atomicFunct3)
    (hcode : (funct7 word).extractLsb' 2 5 = storeConditionalFunct5) :
    decodeAtomic word = .storeConditional (rd word) (rs1 word) (rs2 word) := by
  simp only [decodeAtomic, RType.ofWord, hminor, hcode]
  rfl

theorem decodeAtomic_amo {f : Amo} (hminor : funct3 word = atomicFunct3)
    (hcode : (funct7 word).extractLsb' 2 5 = f.funct5) :
    decodeAtomic word = .amo f (rd word) (rs1 word) (rs2 word) := by
  have hreserved : f.funct5 ≠ 0b00010 := f.funct5_ne_loadReserved
  have hconditional : f.funct5 ≠ 0b00011 := f.funct5_ne_storeConditional
  simp only [decodeAtomic, RType.ofWord, hminor, hcode]
  rw [if_pos (show atomicFunct3 = 0b010 from rfl), if_neg hreserved, if_neg hconditional,
    Amo.ofFunct5?_eq_some.mpr rfl]

end Atomic

/-! ## What an encoder gives decodes to what it was given -/

section Decode

variable (dest base src src1 src2 : Reg) (offset imm : Word) (amount : BitVec 5)
  (number : BitVec 12)

theorem decode_lui :
    Instr.decode (Encode.lui (dest.setWidth 8) imm)
      = .lui dest (imm <<< 12) := by
  rw [Encode.lui_row, decode_of_opcode (opcode_joinUpper ..), Major.decode, rd_joinUpper,
    immU_joinUpper, shiftLeft_cut]

theorem decode_auipc :
    Instr.decode (Encode.auipc (dest.setWidth 8) imm)
      = .auipc dest (imm <<< 12) := by
  rw [Encode.auipc_row, decode_of_opcode (opcode_joinUpper ..), Major.decode, rd_joinUpper,
    immU_joinUpper, shiftLeft_cut]

theorem decode_jal :
    Instr.decode (Encode.jal (dest.setWidth 8) offset)
      = .jal dest (signExtendFrom offset 20 &&& ~~~1#32) := by
  rw [Encode.jal_row, decode_of_opcode (opcode_joinUpper ..), Major.decode, rd_joinUpper,
    immJ_assembled]

theorem decode_jalr :
    Instr.decode (Encode.jalr (dest.setWidth 8) (base.setWidth 8) offset)
      = .jalr dest base (signExtendFrom offset 11) := by
  rw [Encode.jalr_row, decode_of_opcode (opcode_joinFields ..), Major.decode,
    if_pos (funct3_joinFields ..), rd_joinFields, rs1_joinFields, immI_assembled]

theorem decode_branch (cond : Branch) :
    Instr.decode (Encode.branch cond (src1.setWidth 8) (src2.setWidth 8) offset)
      = .branch cond src1 src2 (signExtendFrom offset 12 &&& ~~~1#32) := by
  rw [Encode.branch_row, decode_of_opcode (opcode_joinFields ..), Major.decode]
  simp only [decodeBranch, BType.ofWord, funct3_joinFields, Branch.ofFunct3?_eq_some.mpr rfl,
    rs1_joinFields, rs2_joinFields, immB_assembled]

theorem decode_load (kind : Load) :
    Instr.decode (Encode.load kind (dest.setWidth 8) (base.setWidth 8) offset)
      = .load kind dest base (signExtendFrom offset 11) := by
  rw [Encode.load_row, decode_of_opcode (opcode_joinFields ..), Major.decode]
  simp only [decodeLoad, IType.ofWord, funct3_joinFields, Load.ofFunct3?_eq_some.mpr rfl,
    rd_joinFields, rs1_joinFields, immI_assembled]

theorem decode_store (width : Width) :
    Instr.decode (Encode.store width (src.setWidth 8) (base.setWidth 8) offset)
      = .store width src base (signExtendFrom offset 11) := by
  rw [Encode.store_row, decode_of_opcode (opcode_joinFields ..), Major.decode]
  simp only [decodeStore, SType.ofWord, funct3_joinFields, storeWidth?_eq_some.mpr rfl,
    rs2_joinFields, rs1_joinFields, immS_assembled]

theorem decode_opImm (f : OpImm) :
    Instr.decode (Encode.opImm f (dest.setWidth 8) (src.setWidth 8) imm)
      = .opImm f dest src (signExtendFrom imm 11) := by
  rw [Encode.opImm_row, decode_of_opcode (opcode_joinFields ..), Major.decode]
  simp only [decodeOpImm, IType.ofWord, funct3_joinFields, OpImm.ofFunct3?_eq_some.mpr rfl,
    rd_joinFields, rs1_joinFields, immI_assembled]

theorem decode_shiftImm (f : ShiftImm) :
    Instr.decode (Encode.shiftImm f (dest.setWidth 8) (src.setWidth 8) (amount.setWidth 32))
      = .shiftImm f dest src amount := by
  rw [Encode.shiftImm_row, decode_of_opcode (opcode_joinFields ..), Major.decode]
  simp only [decodeOpImm, IType.ofWord, funct3_joinFields, f.ofFunct3?_funct3,
    funct7_joinFields, ShiftImm.ofCodes?_eq_some.mpr ⟨rfl, rfl⟩, rd_joinFields,
    rs1_joinFields, rs2_joinFields]

theorem decode_op (f : Op) :
    Instr.decode (Encode.op f (dest.setWidth 8) (src1.setWidth 8) (src2.setWidth 8))
      = .op f dest src1 src2 := by
  rw [Encode.op_row, decode_of_opcode (opcode_joinFields ..), Major.decode]
  simp only [decodeOp, RType.ofWord, funct3_joinFields, funct7_joinFields,
    Op.ofCodes?_eq_some.mpr ⟨rfl, rfl⟩, rd_joinFields, rs1_joinFields, rs2_joinFields]

theorem decode_loadReserved :
    Instr.decode (Encode.loadReserved (dest.setWidth 8) (base.setWidth 8))
      = .loadReserved dest base := by
  rw [Encode.loadReserved_row, decode_of_opcode (opcode_joinFields ..), Major.decode,
    decodeAtomic_loadReserved (funct3_joinFields ..) (funct5_joinFields ..), rd_joinFields,
    rs1_joinFields]

theorem decode_storeConditional :
    Instr.decode (Encode.storeConditional (dest.setWidth 8) (base.setWidth 8)
        (src.setWidth 8))
      = .storeConditional dest base src := by
  rw [Encode.storeConditional_row, decode_of_opcode (opcode_joinFields ..), Major.decode,
    decodeAtomic_storeConditional (funct3_joinFields ..) (funct5_joinFields ..),
    rd_joinFields, rs1_joinFields, rs2_joinFields]

theorem decode_amo (f : Amo) :
    Instr.decode (Encode.amo f (dest.setWidth 8) (base.setWidth 8) (src.setWidth 8))
      = .amo f dest base src := by
  rw [Encode.amo_row, decode_of_opcode (opcode_joinFields ..), Major.decode,
    decodeAtomic_amo (funct3_joinFields ..) (funct5_joinFields ..), rd_joinFields,
    rs1_joinFields, rs2_joinFields]

theorem decode_scall : Instr.decode (Encode.system scallFunct12) = .scall := by decide

theorem decode_sbreak : Instr.decode (Encode.system sbreakFunct12) = .sbreak := by decide

theorem decode_eret : Instr.decode (Encode.system eretFunct12) = .eret := by decide

theorem decode_csr (f : CsrOp) :
    Instr.decode (Encode.csr f (dest.setWidth 8) (src.setWidth 8) (number.setWidth 16))
      = .csr f dest src number := by
  rw [Encode.csr_row, decode_of_opcode (opcode_joinFields ..), Major.decode]
  simp only [decodeSystem, IType.ofWord, funct3_joinFields, rd_joinFields, rs1_joinFields,
    funct12_joinFields, number_pieces]
  cases f <;> rfl

theorem decode_csrImm (f : CsrOp) :
    Instr.decode (Encode.csrImm f (dest.setWidth 8) (amount.setWidth 8) (number.setWidth 16))
      = .csrImm f dest amount number := by
  rw [Encode.csrImm_row, decode_of_opcode (opcode_joinFields ..), Major.decode]
  simp only [decodeSystem, IType.ofWord, funct3_joinFields, rd_joinFields, rs1_joinFields,
    funct12_joinFields, number_pieces]
  cases f <;> rfl

end Decode

end Rv32Soc.Isa
