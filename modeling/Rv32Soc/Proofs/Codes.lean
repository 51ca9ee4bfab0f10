import Rv32Soc.Isa.Code
import Rv32Soc.Isa.Decode

/-!
# The tables of codes are inverse

The encoder has its codes as functions from a member to bits, the decoder has
tables from bits to members. Each pair is inverse: a table answers with a
member exactly when the bits are that member's code. The major opcodes get a
table of the same kind, so that decoding is one step per family and the rest
of the proofs never look into the big match again.
-/

namespace Rv32Soc.Isa

theorem Branch.ofFunct3?_eq_some {funct3 : BitVec 3} {cond : Branch} :
    ofFunct3? funct3 = some cond ↔ cond.funct3 = funct3 := by
  cases cond <;> revert funct3 <;> decide

theorem Load.ofFunct3?_eq_some {funct3 : BitVec 3} {kind : Load} :
    ofFunct3? funct3 = some kind ↔ kind.funct3 = funct3 := by
  cases kind <;> revert funct3 <;> decide

theorem storeWidth?_eq_some {funct3 : BitVec 3} {width : Width} :
    storeWidth? funct3 = some width ↔ storeFunct3 width = funct3 := by
  cases width <;> revert funct3 <;> decide

theorem OpImm.ofFunct3?_eq_some {funct3 : BitVec 3} {op : OpImm} :
    ofFunct3? funct3 = some op ↔ op.funct3 = funct3 := by
  cases op <;> revert funct3 <;> decide

theorem ShiftImm.ofCodes?_eq_some {funct3 : BitVec 3} {upper : BitVec 7} {op : ShiftImm} :
    ofCodes? funct3 upper = some op ↔ op.funct3 = funct3 ∧ op.upper = upper := by
  unfold ofCodes?
  cases op <;> simp only [ShiftImm.funct3, ShiftImm.upper] <;> grind

/-- The shifts have the minor codes that the other immediate operations leave. -/
theorem ShiftImm.ofFunct3?_funct3 (op : ShiftImm) : OpImm.ofFunct3? op.funct3 = none := by
  cases op <;> rfl

theorem Op.ofCodes?_eq_some {funct7 : BitVec 7} {funct3 : BitVec 3} {op : Op} :
    ofCodes? funct7 funct3 = some op ↔ op.funct7 = funct7 ∧ op.funct3 = funct3 := by
  have hbase : ∀ f, ofBase f = op ↔ op.funct7 = 0b0000000 ∧ op.funct3 = f := by
    cases op <;> decide
  have hmul : ∀ f, ofMulDiv f = op ↔ op.funct7 = 0b0000001 ∧ op.funct3 = f := by
    cases op <;> decide
  unfold ofCodes?
  split
  · next h => rw [Option.some_inj, hbase, h]
  · split
    · next h => rw [Option.some_inj, hmul, h]
    · cases op <;> simp only [Op.funct7, Op.funct3] <;> grind

theorem Amo.ofFunct5?_eq_some {funct5 : BitVec 5} {op : Amo} :
    ofFunct5? funct5 = some op ↔ op.funct5 = funct5 := by
  cases op <;> revert funct5 <;> decide

theorem Amo.funct5_ne_loadReserved (op : Amo) : op.funct5 ≠ loadReservedFunct5 := by
  cases op <;> decide

theorem Amo.funct5_ne_storeConditional (op : Amo) : op.funct5 ≠ storeConditionalFunct5 := by
  cases op <;> decide

/-! ## Major opcodes -/

/-- Decode a word with a given major opcode. -/
def Major.decode (m : Major) (word : Word) : Instr :=
  match m with
  | load => decodeLoad word
  | opImm => decodeOpImm word
  | auipc => .auipc (rd word) (immU word)
  | store => decodeStore word
  | amo => decodeAtomic word
  | op => decodeOp word
  | lui => .lui (rd word) (immU word)
  | branch => decodeBranch word
  | jalr =>
      if funct3 word = 0b000 then .jalr (rd word) (rs1 word) (immI word) else .illegal word
  | jal => .jal (rd word) (immJ word)
  | system => decodeSystem word

theorem decode_of_opcode {m : Major} {word : Word} (h : opcode word = m.code) :
    Instr.decode word = m.decode word := by
  unfold Instr.decode
  rw [h]
  cases m <;> rfl

/-- A word with no major opcode is no instruction. -/
theorem decode_of_no_opcode {word : Word} (h : ∀ m : Major, opcode word ≠ m.code) :
    Instr.decode word = .illegal word := by
  unfold Instr.decode
  split
  case h_1 heq => exact absurd heq (h .load)
  case h_2 heq => exact absurd heq (h .opImm)
  case h_3 heq => exact absurd heq (h .auipc)
  case h_4 heq => exact absurd heq (h .store)
  case h_5 heq => exact absurd heq (h .amo)
  case h_6 heq => exact absurd heq (h .op)
  case h_7 heq => exact absurd heq (h .lui)
  case h_8 heq => exact absurd heq (h .branch)
  case h_9 heq => exact absurd heq (h .jalr)
  case h_10 heq => exact absurd heq (h .jal)
  case h_11 heq => exact absurd heq (h .system)
  case h_12 => rfl

end Rv32Soc.Isa
