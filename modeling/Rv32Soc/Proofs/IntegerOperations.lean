import Rv32Soc.Proofs.Results
import Rv32Soc.Proofs.Spelling

/-!
# Integer operations

The ten operations that are no product or quotient are told by the integers
that words stand for, or by their bits where they work on bits. A shift takes
its amount modulo 32, and a shift to the right rounds down, for signed words
too.

An operation with a constant is the same operation on two registers, one of
which holds the constant. The constant of a shift is five bits of the word
without a sign; all others are its upper twelve bits with the sign, also where
the comparison that follows is without one.
-/

namespace Rv32Soc

namespace Isa

/-! ## The operations on words -/

/-- What the operations make of two words. -/
structure Faithful (a b : Word) : Prop where
  add : (Op.add.eval a b).toNat = (a.toNat + b.toNat) % 2 ^ 32
  sub : ((Op.sub.eval a b).toNat : Int) = (a.toNat - b.toNat : Int) % 2 ^ 32
  and : ∀ k, (Op.and.eval a b).getLsbD k = (a.getLsbD k && b.getLsbD k)
  or : ∀ k, (Op.or.eval a b).getLsbD k = (a.getLsbD k || b.getLsbD k)
  xor : ∀ k, (Op.xor.eval a b).getLsbD k = (a.getLsbD k ^^ b.getLsbD k)
  slt : Op.slt.eval a b = if a.toInt < b.toInt then 1 else 0
  sltu : Op.sltu.eval a b = if a.toNat < b.toNat then 1 else 0
  sll : (Op.sll.eval a b).toNat = a.toNat * 2 ^ (b.toNat % 32) % 2 ^ 32
  srl : (Op.srl.eval a b).toNat = a.toNat / 2 ^ (b.toNat % 32)
  sra : (Op.sra.eval a b).toInt = a.toInt / 2 ^ (b.toNat % 32)

theorem shiftAmount_eq (word : Word) : shiftAmount word = word.toNat % 32 := by
  rw [shiftAmount, BitVec.toNat_and]
  exact Nat.and_two_pow_sub_one_eq_mod word.toNat 5

theorem flag_of_iff {condition : Bool} {p : Prop} [Decidable p] (h : condition = true ↔ p) :
    flag condition = if p then 1 else 0 := by
  rw [flag]
  exact if_congr h rfl rfl

theorem faithful_of_words (a b : Word) : Faithful a b where
  add := BitVec.toNat_add a b
  sub := by
    have hlt := b.isLt
    rw [Op.eval, BitVec.toNat_sub]
    omega
  and _ := BitVec.getLsbD_and
  or _ := BitVec.getLsbD_or
  xor _ := BitVec.getLsbD_xor
  slt := flag_of_iff BitVec.slt_iff_toInt_lt
  sltu := flag_of_iff BitVec.ult_iff_toNat_lt
  sll := by rw [Op.eval, shiftAmount_eq, BitVec.toNat_shiftLeft, Nat.shiftLeft_eq]
  srl := by rw [Op.eval, shiftAmount_eq, BitVec.toNat_ushiftRight, Nat.shiftRight_eq_div_pow]
  sra := by
    rw [Op.eval, shiftAmount_eq, BitVec.toInt_sshiftRight, Int.shiftRight_eq_div_pow]
    norm_cast

/-! ## Constants -/

/-- An instruction with a constant does what an operation does on its source and a second
register that holds this word. -/
inductive Instr.Counterpart (dest src : Reg) : Instr → Op → Word → Prop where
  | addi (imm : Word) : Counterpart dest src (.opImm .addi dest src imm) .add imm
  | slti (imm : Word) : Counterpart dest src (.opImm .slti dest src imm) .slt imm
  | sltiu (imm : Word) : Counterpart dest src (.opImm .sltiu dest src imm) .sltu imm
  | xori (imm : Word) : Counterpart dest src (.opImm .xori dest src imm) .xor imm
  | ori (imm : Word) : Counterpart dest src (.opImm .ori dest src imm) .or imm
  | andi (imm : Word) : Counterpart dest src (.opImm .andi dest src imm) .and imm
  | slli (amount : BitVec 5) :
      Counterpart dest src (.shiftImm .slli dest src amount) .sll (amount.setWidth 32)
  | srli (amount : BitVec 5) :
      Counterpart dest src (.shiftImm .srli dest src amount) .srl (amount.setWidth 32)
  | srai (amount : BitVec 5) :
      Counterpart dest src (.shiftImm .srai dest src amount) .sra (amount.setWidth 32)

/-- The constants that are decoded from a word. -/
structure Constants (word : Word) : Prop where
  opImm : ∀ {op dest src imm}, Instr.decode word = .opImm op dest src imm →
    imm.toInt = Int.bmod (word.toNat / 2 ^ 20 : Nat) (2 ^ 12)
  shiftImm : ∀ {op dest src amount}, Instr.decode word = .shiftImm op dest src amount →
    amount.toNat = word.toNat / 2 ^ 20 % 2 ^ 5

theorem toInt_immI (word : Word) :
    (immI word).toInt = Int.bmod (word.toNat / 2 ^ 20 : Nat) (2 ^ 12) := by
  rw [immI, BitVec.toInt_signExtend_of_le (by decide), BitVec.toInt_eq_toNat_bmod,
    BitVec.extractLsb'_toNat, Nat.shiftRight_eq_div_pow, Int.natCast_mod]
  exact Int.emod_bmod _ _

theorem toNat_rs2 (word : Word) : (rs2 word).toNat = word.toNat / 2 ^ 20 % 2 ^ 5 := by
  rw [rs2, BitVec.extractLsb'_toNat, Nat.shiftRight_eq_div_pow]

theorem constants_of_word (word : Word) : Constants word where
  opImm {op dest src imm} hdecode := by
    have hword : word = Encode.opImm op (dest.setWidth 8) (src.setWidth 8) imm :=
      eq_encode_of_decode hdecode rfl rfl
    -- The code of what a word decodes to decodes to that again, with the constant read anew.
    have himm : imm = immI word := by
      have hself := decode_opImm dest src imm op
      rw [← hword, hdecode] at hself
      rw [hword, Encode.opImm_row, immI_assembled]
      injection hself
    rw [himm, toInt_immI]
  shiftImm {op dest src amount} hdecode := by
    have hword : word = Encode.shiftImm op (dest.setWidth 8) (src.setWidth 8)
        (amount.setWidth 32) := eq_encode_of_decode hdecode rfl rfl
    rw [← toNat_rs2, hword, Encode.shiftImm_row, rs2_joinFields]

end Isa

namespace Hart

open Isa

variable {ε : Type}

theorem computed?_of_counterpart {h : Hart ε} {i : Instr} {dest src : Reg} {op : Op}
    {value : Word} (hi : i.Counterpart dest src op value) :
    h.computed? i = some (dest, op.eval (h.x src) value) := by
  cases hi <;> rfl

variable [Peripheral ε]

/-- What a hart computes that executes an instruction. -/
structure Computes (h : Hart ε) (i : Instr) : Prop where
  register : ∀ {op dest src1 src2}, i = .op op dest src1 src2 →
    h.Yields dest (op.eval (h.x src1) (h.x src2))
  constant : ∀ {dest src op value}, i.Counterpart dest src op value →
    h.Yields dest (op.eval (h.x src) value)
  /-- So does any hart with the constant in a register. -/
  counterpart : ∀ {dest src op value}, i.Counterpart dest src op value →
    ∀ (g : Hart ε) (src1 src2 : Reg), g.executed? = some (.op op dest src1 src2) →
      g.x src1 = h.x src → g.x src2 = value → g.Yields dest (op.eval (h.x src) value)
  lui : ∀ {dest imm}, i = .lui dest imm → h.Yields dest imm
  auipc : ∀ {dest imm}, i = .auipc dest imm →
    h.Yields dest (BitVec.ofNat 32 (h.pc.toNat + imm.toNat))

theorem yields_of_executed {h : Hart ε} {i : Instr} {dest : Reg} {value : Word}
    (hexecuted : h.executed? = some i) (hcomputed : h.computed? i = some (dest, value)) :
    h.Yields dest value := by
  obtain ⟨word, h₁, hb, rfl⟩ := executed?_eq_some hexecuted
  exact computed_yields hb hcomputed

/-- The operations on two words are those on the integers that they stand for, constants are read
off the word, and a step puts into the destination what the instruction computes. -/
theorem executed_computes :
    (∀ a b : Word, Faithful a b) ∧ (∀ word, Constants word)
      ∧ ∀ (h : Hart ε) (i : Instr), h.executed? = some i → h.Computes i := by
  refine ⟨faithful_of_words, constants_of_word, fun h i hexecuted => ?_⟩
  exact
    { register := fun hi => yields_of_executed hexecuted (hi ▸ rfl)
      constant := fun hi => yields_of_executed hexecuted (computed?_of_counterpart hi)
      counterpart := by
        intro dest src op value hi g src1 src2 hg hsrc hvalue
        rw [← hsrc, ← hvalue]
        exact yields_of_executed hg rfl
      lui := fun hi => yields_of_executed hexecuted (hi ▸ rfl)
      auipc := by
        rintro dest imm rfl
        rw [← BitVec.add_def]
        exact yields_of_executed hexecuted rfl }

/-- In front of `sltiu x5, x5, -1`. -/
def beforeSltiu : Hart Empty :=
  inFrontOf [0x93, 0xb2, 0xf2, 0xff] (Registers.set {} 5 7)

/-- In front of `sltu x5, x5, x6`, where `x6` holds -1. -/
def beforeSltu : Hart Empty :=
  inFrontOf [0xb3, 0xb2, 0x62, 0x00] ((Registers.set {} 5 7).set 6 0xffffffff)

theorem executed_computes_sltiu :
    Instr.decode 0xfff2b293 = .opImm .sltiu 5 5 0xffffffff
      ∧ (0xffffffff : Word).toInt = Int.bmod ((0xfff2b293 : Word).toNat / 2 ^ 20 : Nat) (2 ^ 12)
      ∧ beforeSltiu.executed? = some (.opImm .sltiu 5 5 0xffffffff)
      ∧ beforeSltu.executed? = some (.op .sltu 5 5 6)
      ∧ beforeSltu.x 5 = beforeSltiu.x 5 ∧ beforeSltu.x 6 = 0xffffffff
      ∧ Op.sltu.eval 7 0xffffffff
        = (if (7 : Word).toNat < (0xffffffff : Word).toNat then 1 else 0)
      ∧ beforeSltiu.Yields 5 (Op.sltu.eval 7 0xffffffff)
      ∧ beforeSltu.Yields 5 (Op.sltu.eval 7 0xffffffff) := by
  obtain ⟨hfaithful, hconstants, hcomputes⟩ := executed_computes (ε := Empty)
  have hdecode : Instr.decode 0xfff2b293 = .opImm .sltiu 5 5 0xffffffff := by decide +kernel
  have hconstant : beforeSltiu.executed? = some (.opImm .sltiu 5 5 0xffffffff) := by
    decide +kernel
  have hregister : beforeSltu.executed? = some (.op .sltu 5 5 6) := by decide +kernel
  have hcomputed := hcomputes beforeSltiu _ hconstant
  have hsource : beforeSltu.x 5 = beforeSltiu.x 5 := by decide +kernel
  have hvalue : beforeSltu.x 6 = 0xffffffff := by decide +kernel
  exact ⟨hdecode, (hconstants _).opImm hdecode, hconstant, hregister, hsource, hvalue,
    (hfaithful _ _).sltu, hcomputed.constant (.sltiu _),
    hcomputed.counterpart (.sltiu _) beforeSltu 5 6 hregister hsource hvalue⟩

end Hart

end Rv32Soc
