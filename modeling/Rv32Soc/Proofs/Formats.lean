import Rv32Soc.Isa.Format

/-!
# Reading a word undoes assembling it

Reading and assembling are written apart, the one with slices of a word and
the other with shifts and ors. Both sides are brought to one form here, the
row of the six fields of an R word, since every boundary between two pieces
of any format is one of the R boundaries or lies inside a field of R. An
assembler is then the row of what it was given, and a slice of a row is found
by dropping fields from the right.

For immediates there are two directions. A word assembled with any offset
reads back the low bits of the offset, sign-extended: what did not fit is
lost, and nothing else. And the pieces of an immediate that was read are the
fields it was read from, so that assembling them again gives the word.
-/

namespace Rv32Soc.Isa

/-- The word with the given fields in a row, divided as R. -/
def joinFields (funct7 : BitVec 7) (rs2 rs1 : Reg) (funct3 : BitVec 3) (rd : Reg)
    (opcode : BitVec 7) : Word :=
  (funct7 ++ rs2 ++ rs1 ++ funct3 ++ rd ++ opcode).setWidth 32

/-- Every word is the row of its fields. -/
theorem joinFields_word (word : Word) :
    joinFields (funct7 word) (rs2 word) (rs1 word) (funct3 word) (rd word) (opcode word)
      = word := by
  rw [joinFields]
  simp (disch := decide) only [funct7, rs2, rs1, funct3, rd, opcode,
    BitVec.extractLsb'_append_extractLsb'_eq_extractLsb']
  rw [BitVec.setWidth_eq, BitVec.extractLsb'_eq_self]

/-! ## Fields of a row -/

section Fields

variable (f7 : BitVec 7) (r2 r1 : Reg) (f3 : BitVec 3) (d : Reg) (op : BitVec 7)

theorem extract_joinFields (start len : Nat) (h : start + len ≤ 32) :
    (joinFields f7 r2 r1 f3 d op).extractLsb' start len
      = (f7 ++ r2 ++ r1 ++ f3 ++ d ++ op).extractLsb' start len :=
  BitVec.extractLsb'_setWidth_of_le h

@[simp]
theorem opcode_joinFields : opcode (joinFields f7 r2 r1 f3 d op) = op := by
  rw [opcode, extract_joinFields _ _ _ _ _ _ _ _ (by decide)]
  exact BitVec.extractLsb'_append_eq_right

@[simp]
theorem rd_joinFields : rd (joinFields f7 r2 r1 f3 d op) = d := by
  rw [rd, extract_joinFields _ _ _ _ _ _ _ _ (by decide)]
  simp (disch := decide) only [BitVec.extractLsb'_append_eq_of_le]
  exact BitVec.extractLsb'_append_eq_right

@[simp]
theorem funct3_joinFields : funct3 (joinFields f7 r2 r1 f3 d op) = f3 := by
  rw [funct3, extract_joinFields _ _ _ _ _ _ _ _ (by decide)]
  simp (disch := decide) only [BitVec.extractLsb'_append_eq_of_le]
  exact BitVec.extractLsb'_append_eq_right

@[simp]
theorem rs1_joinFields : rs1 (joinFields f7 r2 r1 f3 d op) = r1 := by
  rw [rs1, extract_joinFields _ _ _ _ _ _ _ _ (by decide)]
  simp (disch := decide) only [BitVec.extractLsb'_append_eq_of_le]
  exact BitVec.extractLsb'_append_eq_right

@[simp]
theorem rs2_joinFields : rs2 (joinFields f7 r2 r1 f3 d op) = r2 := by
  rw [rs2, extract_joinFields _ _ _ _ _ _ _ _ (by decide)]
  simp (disch := decide) only [BitVec.extractLsb'_append_eq_of_le]
  exact BitVec.extractLsb'_append_eq_right

@[simp]
theorem funct7_joinFields : funct7 (joinFields f7 r2 r1 f3 d op) = f7 := by
  rw [funct7, extract_joinFields _ _ _ _ _ _ _ _ (by decide)]
  simp (disch := decide) only [BitVec.extractLsb'_append_eq_of_le]
  exact BitVec.extractLsb'_eq_self

theorem funct5_joinFields (f5 : BitVec 5) (order : BitVec 2) :
    (funct7 (joinFields (f5 ++ order) r2 r1 f3 d op)).extractLsb' 2 5 = f5 := by
  rw [funct7_joinFields]
  exact BitVec.extractLsb'_append_eq_left

@[simp]
theorem funct12_joinFields : funct12 (joinFields f7 r2 r1 f3 d op) = f7 ++ r2 := by
  rw [funct12, extract_joinFields _ _ _ _ _ _ _ _ (by decide)]
  simp (disch := decide) only [BitVec.extractLsb'_append_eq_of_le]
  exact BitVec.extractLsb'_eq_self

theorem immI_joinFields : immI (joinFields f7 r2 r1 f3 d op) = (f7 ++ r2).signExtend 32 :=
  congrArg (BitVec.signExtend 32) (funct12_joinFields f7 r2 r1 f3 d op)

theorem immS_joinFields : immS (joinFields f7 r2 r1 f3 d op) = (f7 ++ d).signExtend 32 := by
  have hhigh := funct7_joinFields f7 r2 r1 f3 d op
  have hlow := rd_joinFields f7 r2 r1 f3 d op
  rw [funct7] at hhigh
  rw [rd] at hlow
  rw [immS, hhigh, hlow]

theorem immB_joinFields :
    immB (joinFields f7 r2 r1 f3 d op)
      = (f7.extractLsb' 6 1 ++ d.extractLsb' 0 1 ++ f7.extractLsb' 0 6 ++ d.extractLsb' 1 4
          ++ 0#1).signExtend 32 := by
  rw [immB]
  simp (disch := decide) only [extract_joinFields, BitVec.extractLsb'_append_eq_of_le,
    BitVec.extractLsb'_append_eq_of_add_le, Nat.reduceSub]

/-! ## Cutting bits off a row -/

theorem and_joinFields (word : Word) :
    word &&& joinFields f7 r2 r1 f3 d op
      = joinFields (funct7 word &&& f7) (rs2 word &&& r2) (rs1 word &&& r1) (funct3 word &&& f3)
          (rd word &&& d) (opcode word &&& op) := by
  have hword := joinFields_word word
  rw [joinFields] at hword
  rw [joinFields, joinFields, ← BitVec.and_append, ← BitVec.and_append, ← BitVec.and_append,
    ← BitVec.and_append, ← BitVec.and_append, BitVec.setWidth_and, hword]

/-- Of funct7 the upper five bits stay. -/
theorem funct7_cut : f7 &&& (BitVec.allOnes 5 ++ 0#2) = f7.extractLsb' 2 5 ++ 0#2 := by
  have hjoin : f7.extractLsb' 2 5 ++ f7.extractLsb' 0 2 = f7.extractLsb' 0 (5 + 2) :=
    BitVec.extractLsb'_append_extractLsb'_eq_extractLsb' rfl
  have hsplit : f7 = f7.extractLsb' 2 5 ++ f7.extractLsb' 0 2 :=
    (hjoin.trans BitVec.extractLsb'_eq_self).symm
  calc f7 &&& (BitVec.allOnes 5 ++ 0#2)
      = (f7.extractLsb' 2 5 ++ f7.extractLsb' 0 2) &&& (BitVec.allOnes 5 ++ 0#2) := by
        rw [← hsplit]
    _ = f7.extractLsb' 2 5 ++ 0#2 := by
        rw [BitVec.and_append, BitVec.and_allOnes, BitVec.and_zero]

/-! ## Assemblers give rows -/

/-- Masking with a run of ones cuts a word to as many bits. -/
theorem and_allOnes_setWidth (n : Nat) (x : Word) :
    x &&& (BitVec.allOnes n).setWidth 32 = (x.setWidth n).setWidth 32 := by
  ext i hi
  by_cases hn : i < n
  · simp [hn, BitVec.getLsbD_eq_getElem hi]
  · simp [hn]

/-- Two slices that meet at bit `low` are the low bits of the word. -/
theorem extract_append_low (x : Word) (high low : Nat) :
    x.extractLsb' low high ++ x.extractLsb' 0 low = x.setWidth (high + low) := by
  rw [BitVec.extractLsb'_append_extractLsb'_eq_extractLsb' (Nat.zero_add low).symm]
  ext i hi
  simp

theorem assembleRS_joinFields :
    assembleRS (f7.setWidth 32) (r2.setWidth 32) (r1.setWidth 32) (f3.setWidth 32)
        (d.setWidth 32) (op.setWidth 32)
      = joinFields f7 r2 r1 f3 d op := by
  rw [joinFields, assembleRS]
  simp only [BitVec.setWidth_append_eq_shiftLeft_setWidth_or, BitVec.shiftLeft_or_distrib,
    ← BitVec.shiftLeft_add]

theorem assembleI_joinFields (imm : Word) :
    assembleI imm (r1.setWidth 32) (f3.setWidth 32) (d.setWidth 32) (op.setWidth 32)
      = joinFields (imm.extractLsb' 5 7) (imm.extractLsb' 0 5) r1 f3 d op := by
  have himm : imm &&& 0xfff = (imm.extractLsb' 5 7 ++ imm.extractLsb' 0 5).setWidth 32 := by
    rw [extract_append_low]
    exact and_allOnes_setWidth 12 imm
  rw [joinFields, assembleI, himm]
  simp only [BitVec.setWidth_append_eq_shiftLeft_setWidth_or, BitVec.shiftLeft_or_distrib,
    ← BitVec.shiftLeft_add]

/-- An I word whose immediate is given in the two pieces that an R word has there. -/
theorem assembleI_append :
    assembleI ((f7 ++ r2).setWidth 32) (r1.setWidth 32) (f3.setWidth 32) (d.setWidth 32)
        (op.setWidth 32)
      = joinFields f7 r2 r1 f3 d op := by
  rw [assembleI_joinFields]
  simp (disch := decide) only [BitVec.extractLsb'_setWidth_of_le]
  rw [BitVec.extractLsb'_append_eq_left, BitVec.extractLsb'_append_eq_right]

/-- An I word whose immediate is twelve bits without a sign. -/
theorem assembleI_number (number : BitVec 12) :
    assembleI (number.setWidth 32) (r1.setWidth 32) (f3.setWidth 32) (d.setWidth 32)
        (op.setWidth 32)
      = joinFields (number.extractLsb' 5 7) (number.extractLsb' 0 5) r1 f3 d op := by
  rw [assembleI_joinFields]
  simp (disch := decide) only [BitVec.extractLsb'_setWidth_of_le]

end Fields

/-! ## Words with an upper immediate -/

/-- The word with the given fields in a row, divided as U or J. -/
def joinUpper (field : BitVec 20) (rd : Reg) (opcode : BitVec 7) : Word :=
  (field ++ rd ++ opcode).setWidth 32

theorem joinUpper_word (word : Word) :
    joinUpper (word.extractLsb' 12 20) (rd word) (opcode word) = word := by
  rw [joinUpper]
  simp (disch := decide) only [rd, opcode, BitVec.extractLsb'_append_extractLsb'_eq_extractLsb']
  rw [BitVec.setWidth_eq, BitVec.extractLsb'_eq_self]

section Upper

variable (field : BitVec 20) (d : Reg) (op : BitVec 7)

theorem extract_joinUpper (start len : Nat) (h : start + len ≤ 32) :
    (joinUpper field d op).extractLsb' start len = (field ++ d ++ op).extractLsb' start len :=
  BitVec.extractLsb'_setWidth_of_le h

@[simp]
theorem opcode_joinUpper : opcode (joinUpper field d op) = op := by
  rw [opcode, extract_joinUpper _ _ _ _ _ (by decide)]
  exact BitVec.extractLsb'_append_eq_right

@[simp]
theorem rd_joinUpper : rd (joinUpper field d op) = d := by
  rw [rd, extract_joinUpper _ _ _ _ _ (by decide)]
  simp (disch := decide) only [BitVec.extractLsb'_append_eq_of_le]
  exact BitVec.extractLsb'_append_eq_right

theorem immJ_joinUpper :
    immJ (joinUpper field d op)
      = (field.extractLsb' 19 1 ++ field.extractLsb' 0 8 ++ field.extractLsb' 8 1
          ++ field.extractLsb' 9 10 ++ 0#1).signExtend 32 := by
  rw [immJ]
  simp (disch := decide) only [extract_joinUpper, BitVec.extractLsb'_append_eq_of_le,
    Nat.reduceSub]

theorem immU_joinUpper : immU (joinUpper field d op) = field.setWidth 32 <<< 12 := by
  have hmask : (0xfffff000 : Word) = (BitVec.allOnes 20 ++ 0#5 ++ 0#7).setWidth 32 := by decide
  rw [immU, joinUpper, hmask, ← BitVec.setWidth_and]
  simp only [BitVec.and_append, BitVec.and_allOnes, BitVec.and_zero]
  simp only [BitVec.setWidth_append_eq_shiftLeft_setWidth_or, BitVec.shiftLeft_or_distrib,
    ← BitVec.shiftLeft_add]
  simp

/-- What a shift by twelve drops is what twenty bits do not hold. -/
theorem shiftLeft_cut (imm : Word) : (imm.setWidth 20).setWidth 32 <<< 12 = imm <<< 12 := by
  apply BitVec.eq_of_getLsbD_eq
  intro i hi
  rw [BitVec.getLsbD_shiftLeft, BitVec.getLsbD_shiftLeft, BitVec.getLsbD_setWidth,
    BitVec.getLsbD_setWidth]
  by_cases h : i < 12
  · simp only [h, decide_true, Bool.not_true, Bool.and_false, Bool.false_and]
  · simp only [show i - 12 < 20 by omega, show i - 12 < 32 by omega, decide_true,
      Bool.true_and]

theorem assembleUJ_joinUpper :
    assembleUJ (field.setWidth 32) (d.setWidth 32) (op.setWidth 32)
      = joinUpper field d op := by
  rw [joinUpper, assembleUJ]
  simp only [BitVec.setWidth_append_eq_shiftLeft_setWidth_or, BitVec.shiftLeft_or_distrib,
    ← BitVec.shiftLeft_add]

end Upper

/-! ## Splitting an immediate -/

theorem number_pieces (number : BitVec 12) :
    number.extractLsb' 5 7 ++ number.extractLsb' 0 5 = number := by
  have hjoin : number.extractLsb' 5 7 ++ number.extractLsb' 0 5 = number.extractLsb' 0 (7 + 5) :=
    BitVec.extractLsb'_append_extractLsb'_eq_extractLsb' rfl
  rw [hjoin]
  exact BitVec.extractLsb'_eq_self

theorem splitS_eq (offset : Word) :
    splitS offset
      = ((offset.extractLsb' 5 7).setWidth 32, (offset.extractLsb' 0 5).setWidth 32) := rfl

theorem splitB_eq (offset : Word) :
    splitB offset
      = ((offset.extractLsb' 12 1 ++ offset.extractLsb' 5 6).setWidth 32,
          (offset.extractLsb' 1 4 ++ offset.extractLsb' 11 1).setWidth 32) := by
  simp only [BitVec.setWidth_append_eq_shiftLeft_setWidth_or]
  rfl

theorem fieldJ_eq (offset : Word) :
    fieldJ offset
      = (offset.extractLsb' 20 1 ++ offset.extractLsb' 1 10 ++ offset.extractLsb' 11 1
          ++ offset.extractLsb' 12 8).setWidth 32 := by
  simp only [BitVec.setWidth_append_eq_shiftLeft_setWidth_or, BitVec.shiftLeft_or_distrib,
    ← BitVec.shiftLeft_add]
  rfl

theorem fieldShift_eq (amount : Word) (upper : BitVec 7) :
    fieldShift amount (upper.setWidth 32) = (upper ++ amount.extractLsb' 0 5).setWidth 32 := by
  rw [BitVec.setWidth_append_eq_shiftLeft_setWidth_or]
  rfl

/-! ## An immediate that was assembled

The pieces of an offset come together again as its low bits. In B and J words
bit 0 of the offset is not among the pieces and reads as zero. -/

theorem signExtend_append_zero (offset : Word) {n : Nat} (hn : 0 < n) :
    (offset.extractLsb' 1 n ++ 0#1).signExtend 32 = signExtendFrom offset n &&& ~~~1#32 := by
  have hsign : (offset.extractLsb' 1 n ++ 0#1).msb = offset.getLsbD n := by
    rw [BitVec.msb_append, if_neg (by omega), BitVec.msb_eq_getLsbD_last,
      BitVec.getLsbD_extractLsb', show 1 + (n - 1) = n by omega]
    simp only [show n - 1 < n by omega, decide_true, Bool.true_and]
  apply BitVec.eq_of_getLsbD_eq
  intro i hi
  rw [BitVec.getLsbD_signExtend, hsign, BitVec.getLsbD_and, getLsbD_signExtendFrom,
    BitVec.getLsbD_append, BitVec.getLsbD_not, BitVec.getLsbD_one, BitVec.getLsbD_extractLsb']
  cases i with
  | zero => simp
  | succ i =>
      by_cases h : i < n
      · have hmin : min (i + 1) n = i + 1 := by omega
        rw [hmin]
        simp [hi, h, Nat.add_comm]
      · have hmin : min (i + 1) n = n := by omega
        rw [hmin]
        simp [hi, h]

theorem immI_assembled (imm : Word) (r1 : Reg) (f3 : BitVec 3) (d : Reg) (op : BitVec 7) :
    immI (joinFields (imm.extractLsb' 5 7) (imm.extractLsb' 0 5) r1 f3 d op)
      = signExtendFrom imm 11 := by
  rw [immI_joinFields, extract_append_low]
  rfl

theorem immS_assembled (offset : Word) (r2 r1 : Reg) (f3 : BitVec 3) (op : BitVec 7) :
    immS (joinFields (offset.extractLsb' 5 7) r2 r1 f3 (offset.extractLsb' 0 5) op)
      = signExtendFrom offset 11 := by
  rw [immS_joinFields, extract_append_low]
  rfl

theorem immB_assembled (offset : Word) (r2 r1 : Reg) (f3 : BitVec 3) (op : BitVec 7) :
    immB (joinFields (offset.extractLsb' 12 1 ++ offset.extractLsb' 5 6) r2 r1 f3
        (offset.extractLsb' 1 4 ++ offset.extractLsb' 11 1) op)
      = signExtendFrom offset 12 &&& ~~~1#32 := by
  rw [immB_joinFields, ← signExtend_append_zero offset (by decide)]
  simp (disch := decide) only [BitVec.extractLsb'_append_eq_of_le,
    BitVec.extractLsb'_append_eq_of_add_le, Nat.reduceSub, BitVec.extractLsb'_eq_self,
    BitVec.extractLsb'_append_extractLsb'_eq_extractLsb']

theorem immJ_assembled (offset : Word) (d : Reg) (op : BitVec 7) :
    immJ (joinUpper (offset.extractLsb' 20 1 ++ offset.extractLsb' 1 10
        ++ offset.extractLsb' 11 1 ++ offset.extractLsb' 12 8) d op)
      = signExtendFrom offset 20 &&& ~~~1#32 := by
  rw [immJ_joinUpper, ← signExtend_append_zero offset (by decide)]
  simp (disch := decide) only [BitVec.extractLsb'_append_eq_of_le,
    BitVec.extractLsb'_append_eq_of_add_le, Nat.reduceSub, BitVec.extractLsb'_eq_self,
    BitVec.extractLsb'_append_extractLsb'_eq_extractLsb']

/-! ## An immediate that was read -/

theorem extractLsb'_signExtend {n start len : Nat} (x : BitVec n) (h : start + len ≤ n)
    (hn : n ≤ 32) : (x.signExtend 32).extractLsb' start len = x.extractLsb' start len := by
  ext i hi
  rw [BitVec.getElem_extractLsb', BitVec.getElem_extractLsb', BitVec.getLsbD_signExtend]
  simp only [show start + i < 32 by omega, show start + i < n by omega, decide_true,
    Bool.true_and, if_true]

theorem splitS_immS (word : Word) :
    splitS (immS word) = ((funct7 word).setWidth 32, (rd word).setWidth 32) := by
  rw [splitS_eq, immS]
  simp (disch := decide) only [extractLsb'_signExtend, BitVec.extractLsb'_append_eq_of_le,
    Nat.reduceSub, BitVec.extractLsb'_eq_self, BitVec.extractLsb'_append_eq_right]
  rfl

theorem splitB_immB (word : Word) :
    splitB (immB word) = ((funct7 word).setWidth 32, (rd word).setWidth 32) := by
  rw [splitB_eq, immB]
  simp (disch := decide) only [extractLsb'_signExtend, BitVec.extractLsb'_append_eq_of_le,
    BitVec.extractLsb'_append_eq_of_add_le, Nat.reduceSub, BitVec.extractLsb'_eq_self,
    BitVec.extractLsb'_append_extractLsb'_eq_extractLsb']
  rfl

theorem fieldJ_immJ (word : Word) :
    fieldJ (immJ word) = (word.extractLsb' 12 20).setWidth 32 := by
  rw [fieldJ_eq, immJ]
  simp (disch := decide) only [extractLsb'_signExtend, BitVec.extractLsb'_append_eq_of_le,
    BitVec.extractLsb'_append_eq_of_add_le, Nat.reduceSub, BitVec.extractLsb'_eq_self,
    BitVec.extractLsb'_append_extractLsb'_eq_extractLsb']

theorem funct12_pieces (word : Word) :
    (funct12 word).extractLsb' 5 7 = funct7 word
      ∧ (funct12 word).extractLsb' 0 5 = rs2 word := by
  have hjoin : word.extractLsb' 25 7 ++ word.extractLsb' 20 5 = word.extractLsb' 20 (7 + 5) :=
    BitVec.extractLsb'_append_extractLsb'_eq_extractLsb' rfl
  rw [funct12, show word.extractLsb' 20 12 = _ from hjoin.symm]
  exact ⟨BitVec.extractLsb'_append_eq_left, BitVec.extractLsb'_append_eq_right⟩

/-- A word is the row of its fields also where funct12 is given for the two upper ones. -/
theorem joinFields_funct12 (word : Word) :
    joinFields ((funct12 word).extractLsb' 5 7) ((funct12 word).extractLsb' 0 5) (rs1 word)
      (funct3 word) (rd word) (opcode word) = word := by
  obtain ⟨hhigh, hlow⟩ := funct12_pieces word
  rw [hhigh, hlow]
  exact joinFields_word word

theorem joinFields_immI (word : Word) :
    joinFields ((immI word).extractLsb' 5 7) ((immI word).extractLsb' 0 5) (rs1 word)
      (funct3 word) (rd word) (opcode word) = word := by
  rw [immI, extractLsb'_signExtend _ (by decide) (by decide),
    extractLsb'_signExtend _ (by decide) (by decide)]
  exact joinFields_funct12 word

theorem immU_pieces (word : Word) :
    (immU word >>> 12 &&& 0xfffff) = (word.extractLsb' 12 20).setWidth 32 := by
  have himm : immU word = (word.extractLsb' 12 20).setWidth 32 <<< 12 := by
    rw [← immU_joinUpper _ (rd word) (opcode word), joinUpper_word]
  refine (and_allOnes_setWidth 20 _).trans ?_
  rw [himm]
  congr 1
  ext i hi
  simp [show 12 + i < 32 by omega, hi]

end Rv32Soc.Isa
