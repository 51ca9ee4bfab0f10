import Mathlib.Algebra.Ring.Int.Defs
import Rv32Soc.Proofs.Formats

/-!
# No format loses anything

Each of the six formats divides every word completely: assembling again what
was read gives the word, also where the word is no instruction. What can be
read is a matter of the immediate alone. An immediate is a field of twelve or
twenty bits that stands some places up and is sign-extended, so it is a
multiple of a power of two within a range that is symmetric but for the sign;
and any such number is read from some word, as the other fields and that one
can be put in a row.

The third law follows from these two. Fields that fit are those of some word,
and reading what they assemble to gives them back, because assembling gave
that word.
-/

namespace Rv32Soc.Isa

/-! ## Immediates in reach -/

/-- Where an immediate is a field counted in units, the immediates there are, are the multiples of
the unit within the range of the field. -/
theorem exists_field_iff {n : Nat} (hn : 0 < n) {place : BitVec n → Word} {unit : Int}
    (hplace : ∀ x, (place x).toInt = unit * x.toInt) (imm : Word) : (∃ x, place x = imm)
      ↔ ∃ i : Int, imm.toInt = unit * i ∧ -2 ^ (n - 1) ≤ i ∧ i < 2 ^ (n - 1) := by
  constructor
  · rintro ⟨x, rfl⟩
    exact ⟨x.toInt, hplace x, BitVec.le_toInt x, BitVec.toInt_lt⟩
  · rintro ⟨i, himm, hlow, hhigh⟩
    refine ⟨BitVec.ofInt n i, BitVec.eq_of_toInt_eq ?_⟩
    rw [hplace, BitVec.toInt_ofInt_eq_self hn hlow hhigh, himm]

theorem toInt_even {n : Nat} (hn : n + 1 ≤ 32) (x : BitVec n) :
    ((x ++ 0#1).signExtend 32).toInt = 2 * x.toInt := by
  rw [BitVec.toInt_signExtend_of_le hn, BitVec.toInt_append_zero]
  rfl

/-- The immediate of an I or an S word: a signed number of twelve bits. -/
def FitsI (imm : Word) : Prop :=
  -2048 ≤ imm.toInt ∧ imm.toInt ≤ 2047

/-- The offset of a B word: an even one of thirteen bits. -/
def FitsB (imm : Word) : Prop :=
  -4096 ≤ imm.toInt ∧ imm.toInt ≤ 4094 ∧ 2 ∣ imm.toInt

/-- The immediate of a U word: any number whose low twelve bits are zero. -/
def FitsU (imm : Word) : Prop :=
  4096 ∣ imm.toInt

/-- The offset of a J word: an even one of twenty-one bits. -/
def FitsJ (imm : Word) : Prop :=
  -1048576 ≤ imm.toInt ∧ imm.toInt ≤ 1048574 ∧ 2 ∣ imm.toInt

theorem fitsI_iff {imm : Word} : FitsI imm ↔ ∃ x : BitVec 12, x.signExtend 32 = imm := by
  have hplace (x : BitVec 12) : (x.signExtend 32).toInt = 1 * x.toInt := by
    rw [BitVec.toInt_signExtend_of_le (by decide), one_mul]
  rw [exists_field_iff (by decide) hplace]
  constructor
  · rintro ⟨hlow, hhigh⟩
    exact ⟨imm.toInt, by omega, by omega, by omega⟩
  · rintro ⟨i, himm, hlow, hhigh⟩
    exact ⟨by omega, by omega⟩

theorem fitsB_iff {imm : Word} : FitsB imm ↔ ∃ x : BitVec 12, (x ++ 0#1).signExtend 32 = imm := by
  rw [exists_field_iff (by decide) (toInt_even (by decide))]
  constructor
  · rintro ⟨hlow, hhigh, i, hi⟩
    exact ⟨i, hi, by omega, by omega⟩
  · rintro ⟨i, himm, hlow, hhigh⟩
    exact ⟨by omega, by omega, i, himm⟩

theorem fitsU_iff {imm : Word} : FitsU imm ↔ ∃ x : BitVec 20, x ++ 0#12 = imm := by
  rw [exists_field_iff (by decide) fun x : BitVec 20 => BitVec.toInt_append_zero]
  constructor
  · rintro ⟨i, hi⟩
    have hlow : -2 ^ 31 ≤ imm.toInt := BitVec.le_toInt imm
    have hhigh : imm.toInt < 2 ^ 31 := BitVec.toInt_lt
    exact ⟨i, hi, by omega, by omega⟩
  · rintro ⟨i, himm, -⟩
    exact ⟨i, himm⟩

theorem fitsJ_iff {imm : Word} : FitsJ imm ↔ ∃ x : BitVec 20, (x ++ 0#1).signExtend 32 = imm := by
  rw [exists_field_iff (by decide) (toInt_even (by decide))]
  constructor
  · rintro ⟨hlow, hhigh, i, hi⟩
    exact ⟨i, hi, by omega, by omega⟩
  · rintro ⟨i, himm, hlow, hhigh⟩
    exact ⟨by omega, by omega, i, himm⟩

/-! ## Words from fields

Each format has its word assembled from fields as the encoders do it. -/

/-- The R word of some fields. -/
def RType.toWord (f : RType) : Word :=
  assembleRS (f.funct7.setWidth 32) (f.rs2.setWidth 32) (f.rs1.setWidth 32)
    (f.funct3.setWidth 32) (f.rd.setWidth 32) (f.opcode.setWidth 32)

/-- The I word of some fields. -/
def IType.toWord (f : IType) : Word :=
  assembleI f.imm (f.rs1.setWidth 32) (f.funct3.setWidth 32) (f.rd.setWidth 32)
    (f.opcode.setWidth 32)

/-- The S word of some fields, with the immediate in two pieces. -/
def SType.toWord (f : SType) : Word :=
  assembleRS (splitS f.imm).1 (f.rs2.setWidth 32) (f.rs1.setWidth 32) (f.funct3.setWidth 32)
    (splitS f.imm).2 (f.opcode.setWidth 32)

/-- The B word of some fields, with the offset in two pieces. -/
def BType.toWord (f : BType) : Word :=
  assembleRS (splitB f.imm).1 (f.rs2.setWidth 32) (f.rs1.setWidth 32) (f.funct3.setWidth 32)
    (splitB f.imm).2 (f.opcode.setWidth 32)

/-- The immediate is shifted down as a signed number, which makes no difference: what a sign would
fill in is shifted out again. -/
def UType.toWord (f : UType) : Word :=
  assembleUJ (f.imm.sshiftRight 12) (f.rd.setWidth 32) (f.opcode.setWidth 32)

/-- The J word of some fields, with the bits of the offset in the order of the format. -/
def JType.toWord (f : JType) : Word :=
  assembleUJ (fieldJ f.imm) (f.rd.setWidth 32) (f.opcode.setWidth 32)

/-! ## Reading and assembling again -/

variable (word : Word)

theorem RType.toWord_ofWord : (RType.ofWord word).toWord = word :=
  (assembleRS_joinFields ..).trans (joinFields_word word)

theorem IType.toWord_ofWord : (IType.ofWord word).toWord = word :=
  (assembleI_joinFields ..).trans (joinFields_immI word)

theorem SType.toWord_ofWord : (SType.ofWord word).toWord = word := by
  rw [SType.toWord, SType.ofWord, splitS_immS]
  exact (assembleRS_joinFields ..).trans (joinFields_word word)

theorem BType.toWord_ofWord : (BType.ofWord word).toWord = word := by
  rw [BType.toWord, BType.ofWord, splitB_immB]
  exact (assembleRS_joinFields ..).trans (joinFields_word word)

/-- What a shift up drops may be filled in either way by the shift down. -/
theorem shiftLeft_sshiftRight (imm : Word) : imm.sshiftRight 12 <<< 12 = imm >>> 12 <<< 12 := by
  apply BitVec.eq_of_getLsbD_eq
  intro i hi
  rw [BitVec.getLsbD_shiftLeft, BitVec.getLsbD_shiftLeft, BitVec.getLsbD_sshiftRight,
    BitVec.getLsbD_ushiftRight]
  by_cases h : i < 12
  · simp [h]
  · have hplace : 12 + (i - 12) = i := by omega
    simp [hplace, hi, show ¬32 ≤ i - 12 by omega]

theorem assembleUJ_sshiftRight (imm d op : Word) :
    assembleUJ (imm.sshiftRight 12) d op = assembleUJ (imm >>> 12) d op := by
  rw [assembleUJ, shiftLeft_sshiftRight, assembleUJ]

/-- Of the immediate an upper word takes twenty bits. -/
theorem assembleUJ_cut (imm d op : Word) :
    assembleUJ (imm &&& 0xfffff) d op = assembleUJ imm d op := by
  rw [assembleUJ, show imm &&& 0xfffff = _ from and_allOnes_setWidth 20 imm, shiftLeft_cut,
    assembleUJ]

theorem UType.toWord_ofWord : (UType.ofWord word).toWord = word := by
  rw [UType.toWord, assembleUJ_sshiftRight, ← assembleUJ_cut, UType.ofWord, immU_pieces]
  exact (assembleUJ_joinUpper ..).trans (joinUpper_word word)

theorem JType.toWord_ofWord : (JType.ofWord word).toWord = word := by
  rw [JType.toWord, JType.ofWord, fieldJ_immJ]
  exact (assembleUJ_joinUpper ..).trans (joinUpper_word word)

/-! ## What can be read

All rows of fields are words, so every immediate in reach is read from some word. -/

section Rows

variable (r2 r1 : Reg) (f3 : BitVec 3) (d : Reg) (op : BitVec 7)

/-- A B word with a field of twelve bits in its pieces. -/
theorem immB_row (x : BitVec 12) :
    immB (joinFields (x.extractLsb' 11 1 ++ x.extractLsb' 4 6) r2 r1 f3
        (x.extractLsb' 0 4 ++ x.extractLsb' 10 1) op)
      = (x ++ 0#1).signExtend 32 := by
  rw [immB_joinFields]
  simp (disch := decide) only [BitVec.extractLsb'_append_eq_of_le,
    BitVec.extractLsb'_append_eq_of_add_le, Nat.reduceSub, BitVec.extractLsb'_eq_self,
    BitVec.extractLsb'_append_extractLsb'_eq_extractLsb']

/-- A J word with a field of twenty bits in its pieces. -/
theorem immJ_row (x : BitVec 20) :
    immJ (joinUpper (x.extractLsb' 19 1 ++ x.extractLsb' 0 10 ++ x.extractLsb' 10 1
        ++ x.extractLsb' 11 8) d op)
      = (x ++ 0#1).signExtend 32 := by
  rw [immJ_joinUpper]
  simp (disch := decide) only [BitVec.extractLsb'_append_eq_of_le,
    BitVec.extractLsb'_append_eq_of_add_le, Nat.reduceSub, BitVec.extractLsb'_eq_self,
    BitVec.extractLsb'_append_extractLsb'_eq_extractLsb']

theorem immU_row (x : BitVec 20) : immU (joinUpper x d op) = x ++ 0#12 := by
  rw [immU_joinUpper, ← BitVec.setWidth_eq (x ++ 0#12),
    BitVec.setWidth_append_eq_shiftLeft_setWidth_or]
  simp

end Rows

theorem RType.exists_ofWord (f : RType) : ∃ word, RType.ofWord word = f :=
  ⟨joinFields f.funct7 f.rs2 f.rs1 f.funct3 f.rd f.opcode, by simp [RType.ofWord]⟩

theorem IType.exists_ofWord_iff (f : IType) : (∃ word, IType.ofWord word = f) ↔ FitsI f.imm := by
  obtain ⟨imm, rs1, funct3, rd, opcode⟩ := f
  rw [fitsI_iff]
  constructor
  · rintro ⟨word, h⟩
    exact ⟨funct12 word, congrArg IType.imm h⟩
  · rintro ⟨x, rfl⟩
    refine ⟨joinFields (x.extractLsb' 5 7) (x.extractLsb' 0 5) rs1 funct3 rd opcode, ?_⟩
    simp [IType.ofWord, immI_joinFields, number_pieces]

theorem SType.exists_ofWord_iff (f : SType) : (∃ word, SType.ofWord word = f) ↔ FitsI f.imm := by
  obtain ⟨imm, rs2, rs1, funct3, opcode⟩ := f
  rw [fitsI_iff]
  constructor
  · rintro ⟨word, h⟩
    exact ⟨funct7 word ++ rd word, congrArg SType.imm h⟩
  · rintro ⟨x, rfl⟩
    refine ⟨joinFields (x.extractLsb' 5 7) rs2 rs1 funct3 (x.extractLsb' 0 5) opcode, ?_⟩
    simp [SType.ofWord, immS_joinFields, number_pieces]

theorem BType.exists_ofWord_iff (f : BType) : (∃ word, BType.ofWord word = f) ↔ FitsB f.imm := by
  obtain ⟨imm, rs2, rs1, funct3, opcode⟩ := f
  rw [fitsB_iff]
  constructor
  · rintro ⟨word, h⟩
    exact ⟨word.extractLsb' 31 1 ++ word.extractLsb' 7 1 ++ word.extractLsb' 25 6
      ++ word.extractLsb' 8 4, congrArg BType.imm h⟩
  · rintro ⟨x, rfl⟩
    refine ⟨joinFields (x.extractLsb' 11 1 ++ x.extractLsb' 4 6) rs2 rs1 funct3
      (x.extractLsb' 0 4 ++ x.extractLsb' 10 1) opcode, ?_⟩
    simp [BType.ofWord, immB_row]

theorem UType.exists_ofWord_iff (f : UType) : (∃ word, UType.ofWord word = f) ↔ FitsU f.imm := by
  obtain ⟨imm, rd, opcode⟩ := f
  rw [fitsU_iff]
  constructor
  · rintro ⟨word, h⟩
    have himm := immU_row (Isa.rd word) (Isa.opcode word) (word.extractLsb' 12 20)
    rw [joinUpper_word] at himm
    exact ⟨word.extractLsb' 12 20, himm.symm.trans (congrArg UType.imm h)⟩
  · rintro ⟨x, rfl⟩
    refine ⟨joinUpper x rd opcode, ?_⟩
    simp [UType.ofWord, immU_row]

theorem JType.exists_ofWord_iff (f : JType) : (∃ word, JType.ofWord word = f) ↔ FitsJ f.imm := by
  obtain ⟨imm, rd, opcode⟩ := f
  rw [fitsJ_iff]
  constructor
  · rintro ⟨word, h⟩
    exact ⟨word.extractLsb' 31 1 ++ word.extractLsb' 12 8 ++ word.extractLsb' 20 1
      ++ word.extractLsb' 21 10, congrArg JType.imm h⟩
  · rintro ⟨x, rfl⟩
    refine ⟨joinUpper (x.extractLsb' 19 1 ++ x.extractLsb' 0 10 ++ x.extractLsb' 10 1
      ++ x.extractLsb' 11 8) rd opcode, ?_⟩
    simp [JType.ofWord, immJ_row]

/-! ## Six formats -/

/-- A way of dividing words with the way back. Together they lose no bit of a word, and none of
fields that fit; and only fields that fit are read. -/
structure Lossless {α : Type} (read : Word → α) (assemble : α → Word) (Fits : α → Prop) :
    Prop where
  reassembled : ∀ word, assemble (read word) = word
  fits : ∀ word, Fits (read word)
  returned : ∀ fields, Fits fields → read (assemble fields) = fields

/-- Reading what was assembled gives the fields back, where these are the fields of a word. -/
theorem lossless_of_exists {α : Type} {read : Word → α} {assemble : α → Word} {Fits : α → Prop}
    (hassemble : ∀ word, assemble (read word) = word)
    (hread : ∀ fields, (∃ word, read word = fields) ↔ Fits fields) :
    Lossless read assemble Fits where
  reassembled := hassemble
  fits word := (hread _).mp ⟨word, rfl⟩
  returned fields h := by
    obtain ⟨word, rfl⟩ := (hread fields).mpr h
    rw [hassemble]

/-- No format loses anything, whatever the opcode: all thirty-two bits of a word come back from its
fields, and all fields that fit come back from the word. -/
theorem formats_lossless :
    Lossless RType.ofWord RType.toWord (fun _ => True)
      ∧ Lossless IType.ofWord IType.toWord (fun f => FitsI f.imm)
      ∧ Lossless SType.ofWord SType.toWord (fun f => FitsI f.imm)
      ∧ Lossless BType.ofWord BType.toWord (fun f => FitsB f.imm)
      ∧ Lossless UType.ofWord UType.toWord (fun f => FitsU f.imm)
      ∧ Lossless JType.ofWord JType.toWord (fun f => FitsJ f.imm) :=
  ⟨lossless_of_exists RType.toWord_ofWord fun f => iff_true_intro f.exists_ofWord,
    lossless_of_exists IType.toWord_ofWord IType.exists_ofWord_iff,
    lossless_of_exists SType.toWord_ofWord SType.exists_ofWord_iff,
    lossless_of_exists BType.toWord_ofWord BType.exists_ofWord_iff,
    lossless_of_exists UType.toWord_ofWord UType.exists_ofWord_iff,
    lossless_of_exists JType.toWord_ofWord JType.exists_ofWord_iff⟩

end Rv32Soc.Isa
