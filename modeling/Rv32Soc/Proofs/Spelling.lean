import Rv32Soc.Proofs.Codec

/-!
# Which words are instructions

A word spells an instruction if it is the code that the encoder gives, except
for bits that decoding does not look at. What a word decodes to it spells; and
a word that spells any instruction decodes to one. So the words that decode to
nothing are exactly those that no encoder can give.

For the first half the fields of the word are put back in a row. The operands
that were read are those fields, the tables turn a member back into the code
it was found by, and the row of the fields of a word is the word. For the
second half the ignored bits are cut off field by field, which leaves every
field that decoding looks at.
-/

namespace Rv32Soc.Isa

/-! ## Words of an instruction -/

/-- The bits that decoding a word into this instruction does not look at. -/
def Instr.ignoredBits : Instr → Word
  | loadReserved _ _ => 0x07f00000
  | storeConditional _ _ _ | amo _ _ _ _ => 0x06000000
  | scall | sbreak | eret => 0x000f8f80
  | _ => 0

/-- The word is the code of an instruction, with anything in the ignored bits. -/
def Instr.Spells (i : Instr) (word : Word) : Prop :=
  i.isIllegal = false ∧ i.encode = word &&& ~~~i.ignoredBits

theorem Instr.spells_of_encode {i : Instr} {word : Word} (hlegal : i.isIllegal = false)
    (hall : i.ignoredBits = 0) (h : i.encode = word) : i.Spells word := by
  refine ⟨hlegal, ?_⟩
  rw [h, hall]
  exact BitVec.and_allOnes.symm

/-- Where no bits are ignored the word is the code. -/
theorem Instr.Spells.eq_encode {i : Instr} {word : Word} (h : i.Spells word)
    (hall : i.ignoredBits = 0) : word = i.encode := by
  rw [h.2, hall]
  exact BitVec.and_allOnes.symm

section Words

variable {word : Word}

theorem assembleUJ_word {op : BitVec 7} (hop : opcode word = op) :
    assembleUJ ((word.extractLsb' 12 20).setWidth 32) (Encode.widen ((rd word).setWidth 8))
      (Encode.widen op) = word := by
  rw [Encode.widen_register, ← hop]
  exact (assembleUJ_joinUpper ..).trans (joinUpper_word word)

theorem assembleUJ_immU {op : BitVec 7} (hop : opcode word = op) :
    assembleUJ (immU word >>> 12 &&& 0xfffff) (Encode.widen ((rd word).setWidth 8))
      (Encode.widen op) = word := by
  rw [immU_pieces]
  exact assembleUJ_word hop

theorem lui_spells (hop : opcode word = Major.lui.code) :
    (Major.lui.decode word).Spells word :=
  Instr.spells_of_encode rfl rfl (assembleUJ_immU hop)

theorem auipc_spells (hop : opcode word = Major.auipc.code) :
    (Major.auipc.decode word).Spells word :=
  Instr.spells_of_encode rfl rfl (assembleUJ_immU hop)

theorem jal_spells (hop : opcode word = Major.jal.code) :
    (Major.jal.decode word).Spells word := by
  refine Instr.spells_of_encode rfl rfl ?_
  show assembleUJ (fieldJ (immJ word)) _ _ = word
  rw [fieldJ_immJ]
  exact assembleUJ_word hop

theorem jalr_spells (hop : opcode word = Major.jalr.code) :
    Major.jalr.decode word = .illegal word ∨ (Major.jalr.decode word).Spells word := by
  rw [Major.decode]
  split
  · next hminor =>
      right
      refine Instr.spells_of_encode rfl rfl ?_
      rw [Instr.encode, Encode.jalr_row, ← hop, ← hminor]
      exact joinFields_immI word
  · next hminor => exact .inl rfl

theorem branch_spells (hop : opcode word = Major.branch.code) :
    decodeBranch word = .illegal word ∨ (decodeBranch word).Spells word := by
  simp only [decodeBranch, BType.ofWord]
  split
  · next cond hcond =>
      right
      refine Instr.spells_of_encode rfl rfl ?_
      rw [Instr.encode, Encode.branch, splitB_immB, Encode.widen_register,
        Encode.widen_register, Branch.ofFunct3?_eq_some.mp hcond, ← hop]
      exact (assembleRS_joinFields ..).trans (joinFields_word word)
  · next hnone => exact .inl rfl

theorem load_spells (hop : opcode word = Major.load.code) :
    decodeLoad word = .illegal word ∨ (decodeLoad word).Spells word := by
  simp only [decodeLoad, IType.ofWord]
  split
  · next kind hkind =>
      right
      refine Instr.spells_of_encode rfl rfl ?_
      rw [Instr.encode, Encode.load_row, Load.ofFunct3?_eq_some.mp hkind, ← hop]
      exact joinFields_immI word
  · next hnone => exact .inl rfl

theorem store_spells (hop : opcode word = Major.store.code) :
    decodeStore word = .illegal word ∨ (decodeStore word).Spells word := by
  simp only [decodeStore, SType.ofWord]
  split
  · next width hwidth =>
      right
      refine Instr.spells_of_encode rfl rfl ?_
      rw [Instr.encode, Encode.store, splitS_immS, Encode.widen_register,
        Encode.widen_register, storeWidth?_eq_some.mp hwidth, ← hop]
      exact (assembleRS_joinFields ..).trans (joinFields_word word)
  · next hnone => exact .inl rfl

theorem opImm_spells (hop : opcode word = Major.opImm.code) :
    decodeOpImm word = .illegal word ∨ (decodeOpImm word).Spells word := by
  simp only [decodeOpImm, IType.ofWord]
  split
  · next f hf =>
      right
      refine Instr.spells_of_encode rfl rfl ?_
      rw [Instr.encode, Encode.opImm_row, OpImm.ofFunct3?_eq_some.mp hf, ← hop]
      exact joinFields_immI word
  · next hminor =>
      split
      · next f hf =>
          obtain ⟨hfunct3, hupper⟩ := ShiftImm.ofCodes?_eq_some.mp hf
          right
          refine Instr.spells_of_encode rfl rfl ?_
          rw [Instr.encode, Encode.shiftImm_row, hfunct3, hupper, ← hop]
          exact joinFields_word word
      · next hnone => exact .inl rfl

theorem op_spells (hop : opcode word = Major.op.code) :
    decodeOp word = .illegal word ∨ (decodeOp word).Spells word := by
  simp only [decodeOp, RType.ofWord]
  split
  · next f hf =>
      obtain ⟨hfunct7, hfunct3⟩ := Op.ofCodes?_eq_some.mp hf
      right
      refine Instr.spells_of_encode rfl rfl ?_
      rw [Instr.encode, Encode.op_row, hfunct7, hfunct3, ← hop]
      exact joinFields_word word
  · next hnone => exact .inl rfl

end Words

/-! ## Cutting off the ignored bits -/

section Ignored

variable {word : Word}

/-- An atomic word without its ordering bits. -/
theorem cut_order (word : Word) :
    word &&& ~~~0x06000000
      = joinFields ((funct7 word).extractLsb' 2 5 ++ 0#2) (rs2 word) (rs1 word) (funct3 word)
          (rd word) (opcode word) := by
  have hmask : ~~~(0x06000000 : Word)
      = joinFields (BitVec.allOnes 5 ++ 0#2) (BitVec.allOnes 5) (BitVec.allOnes 5)
          (BitVec.allOnes 3) (BitVec.allOnes 5) (BitVec.allOnes 7) := by decide
  rw [hmask, and_joinFields, funct7_cut]
  simp only [BitVec.and_allOnes]

/-- An atomic word without its ordering bits and its second source. -/
theorem cut_orderSource (word : Word) :
    word &&& ~~~0x07f00000
      = joinFields ((funct7 word).extractLsb' 2 5 ++ 0#2) 0 (rs1 word) (funct3 word)
          (rd word) (opcode word) := by
  have hmask : ~~~(0x07f00000 : Word)
      = joinFields (BitVec.allOnes 5 ++ 0#2) 0 (BitVec.allOnes 5)
          (BitVec.allOnes 3) (BitVec.allOnes 5) (BitVec.allOnes 7) := by decide
  rw [hmask, and_joinFields, funct7_cut, show rs2 word &&& 0 = 0 from BitVec.and_zero]
  simp only [BitVec.and_allOnes]

/-- A system word without its registers. -/
theorem cut_registers (word : Word) :
    word &&& ~~~0x000f8f80
      = joinFields (funct7 word) (rs2 word) 0 (funct3 word) 0 (opcode word) := by
  have hmask : ~~~(0x000f8f80 : Word)
      = joinFields (BitVec.allOnes 7) (BitVec.allOnes 5) 0 (BitVec.allOnes 3) 0
          (BitVec.allOnes 7) := by decide
  rw [hmask, and_joinFields, show rs1 word &&& 0 = 0 from BitVec.and_zero,
    show rd word &&& 0 = 0 from BitVec.and_zero]
  simp only [BitVec.and_allOnes]

theorem atomic_spells (hop : opcode word = Major.amo.code) :
    decodeAtomic word = .illegal word ∨ (decodeAtomic word).Spells word := by
  by_cases hminor : funct3 word = atomicFunct3
  · by_cases hreserved : (funct7 word).extractLsb' 2 5 = loadReservedFunct5
    · right
      rw [decodeAtomic_loadReserved hminor hreserved]
      refine ⟨rfl, ?_⟩
      show Encode.loadReserved _ _ = word &&& ~~~0x07f00000
      rw [Encode.loadReserved_row, cut_orderSource, hop, hminor, hreserved]
    · by_cases hconditional : (funct7 word).extractLsb' 2 5 = storeConditionalFunct5
      · right
        rw [decodeAtomic_storeConditional hminor hconditional]
        refine ⟨rfl, ?_⟩
        show Encode.storeConditional _ _ _ = word &&& ~~~0x06000000
        rw [Encode.storeConditional_row, cut_order, hop, hminor, hconditional]
      · cases hcode : Amo.ofFunct5? ((funct7 word).extractLsb' 2 5) with
        | some f =>
            have hfunct5 := (Amo.ofFunct5?_eq_some.mp hcode).symm
            right
            rw [decodeAtomic_amo hminor hfunct5]
            refine ⟨rfl, ?_⟩
            show Encode.amo _ _ _ _ = word &&& ~~~0x06000000
            rw [Encode.amo_row, cut_order, hop, hminor, hfunct5]
        | none =>
            left
            simp only [decodeAtomic, RType.ofWord, hcode]
            exact (if_pos hminor).trans ((if_neg hreserved).trans (if_neg hconditional))
  · exact .inl (if_neg hminor)

theorem named_spells {i : Instr} {number : BitVec 12} (hop : opcode word = Major.system.code)
    (hminor : funct3 word = 0) (hnumber : funct12 word = number) (hlegal : i.isIllegal = false)
    (hbits : i.ignoredBits = 0x000f8f80) (hencode : i.encode = Encode.system number) :
    i.Spells word := by
  refine ⟨hlegal, ?_⟩
  obtain ⟨hhigh, hlow⟩ := funct12_pieces word
  rw [hencode, Encode.system_row, hbits, cut_registers, ← hnumber, hhigh, hlow, hminor, hop]

theorem csr_spells (f : CsrOp) (hop : opcode word = Major.system.code)
    (hminor : funct3 word = f.funct3) :
    (Instr.csr f (rd word) (rs1 word) (funct12 word)).Spells word := by
  refine Instr.spells_of_encode rfl rfl ?_
  rw [Instr.encode, Encode.csr_row, ← hop, ← hminor]
  exact joinFields_funct12 word

theorem csrImm_spells (f : CsrOp) (hop : opcode word = Major.system.code)
    (hminor : funct3 word = f.immFunct3) :
    (Instr.csrImm f (rd word) (rs1 word) (funct12 word)).Spells word := by
  refine Instr.spells_of_encode rfl rfl ?_
  rw [Instr.encode, Encode.csrImm_row, ← hop, ← hminor]
  exact joinFields_funct12 word

theorem system_spells (hop : opcode word = Major.system.code) :
    decodeSystem word = .illegal word ∨ (decodeSystem word).Spells word := by
  simp only [decodeSystem, IType.ofWord]
  split
  · next hminor =>
      split
      · next hnumber => exact .inr (named_spells hop hminor hnumber rfl rfl rfl)
      · next hscall =>
          split
          · next hnumber => exact .inr (named_spells hop hminor hnumber rfl rfl rfl)
          · next hsbreak =>
              split
              · next hnumber => exact .inr (named_spells hop hminor hnumber rfl rfl rfl)
              · next heret => exact .inl rfl
  · next hminor => exact .inr (csr_spells .write hop hminor)
  · next hminor => exact .inr (csr_spells .set hop hminor)
  · next hminor => exact .inr (csr_spells .clear hop hminor)
  · next hminor => exact .inr (csrImm_spells .write hop hminor)
  · next hminor => exact .inr (csrImm_spells .set hop hminor)
  · next hminor => exact .inr (csrImm_spells .clear hop hminor)
  · next hreserved => exact .inl rfl

end Ignored

/-- What a word decodes to it spells. -/
theorem decode_spells (word : Word) :
    Instr.decode word = .illegal word ∨ (Instr.decode word).Spells word := by
  by_cases hmajor : ∃ m : Major, opcode word = m.code
  · obtain ⟨m, hop⟩ := hmajor
    rw [decode_of_opcode hop]
    cases m with
    | load => exact load_spells hop
    | opImm => exact opImm_spells hop
    | auipc => exact .inr (auipc_spells hop)
    | store => exact store_spells hop
    | amo => exact atomic_spells hop
    | op => exact op_spells hop
    | lui => exact .inr (lui_spells hop)
    | branch => exact branch_spells hop
    | jalr => exact jalr_spells hop
    | jal => exact .inr (jal_spells hop)
    | system => exact system_spells hop
  · left
    exact decode_of_no_opcode fun m hop => hmajor ⟨m, hop⟩

theorem eq_encode_of_decode {word : Word} {i : Instr} (hdecode : Instr.decode word = i)
    (hlegal : i.isIllegal = false) (hall : i.ignoredBits = 0) : word = i.encode := by
  subst hdecode
  rcases decode_spells word with hillegal | hspells
  · rw [hillegal] at hlegal
    cases hlegal
  · exact hspells.eq_encode hall

/-! ## A word that spells an instruction is decoded -/

section Spelt

variable {word : Word}

theorem legal_of_encode {i j : Instr} (h : i.Spells word) (hall : i.ignoredBits = 0)
    (hdecode : Instr.decode i.encode = j) (hlegal : j.isIllegal = false) :
    (Instr.decode word).isIllegal = false := by
  rw [h.eq_encode hall, hdecode]
  exact hlegal

theorem atomic_fields {code : BitVec 5} {r2 src base dest : Reg}
    (h : joinFields ((funct7 word).extractLsb' 2 5 ++ 0#2) r2 (rs1 word) (funct3 word) (rd word)
        (opcode word)
      = joinFields (code ++ 0#2) src base atomicFunct3 dest Major.amo.code) :
    opcode word = Major.amo.code ∧ funct3 word = atomicFunct3
      ∧ (funct7 word).extractLsb' 2 5 = code := by
  have hop := congrArg opcode h
  have hminor := congrArg funct3 h
  have hcode := congrArg (BitVec.extractLsb' 2 5) (congrArg funct7 h)
  rw [opcode_joinFields, opcode_joinFields] at hop
  rw [funct3_joinFields, funct3_joinFields] at hminor
  rw [funct5_joinFields, funct5_joinFields] at hcode
  exact ⟨hop, hminor, hcode⟩

theorem system_fields {number : BitVec 12}
    (h : Encode.system number = word &&& ~~~0x000f8f80) :
    opcode word = Major.system.code ∧ funct3 word = 0 ∧ funct12 word = number := by
  rw [Encode.system_row, cut_registers] at h
  have hop := congrArg opcode h
  have hminor := congrArg funct3 h
  have hnumber := congrArg funct12 h
  rw [opcode_joinFields, opcode_joinFields] at hop
  rw [funct3_joinFields, funct3_joinFields] at hminor
  obtain ⟨hhigh, hlow⟩ := funct12_pieces word
  rw [funct12_joinFields, funct12_joinFields, number_pieces, ← hhigh, ← hlow,
    number_pieces] at hnumber
  exact ⟨hop.symm, hminor.symm, hnumber.symm⟩

theorem legal_of_system {number : BitVec 12} (h : Encode.system number = word &&& ~~~0x000f8f80)
    (hknown : number = scallFunct12 ∨ number = sbreakFunct12 ∨ number = eretFunct12) :
    (Instr.decode word).isIllegal = false := by
  obtain ⟨hop, hminor, hnumber⟩ := system_fields h
  rw [decode_of_opcode hop, Major.decode]
  simp only [decodeSystem, IType.ofWord, hminor, hnumber]
  rcases hknown with rfl | rfl | rfl <;> rfl

/-- A word that spells an instruction is decoded to one. -/
theorem legal_of_spells {i : Instr} (h : i.Spells word) :
    (Instr.decode word).isIllegal = false := by
  cases i with
  | lui dest imm => exact legal_of_encode h rfl (decode_lui ..) rfl
  | auipc dest imm => exact legal_of_encode h rfl (decode_auipc ..) rfl
  | jal dest offset => exact legal_of_encode h rfl (decode_jal ..) rfl
  | jalr dest base offset => exact legal_of_encode h rfl (decode_jalr ..) rfl
  | branch cond src1 src2 offset => exact legal_of_encode h rfl (decode_branch ..) rfl
  | load kind dest base offset => exact legal_of_encode h rfl (decode_load ..) rfl
  | store width src base offset => exact legal_of_encode h rfl (decode_store ..) rfl
  | opImm f dest src imm => exact legal_of_encode h rfl (decode_opImm ..) rfl
  | shiftImm f dest src amount => exact legal_of_encode h rfl (decode_shiftImm ..) rfl
  | op f dest src1 src2 => exact legal_of_encode h rfl (decode_op ..) rfl
  | csr f dest src number => exact legal_of_encode h rfl (decode_csr ..) rfl
  | csrImm f dest value number => exact legal_of_encode h rfl (decode_csrImm ..) rfl
  | loadReserved dest base =>
      have hrow := (Encode.loadReserved_row dest base).symm.trans h.2
      obtain ⟨hop, hminor, hcode⟩ := atomic_fields ((cut_orderSource word).symm.trans hrow.symm)
      rw [decode_of_opcode hop, Major.decode, decodeAtomic_loadReserved hminor hcode]
      rfl
  | storeConditional dest base src =>
      have hrow := (Encode.storeConditional_row dest base src).symm.trans h.2
      obtain ⟨hop, hminor, hcode⟩ := atomic_fields ((cut_order word).symm.trans hrow.symm)
      rw [decode_of_opcode hop, Major.decode, decodeAtomic_storeConditional hminor hcode]
      rfl
  | amo f dest base src =>
      have hrow := (Encode.amo_row dest base src f).symm.trans h.2
      obtain ⟨hop, hminor, hcode⟩ := atomic_fields ((cut_order word).symm.trans hrow.symm)
      rw [decode_of_opcode hop, Major.decode, decodeAtomic_amo hminor hcode]
      rfl
  | scall => exact legal_of_system h.2 (.inl rfl)
  | sbreak => exact legal_of_system h.2 (.inr (.inl rfl))
  | eret => exact legal_of_system h.2 (.inr (.inr rfl))
  | illegal word => exact Bool.noConfusion h.1

end Spelt

/-! ## Both directions -/

/-- Encoder and decoder are inverse. Register numbers, shift amounts and the numbers of control
registers range over what fits their fields; immediates are any words, and what comes back of
them is written out. Of a decoded word only the ignored bits are lost. -/
structure InverseCodec : Prop where
  lui : ∀ (dest : Reg) (imm : Word),
    Instr.decode (Encode.lui (dest.setWidth 8) imm) = .lui dest (imm <<< 12)
  auipc : ∀ (dest : Reg) (imm : Word),
    Instr.decode (Encode.auipc (dest.setWidth 8) imm) = .auipc dest (imm <<< 12)
  jal : ∀ (dest : Reg) (offset : Word),
    Instr.decode (Encode.jal (dest.setWidth 8) offset)
      = .jal dest (signExtendFrom offset 20 &&& ~~~1#32)
  jalr : ∀ (dest base : Reg) (offset : Word),
    Instr.decode (Encode.jalr (dest.setWidth 8) (base.setWidth 8) offset)
      = .jalr dest base (signExtendFrom offset 11)
  branch : ∀ (cond : Branch) (src1 src2 : Reg) (offset : Word),
    Instr.decode (Encode.branch cond (src1.setWidth 8) (src2.setWidth 8) offset)
      = .branch cond src1 src2 (signExtendFrom offset 12 &&& ~~~1#32)
  load : ∀ (kind : Load) (dest base : Reg) (offset : Word),
    Instr.decode (Encode.load kind (dest.setWidth 8) (base.setWidth 8) offset)
      = .load kind dest base (signExtendFrom offset 11)
  store : ∀ (width : Width) (src base : Reg) (offset : Word),
    Instr.decode (Encode.store width (src.setWidth 8) (base.setWidth 8) offset)
      = .store width src base (signExtendFrom offset 11)
  opImm : ∀ (f : OpImm) (dest src : Reg) (imm : Word),
    Instr.decode (Encode.opImm f (dest.setWidth 8) (src.setWidth 8) imm)
      = .opImm f dest src (signExtendFrom imm 11)
  shiftImm : ∀ (f : ShiftImm) (dest src : Reg) (amount : BitVec 5),
    Instr.decode (Encode.shiftImm f (dest.setWidth 8) (src.setWidth 8) (amount.setWidth 32))
      = .shiftImm f dest src amount
  op : ∀ (f : Op) (dest src1 src2 : Reg),
    Instr.decode (Encode.op f (dest.setWidth 8) (src1.setWidth 8) (src2.setWidth 8))
      = .op f dest src1 src2
  loadReserved : ∀ dest base : Reg,
    Instr.decode (Encode.loadReserved (dest.setWidth 8) (base.setWidth 8))
      = .loadReserved dest base
  storeConditional : ∀ dest base src : Reg,
    Instr.decode (Encode.storeConditional (dest.setWidth 8) (base.setWidth 8) (src.setWidth 8))
      = .storeConditional dest base src
  amo : ∀ (f : Amo) (dest base src : Reg),
    Instr.decode (Encode.amo f (dest.setWidth 8) (base.setWidth 8) (src.setWidth 8))
      = .amo f dest base src
  scall : Instr.decode (Encode.system scallFunct12) = .scall
  sbreak : Instr.decode (Encode.system sbreakFunct12) = .sbreak
  eret : Instr.decode (Encode.system eretFunct12) = .eret
  csr : ∀ (f : CsrOp) (dest src : Reg) (number : BitVec 12),
    Instr.decode (Encode.csr f (dest.setWidth 8) (src.setWidth 8) (number.setWidth 16))
      = .csr f dest src number
  csrImm : ∀ (f : CsrOp) (dest : Reg) (value : BitVec 5) (number : BitVec 12),
    Instr.decode (Encode.csrImm f (dest.setWidth 8) (value.setWidth 8) (number.setWidth 16))
      = .csrImm f dest value number
  /-- What decodes is written back, the ignored bits cleared. -/
  legal : ∀ word, Instr.decode word ≠ .illegal word →
    (Instr.decode word).isIllegal = false
      ∧ (Instr.decode word).encode = word &&& ~~~(Instr.decode word).ignoredBits
  /-- What no encoder can give, up to ignored bits, does not decode; and nothing else. -/
  illegal : ∀ word, Instr.decode word = .illegal word ↔
    ∀ i : Instr, i.isIllegal = false → i.encode ≠ word &&& ~~~i.ignoredBits

/-- Encoder and decoder are inverse over the whole instruction set. -/
theorem codec_inverse : InverseCodec where
  lui := decode_lui
  auipc := decode_auipc
  jal := decode_jal
  jalr := decode_jalr
  branch := fun cond src1 src2 offset => decode_branch src1 src2 offset cond
  load := fun kind dest base offset => decode_load dest base offset kind
  store := fun width src base offset => decode_store base src offset width
  opImm := fun f dest src imm => decode_opImm dest src imm f
  shiftImm := fun f dest src amount => decode_shiftImm dest src amount f
  op := fun f dest src1 src2 => decode_op dest src1 src2 f
  loadReserved := decode_loadReserved
  storeConditional := decode_storeConditional
  amo := fun f dest base src => decode_amo dest base src f
  scall := decode_scall
  sbreak := decode_sbreak
  eret := decode_eret
  csr := fun f dest src number => decode_csr dest src number f
  csrImm := fun f dest value number => decode_csrImm dest value number f
  legal := fun word hne => (decode_spells word).resolve_left hne
  illegal := by
    intro word
    constructor
    · intro hillegal i hlegal hencode
      have hdecoded := legal_of_spells ⟨hlegal, hencode⟩
      rw [hillegal] at hdecoded
      exact Bool.noConfusion hdecoded
    · intro hnone
      cases decode_spells word with
      | inl hillegal => exact hillegal
      | inr hspells => exact absurd hspells.2 (hnone _ hspells.1)

/-- An exchange with both ordering bits set comes back without them. -/
example : Instr.decode 0x0e7322af = .amo .swap 5 6 7
    ∧ (Instr.amo .swap 5 6 7).encode = 0x087322af := by
  decide

end Rv32Soc.Isa
