import Rv32Soc.Proofs.Results

/-!
# Jumps and branches

A jump or a taken branch goes to its target if the target is the address of a
word, and otherwise takes a trap that tells the target. The target is a sum of
integers, an address and an offset with a sign, cut to a word; for a jump
through a register it is also rounded down to an even number. Only a branch
that is taken has a target.

What is read is read before the link is written, so that a jump may link to
the register it goes through; and the target is looked at before that, so that
a jump that is refused has linked nothing.
-/

namespace Rv32Soc

namespace Isa

/-! ## Conditions -/

/-- The conditions of the branches, on the integers that words stand for. -/
def Branch.Condition : Branch → Word → Word → Prop
  | .beq, a, b => a = b
  | .bne, a, b => a ≠ b
  | .blt, a, b => a.toInt < b.toInt
  | .bge, a, b => b.toInt ≤ a.toInt
  | .bltu, a, b => a.toNat < b.toNat
  | .bgeu, a, b => b.toNat ≤ a.toNat

/-- How branches and comparisons compare two words. -/
structure Compares (a b : Word) : Prop where
  condition : ∀ cond : Branch, cond.holds a b = true ↔ cond.Condition a b
  bge : Branch.bge.holds a b = !Branch.blt.holds a b
  bgeu : Branch.bgeu.holds a b = !Branch.bltu.holds a b
  slt : Op.slt.eval a b = if Branch.blt.holds a b then 1 else 0
  sltu : Op.sltu.eval a b = if Branch.bltu.holds a b then 1 else 0

theorem holds_iff (cond : Branch) (a b : Word) : cond.holds a b = true ↔ cond.Condition a b := by
  cases cond with
  | beq => exact beq_iff_eq
  | bne => exact bne_iff_ne
  | blt => exact BitVec.slt_iff_toInt_lt
  | bge => exact BitVec.sle_iff_toInt_le
  | bltu => exact BitVec.ult_iff_toNat_lt
  | bgeu => exact BitVec.ule_iff_toNat_le

theorem compares_of_words (a b : Word) : Compares a b where
  condition cond := holds_iff cond a b
  bge := BitVec.sle_eq_not_slt
  bgeu := BitVec.ule_eq_not_ult b a
  slt := rfl
  sltu := rfl

/-! ## Targets -/

theorem add_eq_ofInt (a b : Word) : a + b = BitVec.ofInt 32 (a.toNat + b.toInt) := by
  rw [BitVec.ofInt_add, BitVec.ofInt_natCast, BitVec.ofNat_toNat, BitVec.setWidth_eq,
    BitVec.ofInt_toInt]

/-- To clear bit 0 is to round down to an even number, before or after the cut to a word. -/
theorem ofInt_and_not_one (x : Int) :
    BitVec.ofInt 32 x &&& ~~~1#32 = BitVec.ofInt 32 (x / 2 * 2) := by
  have hcleared : (BitVec.ofInt 32 x &&& ~~~1#32).toNat = (BitVec.ofInt 32 x).toNat / 2 * 2 :=
    toNat_and_not_lowBits _ 1
  apply BitVec.eq_of_toNat_eq
  rw [hcleared, BitVec.toNat_ofInt, BitVec.toNat_ofInt]
  omega

end Isa

namespace Hart

open Isa

variable {ε : Type}

/-- The pc is at a target, and the address of the next instruction in sequence is in the link
register, if there is one. -/
structure Arrives (h : Hart ε) (link? : Option Reg) (target : Word) (h' : Hart ε) : Prop where
  pc : h'.pc = target
  linked : ∀ dest, link? = some dest → dest ≠ 0 → h'.x dest = BitVec.ofNat 32 (h.pc.toNat + 4)
  others : ∀ r, link? ≠ some r → h'.x r = h.x r
  zero : h'.x 0 = h.x 0
  csr : h'.csr = h.csr
  pending : h'.pending = h.pending

/-- The hart after a jump to a target, with the address behind the jump linked. -/
def arrived (h : Hart ε) (link? : Option Reg) (target : Word) : Hart ε :=
  { h with
    pc := target
    registers := link?.elim h.registers (h.registers.set · (h.pc + 4)) }

theorem ofNat_add_four (pc : Word) : BitVec.ofNat 32 (pc.toNat + 4) = pc + 4 :=
  (BitVec.add_def pc 4).symm

theorem arrived_arrives (h : Hart ε) (b : Bus ε) (link? : Option Reg) (target : Word) :
    h.Arrives link? target ({ h with bus := b }.arrived link? target) where
  pc := rfl
  linked dest hlink hdest := by
    rw [ofNat_add_four, hlink]
    exact Registers.get_set hdest (h.pc + 4)
  others r hr := by
    cases link? with
    | none => rfl
    | some dest => exact h.registers.get_set_of_ne (fun heq => hr (congrArg some heq)) _
  zero := by
    cases link? with
    | none => rfl
    | some dest => exact h.registers.get_zero_set dest _
  csr := rfl
  pending := rfl

variable [Peripheral ε]

/-- The step goes to a target, or takes the trap for one that is no address of a word. -/
structure Goes (h : Hart ε) (link? : Option Reg) (target : Word) : Prop where
  arrives : target.toNat % 4 = 0 → h.step.1 = none ∧ h.Arrives link? target h.step.2
  refused : target.toNat % 4 ≠ 0 →
    h.step.1 = some (.exception (.instructionAddressMisaligned target))
      ∧ h.Rejected (.instructionAddressMisaligned target) h.step.2
      ∧ h.step.2.csr.mepc = h.pc ∧ h.step.2.csr.mbadaddr = target

/-- Where the step of a hart goes that executes a jump or a branch. -/
structure Transfers (h : Hart ε) (i : Instr) : Prop where
  jal : ∀ {dest offset}, i = .jal dest offset →
    h.Goes (some dest) (BitVec.ofInt 32 (h.pc.toNat + offset.toInt))
  jalr : ∀ {dest base offset}, i = .jalr dest base offset →
    h.Goes (some dest) (BitVec.ofInt 32 (((h.x base).toNat + offset.toInt) / 2 * 2))
  taken : ∀ {cond src1 src2 offset}, i = .branch cond src1 src2 offset →
    cond.Condition (h.x src1) (h.x src2) →
    h.Goes none (BitVec.ofInt 32 (h.pc.toNat + offset.toInt))
  passed : ∀ {cond src1 src2 offset}, i = .branch cond src1 src2 offset →
    ¬cond.Condition (h.x src1) (h.x src2) →
    h.step.1 = none ∧ h.Arrives none (BitVec.ofNat 32 (h.pc.toNat + 4)) h.step.2

section Begun

variable {h h₁ : Hart ε} {word : Word}

theorem arrives_of_run {link? : Option Reg} {target : Word}
    (hb : h.beginning? = some (word, h₁))
    (hrun : execute (Instr.decode word) word h₁ = .ok () (h₁.arrived link? target)) :
    h.step.1 = none ∧ h.Arrives link? target h.step.2 := by
  rw [step_of_retired hb hrun]
  obtain ⟨b, -, rfl⟩ := beginning?_eq_some hb
  exact ⟨rfl, arrived_arrives h _ link? target⟩

theorem goes_of_run {link? : Option Reg} {target : Word}
    (hb : h.beginning? = some (word, h₁))
    (hrun : execute (Instr.decode word) word h₁
      = if Width.Aligned .word target then .ok () (h₁.arrived link? target)
        else .error (.instructionAddressMisaligned target) h₁) :
    h.Goes link? target where
  arrives haligned := arrives_of_run hb (hrun.trans (if_pos haligned))
  refused hmisaligned := by
    obtain ⟨htrap, hrejected⟩ := rejected_of_run hb (hrun.trans (if_neg hmisaligned))
    refine ⟨htrap, hrejected, ?_⟩
    rw [hrejected.csr]
    exact ⟨rfl, rfl⟩

theorem jal_goes {dest : Reg} {offset : Word} (hb : h.beginning? = some (word, h₁))
    (hdecode : Instr.decode word = .jal dest offset) :
    h.Goes (some dest) (BitVec.ofInt 32 (h.pc.toNat + offset.toInt)) := by
  rw [← add_eq_ofInt, ← beginning_pc hb]
  refine goes_of_run hb ?_
  rw [hdecode]
  exact jumpAndLink_apply dest (h₁.pc + offset) h₁

theorem jalr_goes {dest base : Reg} {offset : Word} (hb : h.beginning? = some (word, h₁))
    (hdecode : Instr.decode word = .jalr dest base offset) :
    h.Goes (some dest) (BitVec.ofInt 32 (((h.x base).toNat + offset.toInt) / 2 * 2)) := by
  rw [← ofInt_and_not_one, ← add_eq_ofInt, ← beginning_x hb]
  refine goes_of_run hb ?_
  rw [hdecode]
  exact jumpAndLink_apply dest ((h₁.x base + offset) &&& ~~~1#32) h₁

section Branches

variable {cond : Branch} {src1 src2 : Reg} {offset : Word}

theorem execute_branch (hb : h.beginning? = some (word, h₁))
    (hdecode : Instr.decode word = .branch cond src1 src2 offset) :
    execute (Instr.decode word) word h₁
      = if cond.holds (h.x src1) (h.x src2) then jumpTo (h.pc + offset) h₁
        else .ok () (h₁.arrived none (h.pc + 4)) := by
  rw [hdecode, ← beginning_x hb, ← beginning_x hb, ← beginning_pc hb]
  exact executeBranch_apply cond src1 src2 offset h₁

theorem branch_taken (hb : h.beginning? = some (word, h₁))
    (hdecode : Instr.decode word = .branch cond src1 src2 offset)
    (hcondition : cond.Condition (h.x src1) (h.x src2)) :
    h.Goes none (BitVec.ofInt 32 (h.pc.toNat + offset.toInt)) := by
  rw [← add_eq_ofInt]
  refine goes_of_run hb ?_
  rw [execute_branch hb hdecode, if_pos ((holds_iff ..).mpr hcondition)]
  rfl

/-- A branch that is not taken does not look at its target. -/
theorem branch_passed (hb : h.beginning? = some (word, h₁))
    (hdecode : Instr.decode word = .branch cond src1 src2 offset)
    (hcondition : ¬cond.Condition (h.x src1) (h.x src2)) :
    h.step.1 = none ∧ h.Arrives none (BitVec.ofNat 32 (h.pc.toNat + 4)) h.step.2 := by
  rw [ofNat_add_four]
  refine arrives_of_run hb ?_
  rw [execute_branch hb hdecode, if_neg fun hholds => hcondition ((holds_iff ..).mp hholds)]

end Branches

end Begun

/-- Branches compare as integers do, and jumps and branches go to their targets. -/
theorem executed_transfers :
    (∀ a b : Word, Compares a b)
      ∧ ∀ (h : Hart ε) (i : Instr), h.executed? = some i → h.Transfers i := by
  refine ⟨compares_of_words, fun h i hexecuted => ?_⟩
  obtain ⟨word, h₁, hb, hdecode⟩ := executed?_eq_some hexecuted
  exact
    { jal := fun hi => jal_goes hb (hdecode.trans hi)
      jalr := fun hi => jalr_goes hb (hdecode.trans hi)
      taken := fun hi => branch_taken hb (hdecode.trans hi)
      passed := fun hi => branch_passed hb (hdecode.trans hi) }

/-- In front of `jalr x5, 10(x5)`, where the sum with the offset is 9. -/
def beforeJalr : Hart Empty :=
  inFrontOf [0xe7, 0x82, 0xa2, 0x00] (Registers.set {} 5 0xffffffff)

/-- In front of `bne x5, x0, 6`. -/
def beforeBne : Hart Empty :=
  inFrontOf [0x63, 0x93, 0x02, 0x00] (Registers.set {} 5 0xffffffff)

/-- In front of `beq x5, x0, 6`. -/
def beforeBeq : Hart Empty :=
  inFrontOf [0x63, 0x83, 0x02, 0x00] (Registers.set {} 5 0xffffffff)

theorem executed_transfers_even :
    Compares 0xffffffff 0
      ∧ beforeJalr.executed? = some (.jalr 5 5 10) ∧ beforeJalr.step.1 = none
      ∧ beforeJalr.Arrives (some 5) 8 beforeJalr.step.2
      ∧ beforeBne.executed? = some (.branch .bne 5 0 6)
      ∧ Branch.bne.Condition (beforeBne.x 5) (beforeBne.x 0)
      ∧ beforeBne.Rejected (.instructionAddressMisaligned 6) beforeBne.step.2
      ∧ beforeBeq.executed? = some (.branch .beq 5 0 6)
      ∧ ¬Branch.beq.Condition (beforeBeq.x 5) (beforeBeq.x 0) ∧ beforeBeq.step.1 = none
      ∧ beforeBeq.Arrives none 4 beforeBeq.step.2 := by
  obtain ⟨hcompares, htransfers⟩ := executed_transfers (ε := Empty)
  have hjalr : beforeJalr.executed? = some (.jalr 5 5 10) := by decide +kernel
  have hbne : beforeBne.executed? = some (.branch .bne 5 0 6) := by decide +kernel
  have hbeq : beforeBeq.executed? = some (.branch .beq 5 0 6) := by decide +kernel
  have hunequal : Branch.bne.Condition (beforeBne.x 5) (beforeBne.x 0) := by
    show beforeBne.x 5 ≠ beforeBne.x 0
    decide +kernel
  have hnot : ¬Branch.beq.Condition (beforeBeq.x 5) (beforeBeq.x 0) := by
    show ¬beforeBeq.x 5 = beforeBeq.x 0
    decide +kernel
  have hjumped := ((htransfers beforeJalr _ hjalr).jalr rfl).arrives (by decide +kernel)
  have hrefused := ((htransfers beforeBne _ hbne).taken rfl hunequal).refused (by decide +kernel)
  have hpassed := (htransfers beforeBeq _ hbeq).passed rfl hnot
  exact ⟨hcompares _ _, hjalr, hjumped.1, hjumped.2, hbne, hunequal, hrefused.2.1, hbeq, hnot,
    hpassed.1, hpassed.2⟩

end Hart

end Rv32Soc
