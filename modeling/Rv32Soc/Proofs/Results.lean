import Rv32Soc.Proofs.Arithmetic
import Rv32Soc.Proofs.Codec
import Rv32Soc.Proofs.Footprints

/-!
# Results of instructions

Most instructions work out one word, put it into their destination and go on
to the next. What that does to the hart is said here once, so that of each
family of them only the word is left to tell. The operands are those of before
the step, whether or not the destination is among them.

An instruction that fails before it has changed anything does the same
whatever it is: the trap is entered, and that is all.
-/

namespace Rv32Soc.Hart

open Isa

variable {ε : Type}

/-- A result is in its register and all other registers are as before. Register 0 takes no
result. -/
structure Receives (h : Hart ε) (dest : Reg) (value : Word) (h' : Hart ε) : Prop where
  result : dest ≠ 0 → h'.x dest = value
  others : ∀ r, r ≠ dest → h'.x r = h.x r
  zero : h'.x 0 = h.x 0
  csr : h'.csr = h.csr
  pending : h'.pending = h.pending
  pc : h'.pc = h.pc + 4

theorem finished_receives (h : Hart ε) (b : Bus ε) (dest : Reg) (value : Word) :
    h.Receives dest value ({ h with bus := b }.finished dest value) where
  result hdest := Registers.get_set hdest value
  others _ hr := h.registers.get_set_of_ne hr.symm value
  zero := h.registers.get_zero_set dest value
  csr := rfl
  pending := rfl
  pc := rfl

/-- The destination and the result of an instruction that only computes. -/
def computed? (h : Hart ε) : Instr → Option (Reg × Word)
  | .lui dest imm => some (dest, imm)
  | .auipc dest imm => some (dest, h.pc + imm)
  | .opImm op dest src imm => some (dest, op.toOp.eval (h.x src) imm)
  | .shiftImm op dest src amount => some (dest, op.toOp.eval (h.x src) (amount.setWidth 32))
  | .op op dest src1 src2 => some (dest, op.eval (h.x src1) (h.x src2))
  | _ => none

variable [Peripheral ε]

/-- The step retires an instruction that puts a value into a register. -/
def Yields (h : Hart ε) (dest : Reg) (value : Word) : Prop :=
  h.step.1 = none ∧ h.Receives dest value h.step.2

/-- A trap has been entered for an exception, and beyond that nothing has happened but the fetch. -/
structure Rejected (h : Hart ε) (e : Exception) (h' : Hart ε) : Prop where
  pc : h'.pc = trapVector
  csr : h'.csr =
    { h.csr with
      mepc := h.pc
      mcause := e.cause
      mbadaddr := e.badAddress?.getD h.csr.mbadaddr
      previous := h.csr.ie
      ie := false }
  registers : h'.registers = h.registers
  pending : h'.pending = h.pending
  bus : ∃ word b, Bus.fetch h.pc h.bus = .ok word b
    ∧ h'.bus = (b.note (.fetched h.pc word)).note (.trapped h.pc (.exception e))

theorem execute_computed {h : Hart ε} {i : Instr} {dest : Reg} {value : Word}
    (hcomputed : h.computed? i = some (dest, value)) (word : Word) :
    execute i word h = .ok () (h.finished dest value) := by
  cases i with
  | lui | auipc | opImm | shiftImm | op => cases hcomputed; rfl
  | _ => cases hcomputed

section Begun

variable {h h₁ : Hart ε} {word : Word}

theorem step_of_retired {h' : Hart ε} (hb : h.beginning? = some (word, h₁))
    (hrun : execute (Instr.decode word) word h₁ = .ok () h') : h.step = (none, h') := by
  rw [step_of_beginning hb, hrun]

/-- Once an instruction is begun, what it finishes on the hart as it began is received by the hart
as it was before the fetch. -/
theorem receives_of_finished {dest : Reg} {value : Word} {b : Bus ε}
    (hb : h.beginning? = some (word, h₁))
    (hrun : execute (Instr.decode word) word h₁
      = .ok () ({ h₁ with bus := b }.finished dest value)) :
    h.step.1 = none ∧ h.Receives dest value h.step.2 ∧ h.step.2.bus = b := by
  obtain ⟨b₁, -, rfl⟩ := beginning?_eq_some hb
  rw [step_of_retired hb hrun]
  exact ⟨rfl, finished_receives h b dest value, rfl⟩

theorem computed_yields {dest : Reg} {value : Word} (hb : h.beginning? = some (word, h₁))
    (hcomputed : h.computed? (Instr.decode word) = some (dest, value)) : h.Yields dest value := by
  have hsame : h₁.computed? (Instr.decode word) = h.computed? (Instr.decode word) := by
    obtain ⟨b, -, rfl⟩ := beginning?_eq_some hb
    rfl
  obtain ⟨hretired, hreceives, -⟩ :=
    receives_of_finished hb (execute_computed (hsame.trans hcomputed) word)
  exact ⟨hretired, hreceives⟩

theorem op_receives {op : Op} {dest src1 src2 : Reg} (hb : h.beginning? = some (word, h₁))
    (hdecode : Instr.decode word = .op op dest src1 src2) :
    h.step.1 = none ∧ h.Receives dest (op.eval (h.x src1) (h.x src2)) h.step.2 :=
  computed_yields hb (by rw [hdecode]; rfl)

/-- An instruction that fails on the hart as it began is rejected. -/
theorem rejected_of_run {e : Exception} (hb : h.beginning? = some (word, h₁))
    (hrun : execute (Instr.decode word) word h₁ = .error e h₁) :
    h.step.1 = some (.exception e) ∧ h.Rejected e h.step.2 := by
  rw [step_of_beginning hb, hrun]
  obtain ⟨b, hfetch, rfl⟩ := beginning?_eq_some hb
  have hcause : (Trap.exception e).mcause = e.cause := BitVec.zero_or
  refine ⟨rfl, rfl, ?_, rfl, rfl, word, b, hfetch, rfl⟩
  simp only [enterTrap, note, Csr.enterTrap, hcause]
  rfl

end Begun

/-- The operations on products and quotients are exact for all words, and a step that executes
the encoding of one puts its word into the destination. -/
theorem encoded_op_exact :
    (∀ a b : Word, Exact a b)
      ∧ ∀ (h h₁ : Hart ε) (op : Op) (dest src1 src2 : Reg),
          h.beginning? = some ((Instr.op op dest src1 src2).encode, h₁) →
          h.step.1 = none ∧ h.Receives dest (op.eval (h.x src1) (h.x src2)) h.step.2 := by
  refine ⟨exact_of_words, ?_⟩
  intro h h₁ op dest src1 src2 hb
  exact op_receives hb (decode_op dest src1 src2 op)

/-- A hart in front of code in a ROM. -/
def inFrontOf (code : List Byte) (registers : Registers) : Hart Empty where
  pc := 0
  registers
  bus :=
    { slots := #[some (.rom ⟨1, ⟨splice (Memory.zero pageSize).bytes 0 code⟩⟩)]
      windows := [⟨0, 1, 0⟩] }

/-- A hart in front of `mulhsu x5, x5, x6` in a ROM. -/
def beforeProduct : Hart Empty where
  pc := 0
  registers := (Registers.set {} 5 0xfffffffd).set 6 0x80000001
  bus :=
    { slots := #[some (.rom ⟨1, ⟨splice (Memory.zero pageSize).bytes 0 [0xb3, 0xa2, 0x62, 0x02]⟩⟩)]
      windows := [⟨0, 1, 0⟩] }

theorem encoded_op_exact_mulhsu : Exact 0xfffffffd 0x80000001
    ∧ beforeProduct.beginning?.map Prod.fst = some (Instr.op .mulhsu 5 5 6).encode
    ∧ beforeProduct.step.1 = none ∧ beforeProduct.Receives 5 0xfffffffe beforeProduct.step.2 := by
  obtain ⟨hexact, hsteps⟩ := encoded_op_exact (ε := Empty)
  have hword : beforeProduct.beginning?.map Prod.fst = some (Instr.op .mulhsu 5 5 6).encode := by
    decide +kernel
  obtain ⟨⟨word, h₁⟩, hb, rfl⟩ := Option.map_eq_some_iff.mp hword
  exact ⟨hexact _ _, hword, hsteps beforeProduct h₁ .mulhsu 5 5 6 hb⟩

end Rv32Soc.Hart
