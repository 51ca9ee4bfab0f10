import Rv32Soc.Proofs.Accesses
import Rv32Soc.Proofs.PreciseTraps

/-!
# The instructions that use the bus

Five families of instructions use the bus for more than being fetched. Each of
them is one or two accesses and then a register and the pc, and is told here
in one equation. A store-conditional is taken apart into the attempt, which
ends with a status or a trap, and the report of the status. All others leave
the bus alone, but for a record; the equations of those among them that can
fail stand first.
-/

namespace Rv32Soc

/-- The instruction accesses memory. -/
def Isa.Instr.usesBus : Instr → Bool
  | .load .. | .store .. | .loadReserved .. | .storeConditional .. | .amo .. => true
  | _ => false

theorem Registers.get_set {registers : Registers} {dest : Isa.Reg} (hdest : dest ≠ 0)
    (value : Word) : (registers.set dest value).get dest = value := by
  rw [Registers.set, if_neg hdest]
  exact Vector.getElem_set_self _

theorem Isa.Instr.eq_of_isStoreConditional {i : Instr} (hi : i.isStoreConditional = true) :
    ∃ dest base src, i = .storeConditional dest base src := by
  cases i <;> first | exact ⟨_, _, _, rfl⟩ | cases hi

namespace Hart

open Isa

variable {ε : Type}

/-- The hart after an instruction that is done: its result is in the register and the pc is at
the next one. -/
def finished (h : Hart ε) (dest : Reg) (value : Word) : Hart ε :=
  { h with pc := h.pc + 4, registers := h.registers.set dest value }

/-! ## Instructions that do not use the bus -/

theorem jumpAndLink_apply (dest : Reg) (target : Word) (h : Hart ε) :
    jumpAndLink dest target h
      = if Width.Aligned .word target then .ok () ({ h with pc := target }.setX dest (h.pc + 4))
        else .error (.instructionAddressMisaligned target) h := by
  by_cases haligned : Width.Aligned .word target <;>
    simp [jumpAndLink, bind_apply, readPc, jumpTo, haligned, writeX]

theorem executeBranch_apply (cond : Branch) (src1 src2 : Reg) (offset : Word) (h : Hart ε) :
    executeBranch cond src1 src2 offset h
      = if cond.holds (h.x src1) (h.x src2) then jumpTo (h.pc + offset) h
        else .ok () { h with pc := h.pc + 4 } := by
  cases htaken : cond.holds (h.x src1) (h.x src2) <;>
    simp [executeBranch, bind_apply, readX, readPc, htaken, advance]

theorem executeCsr_apply (word : Word) (op : CsrOp) (dest : Reg) (number : BitVec 12)
    (source : Word) (writes : Bool) (h : Hart ε) :
    executeCsr word op dest number source writes h
      = match h.csr.read (number.setWidth 16) with
        | .error _ => .error (.illegalInstruction word) h
        | .ok old =>
            match if writes then h.csr.write (number.setWidth 16) (op.eval old source)
              else .ok h.csr with
            | .error _ => .error (.illegalInstruction word) h
            | .ok csr => .ok () ({ h with csr }.finished dest old) := by
  unfold executeCsr
  cases h.csr.read (number.setWidth 16) with
  | error e => rfl
  | ok old =>
      cases writes with
      | false => rfl
      | true =>
          simp only [if_true]
          cases h.csr.write (number.setWidth 16) (op.eval old source) <;> rfl

theorem jumpAndLink_bus (dest : Reg) (target : Word) (h : Hart ε) :
    (stateAfter (jumpAndLink dest target h)).bus = h.bus := by
  rw [jumpAndLink_apply]
  split <;> rfl

theorem executeBranch_bus (cond : Branch) (src1 src2 : Reg) (offset : Word) (h : Hart ε) :
    (stateAfter (executeBranch cond src1 src2 offset h)).bus = h.bus := by
  rw [executeBranch_apply, jumpTo]
  split
  · split <;> rfl
  · rfl

theorem executeCsr_bus (word : Word) (op : CsrOp) (dest : Reg) (number : BitVec 12)
    (source : Word) (writes : Bool) (h : Hart ε) :
    (stateAfter (executeCsr word op dest number source writes h)).bus = h.bus := by
  rw [executeCsr_apply]
  split
  · rfl
  · split <;> rfl

variable [Peripheral ε]

theorem execute_noted {i : Instr} (hi : i.usesBus = false) (word : Word) (h : Hart ε) :
    Bus.Noted h.bus (stateAfter (execute i word h)).bus := by
  cases i with
  | load | store | loadReserved | storeConditional | amo => cases hi
  | lui dest imm => exact Bus.noted_of_eq rfl
  | auipc dest imm => exact Bus.noted_of_eq rfl
  | jal dest offset => exact Bus.noted_of_eq (jumpAndLink_bus dest (h.pc + offset) h)
  | jalr dest base offset =>
      exact Bus.noted_of_eq (jumpAndLink_bus dest ((h.x base + offset) &&& ~~~1#32) h)
  | branch cond src1 src2 offset =>
      exact Bus.noted_of_eq (executeBranch_bus cond src1 src2 offset h)
  | opImm op dest src imm => exact Bus.noted_of_eq rfl
  | shiftImm op dest src amount => exact Bus.noted_of_eq rfl
  | op op dest src1 src2 => exact Bus.noted_of_eq rfl
  | scall | sbreak | illegal _ => exact Bus.noted_of_eq rfl
  | eret => exact ⟨_, rfl⟩
  | csr op dest src number =>
      exact Bus.noted_of_eq (executeCsr_bus word op dest number (h.x src) _ h)
  | csrImm op dest value number =>
      exact Bus.noted_of_eq (executeCsr_bus word op dest number (value.setWidth 32) _ h)

/-! ## Instructions that use it -/

theorem executeLoad_apply (kind : Load) (dest base : Reg) (offset : Word) (h : Hart ε) :
    executeLoad kind dest base offset h
      = match Bus.load kind.width (h.x base + offset) h.bus with
        | .ok value b => .ok () ({ h with bus := b }.finished dest (kind.extend value))
        | .error trap b => .error trap.toException { h with bus := b } := by
  cases hload : Bus.load kind.width (h.x base + offset) h.bus <;>
    simp [executeLoad, bind_apply, readX, onBus, hload, writeX, advance, finished, setX]

theorem executeStore_apply (width : Width) (src base : Reg) (offset : Word) (h : Hart ε) :
    executeStore width src base offset h
      = match Bus.store width (h.x base + offset) ((h.x src).setWidth width.bits) h.bus with
        | .ok () b => .ok () { h with pc := h.pc + 4, bus := b }
        | .error trap b => .error trap.toException { h with bus := b } := by
  cases hstore : Bus.store width (h.x base + offset) ((h.x src).setWidth width.bits) h.bus <;>
    simp [executeStore, bind_apply, readX, onBus, hstore, advance]

theorem executeLoadReserved_apply (dest base : Reg) (h : Hart ε) :
    executeLoadReserved dest base h
      = match Bus.load .word (h.x base) h.bus with
        | .ok value b => .ok () ({ h with bus := b.reserve (h.x base) }.finished dest value)
        | .error trap b => .error trap.toException { h with bus := b } := by
  cases hload : Bus.load .word (h.x base) h.bus with
  | error trap b => simp [executeLoadReserved, bind_apply, readX, onBus, hload]
  | ok value b =>
      simp only [executeLoadReserved, bind_apply, readX, onBus, hload, changeBus]
      rfl

theorem executeAmo_apply (op : Amo) (dest base src : Reg) (h : Hart ε) :
    executeAmo op dest base src h
      = if Width.Aligned .word (h.x base) then
          match Bus.load .word (h.x base) h.bus with
          | .error _ b => .error (.storeAccessFault (h.x base)) { h with bus := b }
          | .ok old b =>
              match Bus.store .word (h.x base) (op.eval old (h.x src)) b with
              | .error trap b => .error trap.toException { h with bus := b }
              | .ok () b => .ok () ({ h with bus := b }.finished dest old)
        else .error (.storeAddressMisaligned (h.x base)) h := by
  simp only [executeAmo]
  by_cases haligned : Width.Aligned .word (h.x base)
  · rw [if_pos haligned, if_pos haligned]
    cases hload : Bus.load .word (h.x base) h.bus with
    | error trap b => simp only [onBus, hload]
    | ok old b =>
        have hsrc : x { h with bus := b } src = h.x src := rfl
        simp only [onBus, hload, hsrc]
        cases hstore : Bus.store .word (h.x base) (op.eval old (h.x src)) b with
        | error trap b' => rfl
        | ok u b' => rfl
  · rw [if_neg haligned, if_neg haligned]

/-- The attempt of a store-conditional, with the status that it ends with: 0 if the word has
been stored and 1 if it has not. -/
def tryStore (base src : Reg) : HartM ε Word := fun h =>
  let address := h.x base
  if Width.Aligned .word address then
    if h.bus.isReserved address then
      match Bus.store .word address (h.x src) h.bus with
      | .ok () b => .ok 0 { h with bus := b.unreserve }
      | .error trap b => .error trap.toException { h with bus := b.unreserve }
    else .ok 1 { h with bus := h.bus.unreserve }
  else .error (.storeAddressMisaligned address) { h with bus := h.bus.unreserve }

theorem executeStoreConditional_apply (dest base src : Reg) (h : Hart ε) :
    executeStoreConditional dest base src h
      = match tryStore base src h with
        | .ok status h' =>
            .ok () ((h'.note (.storedConditionally (h.x base) status)).finished dest status)
        | .error e h' => .error e h' := by
  simp only [executeStoreConditional, tryStore]
  by_cases haligned : Width.Aligned .word (h.x base)
  · rw [if_pos haligned, if_pos haligned]
    by_cases hreserved : h.bus.isReserved (h.x base) = true
    · rw [if_pos hreserved, if_pos hreserved]
      cases hstore : Bus.store .word (h.x base) (h.x src) h.bus with
      | error trap b => simp only [onBus, hstore]
      | ok u b =>
          simp only [onBus, hstore]
          rfl
    · rw [if_neg hreserved, if_neg hreserved]
      rfl
  · rw [if_neg haligned, if_neg haligned]

section Attempts

variable {h : Hart ε} {base src : Reg}

theorem tryStore_unreserved (haligned : Width.Aligned .word (h.x base))
    (hreserved : h.bus.isReserved (h.x base) = false) :
    tryStore base src h = .ok 1 { h with bus := h.bus.unreserve } := by
  simp only [tryStore]
  rw [if_pos haligned, if_neg (Bool.eq_false_iff.mp hreserved)]

theorem tryStore_reserved (haligned : Width.Aligned .word (h.x base))
    (hreserved : h.bus.isReserved (h.x base) = true) :
    tryStore base src h = match Bus.store .word (h.x base) (h.x src) h.bus with
      | .ok () b => .ok 0 { h with bus := b.unreserve }
      | .error trap b => .error trap.toException { h with bus := b.unreserve } := by
  simp only [tryStore]
  rw [if_pos haligned, if_pos hreserved]

/-- The status is 0 just if the word was reserved and has been stored. -/
theorem tryStore_eq_zero {h' : Hart ε} (hzero : tryStore base src h = .ok 0 h') :
    Width.Aligned .word (h.x base) ∧ h.bus.isReserved (h.x base) = true
      ∧ ∃ b, Bus.store .word (h.x base) (h.x src) h.bus = .ok () b
        ∧ h' = { h with bus := b.unreserve } := by
  by_cases haligned : Width.Aligned .word (h.x base)
  · cases hreserved : h.bus.isReserved (h.x base) with
    | false =>
        rw [tryStore_unreserved haligned hreserved] at hzero
        cases hzero
    | true =>
        rw [tryStore_reserved haligned hreserved] at hzero
        cases hstore : Bus.store .word (h.x base) (h.x src) h.bus with
        | ok u b =>
            rw [hstore] at hzero
            cases hzero
            exact ⟨haligned, rfl, b, rfl, rfl⟩
        | error trap b =>
            rw [hstore] at hzero
            cases hzero
  · simp only [tryStore] at hzero
    rw [if_neg haligned] at hzero
    cases hzero

end Attempts

end Hart

end Rv32Soc
