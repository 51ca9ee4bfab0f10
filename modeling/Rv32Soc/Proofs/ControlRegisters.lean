import Rv32Soc.Proofs.MemoryInstructions

/-!
# What instructions do to the control registers

The six control-register instructions write one control register, or none,
and the return from a trap pops the interrupt stack. No other instruction
touches a control register, and one that fails has not touched any. So the
interrupt stack and the return address stay as they are under every
instruction that is not a return and does not write mstatus or mepc.
-/

namespace Rv32Soc

namespace Isa.Instr

/-- The instruction may change the control registers other than by a trap. -/
def usesCsr : Instr → Bool
  | .csr .. | .csrImm .. | .eret => true
  | _ => false

/-- The control register that an instruction writes, if it writes one. -/
def writtenCsr? : Instr → Option (BitVec 12)
  | .csr form _ src number => if Hart.csrWrites form src then some number else none
  | .csrImm form _ value number => if Hart.csrWrites form value then some number else none
  | _ => none

/-- The instruction returns from a trap, or writes one of the two registers, mstatus and mepc,
that a return goes by. -/
def disturbsReturn (i : Instr) : Bool :=
  i = .eret || i.writtenCsr? = some 0x300 || i.writtenCsr? = some 0x341

end Isa.Instr

namespace Csr

/-- What a return from a trap goes by is the same. -/
structure SameReturn (c c' : Csr) : Prop where
  ie : c'.ie = c.ie
  previous : c'.previous = c.previous
  mepc : c'.mepc = c.mepc

theorem SameReturn.of_eq {c c' : Csr} (h : c' = c) : SameReturn c c' :=
  ⟨by rw [h], by rw [h], by rw [h]⟩

/-- Only mstatus holds the interrupt stack, and only mepc the return address. -/
theorem sameReturn_of_write {c c' : Csr} {number : BitVec 16} {value : Word}
    (hwrite : c.write number value = .ok c') (hstatus : number ≠ 0x300) (hmepc : number ≠ 0x341) :
    SameReturn c c' := by
  unfold write at hwrite
  rw [if_neg hstatus] at hwrite
  split at hwrite
  · cases hwrite; exact ⟨rfl, rfl, rfl⟩
  · split at hwrite
    · cases hwrite; exact ⟨rfl, rfl, rfl⟩
    · split at hwrite
      · cases hwrite; exact ⟨rfl, rfl, rfl⟩
      · split at hwrite <;> cases hwrite

/-- An instruction names a control register by twelve bits. -/
theorem widened_ne {number n : BitVec 12} (h : number ≠ n) :
    number.setWidth 16 ≠ n.setWidth 16 := by
  intro heq
  have hback := congrArg (BitVec.setWidth 12) heq
  rw [BitVec.setWidth_setWidth_of_le _ (by decide), BitVec.setWidth_setWidth_of_le _ (by decide),
    BitVec.setWidth_eq, BitVec.setWidth_eq] at hback
  exact h hback

end Csr

namespace Hart

open Isa

variable {ε : Type}

/-! ## Control-register instructions -/

/-- A control-register instruction that fails has done nothing. -/
theorem executeCsr_error {word : Word} {op : CsrOp} {dest : Reg} {number : BitVec 12}
    {source : Word} {writes : Bool} {h h' : Hart ε} {e : Exception}
    (hfail : executeCsr word op dest number source writes h = .error e h') : h' = h := by
  rw [executeCsr_apply] at hfail
  split at hfail
  · cases hfail; rfl
  · split at hfail <;> cases hfail
    rfl

theorem executeCsr_sameReturn {number : BitVec 12} {writes : Bool}
    (hstatus : (if writes = true then some number else none) ≠ some 0x300)
    (hmepc : (if writes = true then some number else none) ≠ some 0x341)
    (word : Word) (op : CsrOp) (dest : Reg) (source : Word) (h : Hart ε) :
    Csr.SameReturn h.csr (stateAfter (executeCsr word op dest number source writes h)).csr := by
  rw [executeCsr_apply]
  split
  · exact .of_eq rfl
  · cases writes with
    | false => exact .of_eq rfl
    | true =>
        simp only [if_true, ne_eq, Option.some.injEq] at hstatus hmepc ⊢
        split
        · exact .of_eq rfl
        · next csr hwrite =>
            exact Csr.sameReturn_of_write hwrite (Csr.widened_ne hstatus) (Csr.widened_ne hmepc)

/-! ## All instructions -/

variable [Peripheral ε]

theorem tryStore_csr (base src : Reg) (h : Hart ε) :
    (stateAfter (tryStore base src h)).csr = h.csr := by
  simp only [tryStore]
  split
  · split
    · split <;> rfl
    · rfl
  · rfl

theorem execute_csr {i : Instr} (hi : i.usesCsr = false) (word : Word) (h : Hart ε) :
    (stateAfter (execute i word h)).csr = h.csr := by
  cases i with
  | csr | csrImm | eret => cases hi
  | lui | auipc | opImm | shiftImm | op | scall | sbreak | illegal => rfl
  | jal dest offset =>
      show (stateAfter (jumpAndLink dest (h.pc + offset) h)).csr = h.csr
      rw [jumpAndLink_apply]
      split <;> rfl
  | jalr dest base offset =>
      show (stateAfter (jumpAndLink dest ((h.x base + offset) &&& ~~~1#32) h)).csr = h.csr
      rw [jumpAndLink_apply]
      split <;> rfl
  | branch cond src1 src2 offset =>
      rw [execute, executeBranch_apply, jumpTo]
      split
      · split <;> rfl
      · rfl
  | load kind dest base offset =>
      rw [execute, executeLoad_apply]
      split <;> rfl
  | store width src base offset =>
      rw [execute, executeStore_apply]
      split <;> rfl
  | loadReserved dest base =>
      rw [execute, executeLoadReserved_apply]
      split <;> rfl
  | storeConditional dest base src =>
      have htry := tryStore_csr base src h
      rw [execute, executeStoreConditional_apply]
      split <;> next heq => rw [heq] at htry; exact htry
  | amo op dest base src =>
      rw [execute, executeAmo_apply]
      split
      · split
        · rfl
        · split <;> rfl
      · rfl

theorem execute_sameReturn {i : Instr} (hi : i.disturbsReturn = false) (word : Word)
    (h : Hart ε) : Csr.SameReturn h.csr (stateAfter (execute i word h)).csr := by
  simp only [Instr.disturbsReturn, Bool.or_eq_false_iff, decide_eq_false_iff_not] at hi
  obtain ⟨⟨hreturn, hstatus⟩, hmepc⟩ := hi
  cases huses : i.usesCsr with
  | false => exact .of_eq (execute_csr huses word h)
  | true =>
      cases i with
      | eret => exact absurd rfl hreturn
      | csr op dest src number =>
          exact executeCsr_sameReturn hstatus hmepc word op dest (h.x src) h
      | csrImm op dest value number =>
          exact executeCsr_sameReturn hstatus hmepc word op dest (value.setWidth 32) h
      | _ => cases huses

/-- An instruction that fails has not touched a control register. -/
theorem execute_error_csr {i : Instr} {word : Word} {h h' : Hart ε} {e : Exception}
    (hfail : execute i word h = .error e h') : h'.csr = h.csr := by
  cases huses : i.usesCsr with
  | false =>
      have hcsr := execute_csr huses word h
      rw [hfail] at hcsr
      exact hcsr
  | true =>
      cases i with
      | eret => cases hfail
      | csr op dest src number => rw [executeCsr_error hfail]
      | csrImm op dest value number => rw [executeCsr_error hfail]
      | _ => cases huses

end Hart

end Rv32Soc
