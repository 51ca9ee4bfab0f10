import Rv32Soc.Proofs.HartSteps

/-!
# Traps are precise

A trap leaves the machine as if the instruction had not been started: the
registers, the devices and their contents are those of before, and only trap
entry shows, so that the handler can return and run the instruction again.

The argument is about the order of effects. An instruction is a row of small
steps: first those that look, at registers and at the bus; then at most one
that can still fail, and does nothing when it fails; then those that write and
cannot fail. `Quiet`, `Restartable` and `Total` name the three kinds, and a row
that keeps the order is restartable as a whole. Store-conditional alone does
not keep it, since it drops the reservation before it reports a fault, and is
treated by itself.
-/

namespace Rv32Soc

/-- The instruction is a store-conditional. -/
def Isa.Instr.isStoreConditional : Instr → Bool
  | .storeConditional .. => true
  | _ => false

namespace Hart

open Isa

variable {α β : Type}

/-! ## Kinds of steps -/

/-- The step leaves the hart as it was, however it ends. -/
def Quiet (m : HartM Empty α) : Prop :=
  ∀ h, stateAfter (m h) = h

/-- Whenever the step fails it leaves the hart as it was. -/
def Restartable (m : HartM Empty α) : Prop :=
  ∀ ⦃h h' : Hart Empty⦄ ⦃e : Exception⦄, m h = .error e h' → h' = h

/-- The step never fails. -/
def Total (m : HartM Empty α) : Prop :=
  ∀ h, ∃ a h', m h = .ok a h'

theorem Quiet.restartable {m : HartM Empty α} (hm : Quiet m) : Restartable m := by
  intro h h' e hfail
  have hstate := hm h
  rw [hfail] at hstate
  exact hstate

theorem Total.ne_error {m : HartM Empty α} (hm : Total m) (h h' : Hart Empty)
    (e : Exception) : m h ≠ .error e h' := by
  obtain ⟨a, h'', hok⟩ := hm h
  rw [hok]
  exact nofun

theorem Total.restartable {m : HartM Empty α} (hm : Total m) : Restartable m :=
  fun h h' e hfail => absurd hfail (hm.ne_error h h' e)

/-- Looking first does no harm. -/
theorem Quiet.bind {m : HartM Empty α} {f : α → HartM Empty β} (hm : Quiet m)
    (hf : ∀ a, Restartable (f a)) : Restartable (m >>= f) := by
  intro h h' e hfail
  have hstate := hm h
  rw [bind_apply] at hfail
  cases hmh : m h with
  | ok a h₁ =>
      rw [hmh] at hfail hstate
      rw [hf a hfail]
      exact hstate
  | error e₁ h₁ =>
      rw [hmh] at hfail hstate
      cases hfail
      exact hstate

/-- What cannot fail may come last. -/
theorem Restartable.bind {m : HartM Empty α} {f : α → HartM Empty β} (hm : Restartable m)
    (hf : ∀ a, Total (f a)) : Restartable (m >>= f) := by
  intro h h' e hfail
  rw [bind_apply] at hfail
  cases hmh : m h with
  | ok a h₁ =>
      rw [hmh] at hfail
      exact absurd hfail ((hf a).ne_error h₁ h' e)
  | error e₁ h₁ =>
      rw [hmh] at hfail
      cases hfail
      exact hm hmh

theorem Total.bind {m : HartM Empty α} {f : α → HartM Empty β} (hm : Total m)
    (hf : ∀ a, Total (f a)) : Total (m >>= f) := by
  intro h
  obtain ⟨a, h₁, hok⟩ := hm h
  obtain ⟨b, h₂, hok₂⟩ := hf a h₁
  exact ⟨b, h₂, by rw [bind_apply, hok]; exact hok₂⟩

/-! ## The small steps -/

theorem readX_quiet (r : Reg) : Quiet (readX r) := fun _ => rfl

theorem readPc_quiet : Quiet readPc := fun _ => rfl

theorem throw_quiet (e : Exception) : Quiet (throw e : HartM Empty α) := fun _ => rfl

theorem writeX_total (r : Reg) (value : Word) : Total (writeX r value) :=
  fun _ => ⟨_, _, rfl⟩

theorem advance_total : Total advance := fun _ => ⟨_, _, rfl⟩

theorem record_total (r : Record) : Total (record r) := fun _ => ⟨_, _, rfl⟩

theorem changeBus_total (f : Bus Empty → Bus Empty) : Total (changeBus f) :=
  fun _ => ⟨_, _, rfl⟩

theorem finish_total (dest : Reg) (value : Word) : Total (finish dest value) :=
  (writeX_total dest value).bind fun _ => advance_total

/-- A jump looks at its target before it goes there. -/
theorem jumpTo_restartable (target : Word) : Restartable (jumpTo target) := by
  intro h h' e hfail
  unfold jumpTo at hfail
  split at hfail
  · cases hfail
  · cases hfail; rfl

theorem onBus_quiet {f : EStateM AddressTrap (Bus Empty) α}
    (hf : ∀ b, stateAfter (f b) = b) : Quiet (onBus f) := by
  intro h
  rw [stateAfter_onBus, hf]

theorem onBus_restartable {f : EStateM AddressTrap (Bus Empty) α}
    (hf : ∀ {b b' trap}, f b = .error trap b' → b' = b) : Restartable (onBus f) := by
  intro h h' e hfail
  unfold onBus at hfail
  split at hfail
  · cases hfail
  · next hfb => cases hfail; rw [hf hfb]

theorem load_quiet (w : Width) (address : Word) :
    Quiet (onBus (Bus.load w address)) :=
  onBus_quiet (Bus.stateAfter_load w address)

theorem store_restartable (w : Width) (address : Word) (value : BitVec w.bits) :
    Restartable (onBus (Bus.store w address value)) :=
  onBus_restartable Bus.store_error

/-! ## The families of instructions -/

theorem jumpAndLink_restartable (dest : Reg) (target : Word) :
    Restartable (jumpAndLink dest target) :=
  readPc_quiet.bind fun pc =>
    (jumpTo_restartable target).bind fun _ => writeX_total dest (pc + 4)

theorem executeBranch_restartable (cond : Branch) (src1 src2 : Reg) (offset : Word) :
    Restartable (executeBranch cond src1 src2 offset) := by
  refine (readX_quiet src1).bind fun a => (readX_quiet src2).bind fun b => ?_
  split
  · exact readPc_quiet.bind fun pc => jumpTo_restartable (pc + offset)
  · exact advance_total.restartable

theorem executeLoad_restartable (kind : Load) (dest base : Reg) (offset : Word) :
    Restartable (executeLoad kind dest base offset) :=
  (readX_quiet base).bind fun address =>
    (load_quiet kind.width (address + offset)).bind fun _ =>
      (finish_total dest _).restartable

theorem executeStore_restartable (width : Width) (src base : Reg) (offset : Word) :
    Restartable (executeStore width src base offset) :=
  (readX_quiet base).bind fun address =>
    (readX_quiet src).bind fun _ =>
      (store_restartable width (address + offset) _).bind fun _ => advance_total

theorem executeWithImm_restartable (op : Op) (dest src : Reg) (imm : Word) :
    Restartable (executeWithImm op dest src imm) :=
  (readX_quiet src).bind fun _ => (finish_total dest _).restartable

theorem executeOp_restartable (op : Op) (dest src1 src2 : Reg) :
    Restartable (executeOp op dest src1 src2) :=
  (readX_quiet src1).bind fun _ =>
    (readX_quiet src2).bind fun _ => (finish_total dest _).restartable

theorem executeLoadReserved_restartable (dest base : Reg) :
    Restartable (executeLoadReserved dest base) :=
  (readX_quiet base).bind fun address =>
    (load_quiet .word address).bind fun value =>
      ((changeBus_total _).bind fun _ => finish_total dest value).restartable

theorem executeAmo_restartable (op : Amo) (dest base src : Reg) :
    Restartable (executeAmo op dest base src) := by
  intro h h' e hfail
  simp only [executeAmo] at hfail
  split at hfail
  · split at hfail
    · next hload =>
        cases hfail
        exact (load_quiet .word (h.x base)).restartable hload
    · next old h₁ hload =>
        have hsame : h₁ = h := by
          have hstate := load_quiet .word (h.x base) h
          rw [hload] at hstate
          exact hstate
        subst hsame
        split at hfail
        · next hstore => cases hfail; exact store_restartable _ _ _ hstore
        · exact absurd hfail ((finish_total dest _).ne_error _ h' e)
  · cases hfail; rfl

theorem executeCsr_restartable (word : Word) (op : CsrOp) (dest : Reg) (number : BitVec 12)
    (source : Word) (writes : Bool) :
    Restartable (executeCsr word op dest number source writes) := by
  intro h h' e hfail
  unfold executeCsr at hfail
  split at hfail
  · cases hfail; rfl
  · split at hfail
    · split at hfail
      · cases hfail; rfl
      · exact absurd hfail ((finish_total dest _).ne_error _ h' e)
    · exact absurd hfail ((finish_total dest _).ne_error _ h' e)

/-- A store-conditional that fails has dropped the reservation and done nothing else. -/
theorem executeStoreConditional_error {dest base src : Reg} {h h' : Hart Empty}
    {e : Exception} (hfail : executeStoreConditional dest base src h = .error e h') :
    h' = { h with bus := h.bus.unreserve } := by
  have hconclude : ∀ address status,
      Total (executeStoreConditional.conclude dest address status) :=
    fun address status => (record_total _).bind fun _ => finish_total dest status
  unfold executeStoreConditional at hfail
  simp only [] at hfail
  split at hfail
  · split at hfail
    · split at hfail
      · exact absurd hfail ((hconclude _ _).ne_error _ h' e)
      · next hstore => cases hfail; rw [store_restartable _ _ _ hstore]
    · exact absurd hfail ((hconclude _ _).ne_error _ h' e)
  · cases hfail; rfl

/-! ## All instructions -/

theorem execute_restartable {i : Instr} (hi : i.isStoreConditional = false) (word : Word) :
    Restartable (execute i word) := by
  cases i with
  | lui dest imm => exact (finish_total dest imm).restartable
  | auipc dest imm => exact readPc_quiet.bind fun _ => (finish_total dest _).restartable
  | jal dest offset => exact readPc_quiet.bind fun _ => jumpAndLink_restartable dest _
  | jalr dest base offset =>
      exact (readX_quiet base).bind fun _ => jumpAndLink_restartable dest _
  | branch cond src1 src2 offset => exact executeBranch_restartable cond src1 src2 offset
  | load kind dest base offset => exact executeLoad_restartable kind dest base offset
  | store width src base offset => exact executeStore_restartable width src base offset
  | opImm op dest src imm => exact executeWithImm_restartable op.toOp dest src imm
  | shiftImm op dest src amount => exact executeWithImm_restartable op.toOp dest src _
  | op op dest src1 src2 => exact executeOp_restartable op dest src1 src2
  | loadReserved dest base => exact executeLoadReserved_restartable dest base
  | storeConditional dest base src => cases hi
  | amo op dest base src => exact executeAmo_restartable op dest base src
  | scall | sbreak | illegal _ => exact (throw_quiet _).restartable
  | eret => exact Total.restartable fun _ => ⟨_, _, rfl⟩
  | csr op dest src number =>
      exact (readX_quiet src).bind fun _ => executeCsr_restartable word op dest number _ _
  | csrImm op dest value number => exact executeCsr_restartable word op dest number _ _

theorem execute_error {i : Instr} {word : Word} {h h' : Hart Empty} {e : Exception}
    (hfail : execute i word h = .error e h') :
    h' = if i.isStoreConditional then { h with bus := h.bus.unreserve } else h := by
  cases hi : i.isStoreConditional with
  | false => exact execute_restartable hi word hfail
  | true =>
      cases i <;> cases hi
      exact executeStoreConditional_error hfail

/-! ## A whole step -/

/-- The instruction at the pc, if the bus answers for it. -/
def nextInstr? {ε : Type} [Peripheral ε] (h : Hart ε) : Option Instr :=
  match Bus.fetch h.pc h.bus with
  | .ok word _ => some (Instr.decode word)
  | .error .. => none

/-- What a failed instruction leaves, the journal apart: the hart as it was, without the
reservation if the instruction was a store-conditional. -/
theorem fetchAndExecute_error {h h' : Hart Empty} {e : Exception}
    (hfail : fetchAndExecute h = .error e h') :
    ∃ journal, h' = { h with bus := { h.bus with
      reservation :=
        if h.nextInstr?.any Instr.isStoreConditional then none else h.bus.reservation
      journal } } := by
  have hstate := Bus.stateAfter_fetch h.pc h.bus
  rw [fetchAndExecute_eq] at hfail
  cases hf : Bus.fetch h.pc h.bus with
  | error trap b =>
      rw [hf] at hfail hstate
      cases hfail
      rw [stateAfter_error] at hstate
      exact ⟨h.bus.journal, by simp [nextInstr?, hf, hstate]⟩
  | ok word b =>
      rw [hf, stateAfter_ok] at hstate
      simp only [hf] at hfail
      subst hstate
      refine ⟨h.bus.journal.note (.fetched h.pc word), ?_⟩
      rw [execute_error hfail]
      simp only [nextInstr?, hf, Option.any_some]
      split <;> rfl

/-- How a hart that takes a trap differs from before. The interrupt stack is pushed, the trap
is recorded, and execution goes on at the vector; nothing else that a program or a device can
see has changed, but for the reservation under a store-conditional. -/
structure TrapTaken {ε : Type} [Peripheral ε] (h : Hart ε) (trap : Trap) (h' : Hart ε) :
    Prop where
  pc : h'.pc = trapVector
  csr : h'.csr =
    { ie := false, previous := h.csr.ie, mscratch := h.csr.mscratch, mepc := h.pc,
      mcause := trap.mcause, mbadaddr := trap.badAddress?.getD h.csr.mbadaddr }
  registers : h'.registers = h.registers
  slots : h'.bus.slots = h.bus.slots
  windows : h'.bus.windows = h.bus.windows
  reservation : h'.bus.reservation =
    if trap ≠ .interrupt .external ∧ h.nextInstr?.any Instr.isStoreConditional then none
    else h.bus.reservation
  cleared : h.pending = true ∧ h'.pending = false ↔ trap = .interrupt .external
  kept : trap ≠ .interrupt .external → h'.pending = h.pending
  /-- An interrupt is taken without a look at the bus: any other would be left alike. -/
  unfetched : trap = .interrupt .external → ∀ bus : Bus ε,
    step { h with bus } = (some trap, { h' with bus := bus.note (.trapped h.pc trap) })

/-- Traps are precise: whatever instruction raises it, on whatever devices of this library, a
trap changes nothing but what trap entry changes. -/
theorem step_trap_precise {h h' : Hart Empty} {trap : Trap}
    (hstep : h.step = (some trap, h')) : TrapTaken h trap h' := by
  cases hp : h.pending && h.listening with
  | true =>
      obtain ⟨hpending, hlistening⟩ := Bool.and_eq_true_iff.mp hp
      rw [step_interrupt hpending hlistening] at hstep
      cases hstep
      exact
        { pc := rfl, csr := rfl, registers := rfl, slots := rfl, windows := rfl,
          reservation := by simp [enterTrap, note, Bus.note]
          cleared := by simp [hpending, enterTrap, note]
          kept := fun hne => absurd rfl hne
          unfetched := fun _ bus => step_interrupt (h := { h with bus }) hpending hlistening }
  | false =>
      rw [step_fetch hp] at hstep
      cases hrun : fetchAndExecute h with
      | ok u h₁ => rw [hrun] at hstep; cases hstep
      | error e h₁ =>
          rw [hrun] at hstep
          cases hstep
          obtain ⟨journal, hleft⟩ := fetchAndExecute_error hrun
          have hpending : (h₁.enterTrap h.pc (.exception e)).pending = h.pending := by
            rw [hleft]; rfl
          exact
            { pc := rfl
              csr := by rw [hleft]; rfl
              registers := by rw [hleft]; rfl
              slots := by rw [hleft]; rfl
              windows := by rw [hleft]; rfl
              reservation := by rw [hleft]; simp [enterTrap, note, Bus.note]
              cleared := by simp [hpending]
              kept := fun _ => hpending
              unfetched := nofun }

/-- A hart in front of `sc.w x5, x6, (x10)`, where `x10` points between two words and the
first word is reserved. -/
def beforeTornStore : Hart Empty where
  pc := 0
  registers := Registers.set {} 10 2
  bus :=
    { slots := #[some (.ram
        ⟨1, ⟨splice (Memory.zero pageSize).bytes 0 [0xaf, 0x22, 0x65, 0x18]⟩⟩)]
      windows := [⟨0, 1, 0⟩]
      reservation := some 0 }

theorem step_trap_precise_tornStore :
    beforeTornStore.step.1 = some (.exception (.storeAddressMisaligned 2))
      ∧ TrapTaken beforeTornStore (.exception (.storeAddressMisaligned 2)) beforeTornStore.step.2
      ∧ beforeTornStore.step.2.bus.reservation = none := by
  have htrap : beforeTornStore.step.1 = some (.exception (.storeAddressMisaligned 2)) := by
    decide +kernel
  exact ⟨htrap, step_trap_precise (step_eq_of_fst htrap), by decide +kernel⟩

end Hart

end Rv32Soc
