import Rv32Soc.Hart.Step
import Rv32Soc.Proofs.Slots

/-!
# What a step of the hart can touch

An instruction is a row of small steps, and each small step changes one part
of the hart. Two consequences are needed over and over. The flag of a raised
interrupt is no instruction's business: only a step that takes the interrupt
changes it. And the bus is changed only by the accesses that the hart makes,
so that any preorder of bus states that includes a load, a store and what the
hart does with the reservation includes a whole instruction, whichever it is
and however it ends.
-/

namespace Rv32Soc

variable {ε : Type}

/-- A preorder of bus states that includes everything the hart does to the bus. -/
structure Bus.Traffic [Peripheral ε] (B : Bus ε → Bus ε → Prop) : Prop where
  refl : ∀ b, B b b
  trans : ∀ {b₁ b₂ b₃}, B b₁ b₂ → B b₂ b₃ → B b₁ b₃
  note : ∀ b r, B b (b.note r)
  reserve : ∀ b address, B b (b.reserve address)
  unreserve : ∀ b, B b b.unreserve
  load : ∀ w address b, B b (stateAfter (Bus.load w address b))
  store : ∀ w address value b, B b (stateAfter (Bus.store w address value b))

/-- A fetch is a load with other names for its refusals. -/
theorem Bus.Traffic.fetch [Peripheral ε] {B : Bus ε → Bus ε → Prop} (hB : Bus.Traffic B)
    (address : Word) (b : Bus ε) : B b (stateAfter (Bus.fetch address b)) := by
  have hload := hB.load .word address b
  unfold Bus.fetch
  split
  · split <;> next heq => rw [heq] at hload; exact hload
  · exact hB.refl b

namespace Hart

open Isa

variable {α β : Type}

theorem bind_apply (m : HartM ε α) (f : α → HartM ε β) (h : Hart ε) :
    (m >>= f) h = match m h with
      | .ok a h => f a h
      | .error e h => .error e h := by
  cases hm : m h <;> simp [bind, EStateM.bind, hm]

theorem stateAfter_onBus (f : EStateM AddressTrap (Bus ε) α) (h : Hart ε) :
    stateAfter (onBus f h) = { h with bus := stateAfter (f h.bus) } := by
  unfold onBus
  split <;> next hf => rw [hf]; rfl

/-! ## Small steps -/

/-- The flag is the same, and the bus has moved as the relation allows. -/
structure Moved (B : Bus ε → Bus ε → Prop) (h h' : Hart ε) : Prop where
  pending : h'.pending = h.pending
  bus : B h.bus h'.bus

/-- The step moves the hart as the relation allows, however it ends. -/
def Moves (B : Bus ε → Bus ε → Prop) (m : HartM ε α) : Prop :=
  ∀ h, Moved B h (stateAfter (m h))

section Small

variable {B : Bus ε → Bus ε → Prop}

theorem Moves.ok {m : HartM ε α} (hm : Moves B m) {h h' : Hart ε} {a : α}
    (heq : m h = .ok a h') : Moved B h h' := by
  have hmoved := hm h
  rw [heq] at hmoved
  exact hmoved

theorem Moves.error {m : HartM ε α} (hm : Moves B m) {h h' : Hart ε} {e : Exception}
    (heq : m h = .error e h') : Moved B h h' := by
  have hmoved := hm h
  rw [heq] at hmoved
  exact hmoved

theorem onBus_moves {f : EStateM AddressTrap (Bus ε) α} (hf : ∀ b, B b (stateAfter (f b))) :
    Moves B (onBus f) := by
  intro h
  rw [stateAfter_onBus]
  exact ⟨rfl, hf h.bus⟩

variable [Peripheral ε]

theorem Moved.trans (hB : Bus.Traffic B) {h₁ h₂ h₃ : Hart ε} (hfirst : Moved B h₁ h₂)
    (hsecond : Moved B h₂ h₃) : Moved B h₁ h₃ :=
  ⟨hsecond.pending.trans hfirst.pending, hB.trans hfirst.bus hsecond.bus⟩

theorem moved_of_bus (hB : Bus.Traffic B) {h h' : Hart ε} (hpending : h'.pending = h.pending)
    (hbus : h'.bus = h.bus) : Moved B h h' :=
  ⟨hpending, by rw [hbus]; exact hB.refl h.bus⟩

theorem Moves.bind (hB : Bus.Traffic B) {m : HartM ε α} {f : α → HartM ε β} (hm : Moves B m)
    (hf : ∀ a, Moves B (f a)) : Moves B (m >>= f) := by
  intro h
  rw [bind_apply]
  cases hmh : m h with
  | ok a h₁ => exact (hm.ok hmh).trans hB (hf a h₁)
  | error e h₁ => exact hm.error hmh

theorem readX_moves (hB : Bus.Traffic B) (r : Reg) : Moves B (readX r) :=
  fun _ => moved_of_bus hB rfl rfl

theorem readPc_moves (hB : Bus.Traffic B) : Moves B readPc :=
  fun _ => moved_of_bus hB rfl rfl

theorem throw_moves (hB : Bus.Traffic B) (e : Exception) : Moves B (throw e : HartM ε α) :=
  fun _ => moved_of_bus hB rfl rfl

theorem advance_moves (hB : Bus.Traffic B) : Moves B advance :=
  fun _ => moved_of_bus hB rfl rfl

theorem jumpTo_moves (hB : Bus.Traffic B) (target : Word) : Moves B (jumpTo target) := by
  intro h
  unfold jumpTo
  split
  · exact moved_of_bus hB rfl rfl
  · exact moved_of_bus hB rfl rfl

theorem record_moves (hB : Bus.Traffic B) (r : Record) : Moves B (record r) :=
  fun h => ⟨rfl, hB.note h.bus r⟩

theorem load_moves (hB : Bus.Traffic B) (w : Width) (address : Word) :
    Moves B (onBus (Bus.load w address)) :=
  onBus_moves (hB.load w address)

theorem store_moves (hB : Bus.Traffic B) (w : Width) (address : Word) (value : BitVec w.bits) :
    Moves B (onBus (Bus.store w address value)) :=
  onBus_moves (hB.store w address value)

theorem finish_moves (hB : Bus.Traffic B) (dest : Reg) (value : Word) :
    Moves B (finish dest value) :=
  Moves.bind hB (fun _ => moved_of_bus hB rfl rfl) fun _ => advance_moves hB

/-! ## Instructions -/

theorem jumpAndLink_moves (hB : Bus.Traffic B) (dest : Reg) (target : Word) :
    Moves B (jumpAndLink dest target) :=
  (readPc_moves hB).bind hB fun _ =>
    (jumpTo_moves hB target).bind hB fun _ => fun _ => moved_of_bus hB rfl rfl

theorem executeBranch_moves (hB : Bus.Traffic B) (cond : Branch) (src1 src2 : Reg)
    (offset : Word) : Moves B (executeBranch cond src1 src2 offset) := by
  refine (readX_moves hB src1).bind hB fun a => (readX_moves hB src2).bind hB fun b => ?_
  split
  · exact (readPc_moves hB).bind hB fun pc => jumpTo_moves hB (pc + offset)
  · exact advance_moves hB

theorem executeLoad_moves (hB : Bus.Traffic B) (kind : Load) (dest base : Reg)
    (offset : Word) : Moves B (executeLoad kind dest base offset) :=
  (readX_moves hB base).bind hB fun address =>
    (load_moves hB kind.width (address + offset)).bind hB fun _ =>
      finish_moves hB dest _

theorem executeStore_moves (hB : Bus.Traffic B) (width : Width) (src base : Reg)
    (offset : Word) : Moves B (executeStore width src base offset) :=
  (readX_moves hB base).bind hB fun address =>
    (readX_moves hB src).bind hB fun _ =>
      (store_moves hB width (address + offset) _).bind hB fun _ => advance_moves hB

theorem executeWithImm_moves (hB : Bus.Traffic B) (op : Op) (dest src : Reg) (imm : Word) :
    Moves B (executeWithImm op dest src imm) :=
  (readX_moves hB src).bind hB fun _ => finish_moves hB dest _

theorem executeOp_moves (hB : Bus.Traffic B) (op : Op) (dest src1 src2 : Reg) :
    Moves B (executeOp op dest src1 src2) :=
  (readX_moves hB src1).bind hB fun _ =>
    (readX_moves hB src2).bind hB fun _ => finish_moves hB dest _

theorem executeLoadReserved_moves (hB : Bus.Traffic B) (dest base : Reg) :
    Moves B (executeLoadReserved dest base) :=
  (readX_moves hB base).bind hB fun address =>
    (load_moves hB .word address).bind hB fun value =>
      Moves.bind hB (fun h => ⟨rfl, hB.reserve h.bus address⟩) fun _ => finish_moves hB dest value

theorem executeStoreConditional_moves (hB : Bus.Traffic B) (dest base src : Reg) :
    Moves B (executeStoreConditional dest base src) := by
  have hdrop : ∀ h : Hart ε, Moved B h { h with bus := h.bus.unreserve } :=
    fun h => ⟨rfl, hB.unreserve h.bus⟩
  have hconclude : ∀ address status,
      Moves B (executeStoreConditional.conclude dest address status) :=
    fun address status => (record_moves hB _).bind hB fun _ => finish_moves hB dest status
  intro h
  simp only [executeStoreConditional]
  split
  · split
    · split
      · next hstore =>
          exact (((store_moves hB _ _ _).ok hstore).trans hB (hdrop _)).trans hB
            (hconclude _ _ _)
      · next hstore => exact ((store_moves hB _ _ _).error hstore).trans hB (hdrop _)
    · exact (hdrop h).trans hB (hconclude _ _ _)
  · exact hdrop h

theorem executeAmo_moves (hB : Bus.Traffic B) (op : Amo) (dest base src : Reg) :
    Moves B (executeAmo op dest base src) := by
  intro h
  simp only [executeAmo]
  split
  · split
    · next hload => exact (load_moves hB _ _).error hload
    · next old h₁ hload =>
        have hloaded := (load_moves hB _ _).ok hload
        split
        · next hstore => exact hloaded.trans hB ((store_moves hB _ _ _).error hstore)
        · next hstore =>
            exact (hloaded.trans hB ((store_moves hB _ _ _).ok hstore)).trans hB
              (finish_moves hB dest old _)
  · exact moved_of_bus hB rfl rfl

theorem executeCsr_moves (hB : Bus.Traffic B) (word : Word) (op : CsrOp) (dest : Reg)
    (number : BitVec 12) (source : Word) (writes : Bool) :
    Moves B (executeCsr word op dest number source writes) := by
  intro h
  unfold executeCsr
  split
  · exact moved_of_bus hB rfl rfl
  · next old hread =>
      split
      · split
        · exact moved_of_bus hB rfl rfl
        · next csr hwrite =>
            have hwritten : Moved B h { h with csr } := moved_of_bus hB rfl rfl
            exact hwritten.trans hB (finish_moves hB dest old { h with csr })
      · exact finish_moves hB dest old h

theorem execute_moves (hB : Bus.Traffic B) (i : Instr) (word : Word) :
    Moves B (execute i word) := by
  cases i with
  | lui dest imm => exact finish_moves hB dest imm
  | auipc dest imm => exact (readPc_moves hB).bind hB fun _ => finish_moves hB dest _
  | jal dest offset => exact (readPc_moves hB).bind hB fun _ => jumpAndLink_moves hB dest _
  | jalr dest base offset =>
      exact (readX_moves hB base).bind hB fun _ => jumpAndLink_moves hB dest _
  | branch cond src1 src2 offset => exact executeBranch_moves hB cond src1 src2 offset
  | load kind dest base offset => exact executeLoad_moves hB kind dest base offset
  | store width src base offset => exact executeStore_moves hB width src base offset
  | opImm op dest src imm => exact executeWithImm_moves hB op.toOp dest src imm
  | shiftImm op dest src amount => exact executeWithImm_moves hB op.toOp dest src _
  | op op dest src1 src2 => exact executeOp_moves hB op dest src1 src2
  | loadReserved dest base => exact executeLoadReserved_moves hB dest base
  | storeConditional dest base src => exact executeStoreConditional_moves hB dest base src
  | amo op dest base src => exact executeAmo_moves hB op dest base src
  | scall | sbreak | illegal _ => exact throw_moves hB _
  | eret => exact fun h => ⟨rfl, hB.note h.bus _⟩
  | csr op dest src number =>
      exact (readX_moves hB src).bind hB fun _ => executeCsr_moves hB word op dest number _ _
  | csrImm op dest value number => exact executeCsr_moves hB word op dest number _ _

end Small

/-! ## A whole step -/

variable [Peripheral ε]

theorem fetchAndExecute_eq (h : Hart ε) :
    fetchAndExecute h = match Bus.fetch h.pc h.bus with
      | .ok word b =>
          execute (Instr.decode word) word
            ({ h with bus := b }.note (.fetched h.pc word))
      | .error trap b => .error trap.toException { h with bus := b } := by
  cases hf : Bus.fetch h.pc h.bus <;>
    simp [fetchAndExecute, bind, EStateM.bind, readPc, onBus, record, hf]

theorem step_interrupt {h : Hart ε} (hp : h.pending = true) (hl : h.listening = true) :
    h.step = (some (.interrupt .external),
      { h with pending := false }.enterTrap h.pc (.interrupt .external)) := by
  simp [step, attempt, hp, hl]

theorem step_fetch {h : Hart ε} (hp : (h.pending && h.listening) = false) :
    h.step = match fetchAndExecute h with
      | .ok () h' => (none, h')
      | .error e h' => (some (.exception e), h'.enterTrap h.pc (.exception e)) := by
  unfold step attempt
  simp only [hp]
  cases fetchAndExecute h <;> rfl

theorem step_eq_of_fst {h : Hart ε} {trap : Trap} (htrap : h.step.1 = some trap) :
    h.step = (some trap, h.step.2) :=
  Prod.ext htrap rfl

theorem fetchAndExecute_moves {B : Bus ε → Bus ε → Prop} (hB : Bus.Traffic B) :
    Moves B fetchAndExecute :=
  (readPc_moves hB).bind hB fun pc =>
    (onBus_moves (hB.fetch pc)).bind hB fun word =>
      (record_moves hB _).bind hB fun _ => execute_moves hB _ word

/-- A step takes the interrupt exactly when it is pending and the hart listens. -/
theorem step_fst_interrupt {h : Hart ε} :
    h.step.1 = some (.interrupt .external) ↔ h.pending = true ∧ h.listening = true := by
  cases hp : h.pending && h.listening with
  | true =>
      obtain ⟨hpending, hlistening⟩ := Bool.and_eq_true_iff.mp hp
      rw [step_interrupt hpending hlistening]
      exact ⟨fun _ => ⟨hpending, hlistening⟩, fun _ => rfl⟩
  | false =>
      have hnot : ¬(h.pending = true ∧ h.listening = true) := by
        rintro ⟨hpending, hlistening⟩
        rw [hpending, hlistening] at hp
        cases hp
      rw [step_fetch hp]
      refine ⟨fun htrap => ?_, fun htaken => absurd htaken hnot⟩
      cases hrun : fetchAndExecute h <;> rw [hrun] at htrap <;> cases htrap

/-- After a step nothing is pending that could have been taken in it. -/
theorem step_pending (h : Hart ε) : h.step.2.pending = (h.pending && !h.listening) := by
  have hany : Bus.Traffic fun _ _ : Bus ε => True := by constructor <;> intros <;> trivial
  cases hp : h.pending && h.listening with
  | true =>
      obtain ⟨hpending, hlistening⟩ := Bool.and_eq_true_iff.mp hp
      rw [step_interrupt hpending hlistening, hpending, hlistening]
      rfl
  | false =>
      have hkept : h.pending = (h.pending && !h.listening) := by
        revert hp
        cases h.pending <;> cases h.listening <;> decide
      rw [step_fetch hp, ← hkept]
      cases hrun : fetchAndExecute h with
      | ok u h₁ => exact ((fetchAndExecute_moves hany).ok hrun).pending
      | error e h₁ => exact ((fetchAndExecute_moves hany).error hrun).pending

/-- A step moves the bus as its accesses do. -/
theorem step_bus {B : Bus ε → Bus ε → Prop} (hB : Bus.Traffic B) (h : Hart ε) :
    B h.bus h.step.2.bus := by
  cases hp : h.pending && h.listening with
  | true =>
      obtain ⟨hpending, hlistening⟩ := Bool.and_eq_true_iff.mp hp
      rw [step_interrupt hpending hlistening]
      exact hB.note h.bus _
  | false =>
      rw [step_fetch hp]
      cases hrun : fetchAndExecute h with
      | ok u h₁ => exact ((fetchAndExecute_moves hB).ok hrun).bus
      | error e h₁ =>
          exact hB.trans ((fetchAndExecute_moves hB).error hrun).bus (hB.note h₁.bus _)

end Hart

end Rv32Soc
