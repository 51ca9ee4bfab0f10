import Rv32Soc.Proofs.FlatMemory
import Rv32Soc.Proofs.MemoryInstructions
import Rv32Soc.Proofs.Runs

/-!
# Nothing depends on the journal

The journal is written and never read. To say so, the journal is taken away: a
machine without one is run beside the machine, and the two do the same at every
step, the records apart. A step is blind if taking the journal away before it
and after it come to the same; small steps are blind because none of them looks
at a journal, and rows of blind steps are blind.
-/

namespace Rv32Soc

/-! ## Blind steps -/

section Blind

variable {ρ σ α β : Type} {erase : σ → σ}

/-- The step does not look at what is erased. -/
def Blind (erase : σ → σ) (m : EStateM ρ σ α) : Prop :=
  ∀ s, m (erase s) = mapState erase (m s)

theorem Blind.bind {m : EStateM ρ σ α} {f : α → EStateM ρ σ β} (hm : Blind erase m)
    (hf : ∀ a, Blind erase (f a)) : Blind erase (m >>= f) := by
  intro s
  show EStateM.bind m f (erase s) = mapState erase (EStateM.bind m f s)
  simp only [EStateM.bind, hm s]
  cases m s with
  | ok a s' => exact hf a s'
  | error e s' => rfl

end Blind

variable {ε : Type}

namespace Bus

/-- The bus with its journal switched off and empty. -/
def unlogged (b : Bus ε) : Bus ε :=
  { b with journal := { on := false } }

/-! ## Slots -/

theorem update_unlogged (b : Bus ε) (slot : Nat) (f : Device ε → Device ε) :
    b.unlogged.update slot f = (b.update slot f).unlogged := by
  unfold update
  rw [show b.unlogged.device? slot = b.device? slot from rfl]
  cases b.device? slot <;> rfl

theorem visit_blind {τ α : Type} (slot : Nat) (f : EStateM τ (Device ε) α) (absent : τ) :
    Blind unlogged (visit slot f absent) := by
  intro b
  unfold visit
  rw [show b.unlogged.device? slot = b.device? slot from rfl]
  cases b.device? slot with
  | none => rfl
  | some d =>
      dsimp only
      cases f d <;> rfl

theorem loseReservation_unlogged (b : Bus ε) (address : Word) :
    b.unlogged.loseReservation address = (b.loseReservation address).unlogged := by
  unfold loseReservation
  rw [show b.unlogged.isReserved address = b.isReserved address from rfl]
  split <;> rfl

variable [Peripheral ε]

/-! ## Accesses -/

theorem announce_unlogged (b : Bus ε) (told : List Acknowledgement) :
    b.unlogged.announce told = (b.announce told).unlogged := by
  refine List.foldl_hom unlogged fun b a => ?_
  have htold : a.sources.foldl tell b.unlogged = (a.sources.foldl tell b).unlogged :=
    List.foldl_hom unlogged fun b slot => update_unlogged b slot Device.acknowledge
  rw [htold]
  rfl

theorem storeInto_blind (slot : Nat) (w : Width) (offset : Word) (value : BitVec w.bits)
    (absent : AddressTrap) : Blind (@unlogged ε) (storeInto slot w offset value absent) := by
  intro b
  unfold storeInto
  rw [visit_blind slot _ absent b]
  cases visit slot (Device.write w offset value) absent b with
  | ok told b' => exact congrArg (EStateM.Result.ok ()) (announce_unlogged b' told)
  | error trap b' => rfl

theorem load_blind (w : Width) (address : Word) :
    Blind (@unlogged ε) (load w address) := by
  intro b
  unfold load loadFrom
  rw [show b.unlogged.route address = b.route address from rfl]
  split
  · split
    · rfl
    · next slot offset _ =>
        rw [visit_blind slot _ _ b]
        cases visit slot (Device.read w offset) ⟨.loadAccessFault, address⟩ b <;> rfl
  · rfl

theorem store_blind (w : Width) (address : Word) (value : BitVec w.bits) :
    Blind (@unlogged ε) (store w address value) := by
  intro b
  unfold store
  rw [show b.unlogged.route address = b.route address from rfl]
  split
  · split
    · rfl
    · next slot offset _ =>
        rw [storeInto_blind slot w offset value _ b]
        cases storeInto slot w offset value ⟨.storeAccessFault, address⟩ b with
        | ok u b' => exact congrArg (EStateM.Result.ok ()) (loseReservation_unlogged b' address)
        | error trap b' => rfl
  · rfl

theorem fetch_blind (address : Word) : Blind (@unlogged ε) (fetch address) := by
  intro b
  unfold fetch
  rw [load_blind .word address b]
  split
  · cases load .word address b <;> rfl
  · rfl

/-! ## Turns -/

theorem answer_unlogged (request : Request) (b : Bus ε) :
    b.unlogged.answer request = ((b.answer request).1, (b.answer request).2.unlogged) := by
  cases request with
  | load w address =>
      simp only [answer, load_blind w address b]
      cases load w address b <;> rfl
  | store w address value =>
      simp only [answer, store_blind w address (value.setWidth w.bits) b]
      cases store w address (value.setWidth w.bits) b <;> rfl

theorem perform_unlogged {α : Type} (script : Script α) (b : Bus ε) :
    perform script b.unlogged
      = ((perform script b).1, (perform script b).2.1, (perform script b).2.2.unlogged) := by
  induction script generalizing b with
  | done result => rfl
  -- The reply is the same, so the script goes on in the same way.
  | ask request next ih =>
      simp only [perform, answer_unlogged]
      rw [ih]

theorem turn_unlogged (b : Bus ε) (slot : Nat) (phase : Phase) (script : Script ε) :
    b.unlogged.turn slot phase script = (b.turn slot phase script).unlogged := by
  unfold turn
  rw [show b.unlogged.vacate slot = (b.vacate slot).unlogged from rfl, perform_unlogged]
  rfl

theorem cycle_unlogged (b : Bus ε) (slot : Nat) :
    b.unlogged.cycle slot = (b.cycle slot).unlogged := by
  unfold cycle
  rw [show b.unlogged.device? slot = b.device? slot from rfl]
  split
  · rfl
  · rfl
  · exact turn_unlogged b slot _ _
  · rfl

theorem timestep_unlogged (b : Bus ε) (slot : Nat) :
    b.unlogged.timestep slot = (b.timestep slot).unlogged := by
  unfold timestep
  rw [show b.unlogged.device? slot = b.device? slot from rfl]
  split
  · exact turn_unlogged b slot _ _
  · rfl

/-! ## The controller and the windows -/

omit [Peripheral ε] in
theorem updateController_unlogged (b : Bus ε) (slot : Nat)
    (f : InterruptController → InterruptController) :
    b.unlogged.updateController slot f = (b.updateController slot f).unlogged :=
  update_unlogged b slot _

theorem acknowledge_unlogged (b : Bus ε) (slot : Nat) (l : Line) :
    b.unlogged.acknowledge slot l = (b.acknowledge slot l).unlogged := by
  unfold acknowledge
  rw [show b.unlogged.controller? slot = b.controller? slot from rfl]
  cases b.controller? slot with
  | none => rfl
  | some c => exact announce_unlogged (b.put slot (.controller (c.acknowledge l).1)) _

omit [Peripheral ε] in
theorem dispatch_unlogged (b : Bus ε) (slot : Nat) (listening : Bool) :
    b.unlogged.dispatch slot listening
      = ((b.dispatch slot listening).1, (b.dispatch slot listening).2.unlogged) := by
  unfold dispatch
  rw [show b.unlogged.controller? slot = b.controller? slot from rfl]
  cases b.controller? slot with
  | none => rfl
  | some c =>
      dsimp only
      split <;> rfl

theorem attach_unlogged (b : Bus ε) (slot : Nat) (base : Word) :
    b.unlogged.attach slot base = (b.attach slot base).map unlogged := by
  unfold attach
  rw [show b.unlogged.device? slot = b.device? slot from rfl]
  cases (b.device? slot).map Device.pages with
  | none => rfl
  | some pages =>
      dsimp only
      split
      · rfl
      · split
        · rfl
        · split
          · rfl
          · rw [show b.unlogged.firstTaken? = b.firstTaken? from rfl]
            split <;> rfl

end Bus

namespace Hart

open Isa

/-- The hart with its journal switched off and empty. -/
def unlogged (h : Hart ε) : Hart ε :=
  { h with bus := h.bus.unlogged }

/-! ## Small steps of the hart -/

section Small

variable {α : Type}

theorem onBus_blind {f : EStateM AddressTrap (Bus ε) α} (hf : Blind Bus.unlogged f) :
    Blind unlogged (onBus f) := by
  intro h
  unfold onBus
  rw [show f h.unlogged.bus = mapState Bus.unlogged (f h.bus) from hf h.bus]
  cases f h.bus <;> rfl

theorem readX_blind (r : Reg) : Blind (@unlogged ε) (readX r) := fun _ => rfl

theorem readPc_blind : Blind (@unlogged ε) readPc := fun _ => rfl

theorem throw_blind (e : Exception) : Blind (@unlogged ε) (throw e : HartM ε α) :=
  fun _ => rfl

theorem record_blind (r : Record) : Blind (@unlogged ε) (record r) := fun _ => rfl

theorem advance_blind : Blind (@unlogged ε) advance := fun _ => rfl

theorem finish_blind (dest : Reg) (value : Word) : Blind (@unlogged ε) (finish dest value) :=
  fun _ => rfl

theorem jumpTo_blind (target : Word) : Blind (@unlogged ε) (jumpTo target) := by
  intro h
  unfold jumpTo
  split <;> rfl

end Small

/-! ## Instructions -/

theorem jumpAndLink_blind (dest : Reg) (target : Word) :
    Blind (@unlogged ε) (jumpAndLink dest target) :=
  readPc_blind.bind fun _ => (jumpTo_blind target).bind fun _ => fun _ => rfl

theorem executeBranch_blind (cond : Branch) (src1 src2 : Reg) (offset : Word) :
    Blind (@unlogged ε) (executeBranch cond src1 src2 offset) := by
  refine (readX_blind src1).bind fun a => (readX_blind src2).bind fun b => ?_
  split
  · exact readPc_blind.bind fun pc => jumpTo_blind (pc + offset)
  · exact advance_blind

theorem executeWithImm_blind (op : Op) (dest src : Reg) (imm : Word) :
    Blind (@unlogged ε) (executeWithImm op dest src imm) :=
  (readX_blind src).bind fun _ => finish_blind dest _

theorem executeOp_blind (op : Op) (dest src1 src2 : Reg) :
    Blind (@unlogged ε) (executeOp op dest src1 src2) :=
  (readX_blind src1).bind fun _ => (readX_blind src2).bind fun _ => finish_blind dest _

theorem executeCsr_blind (word : Word) (op : CsrOp) (dest : Reg) (number : BitVec 12)
    (source : Word) (writes : Bool) :
    Blind (@unlogged ε) (executeCsr word op dest number source writes) := by
  intro h
  unfold executeCsr
  rw [show h.unlogged.csr = h.csr from rfl]
  cases h.csr.read (number.setWidth 16) with
  | error e => rfl
  | ok old =>
      cases writes with
      | false => rfl
      | true =>
          simp only [if_true]
          cases h.csr.write (number.setWidth 16) (op.eval old source) <;> rfl

variable [Peripheral ε]

theorem executeLoad_blind (kind : Load) (dest base : Reg) (offset : Word) :
    Blind (@unlogged ε) (executeLoad kind dest base offset) :=
  (readX_blind base).bind fun address =>
    (onBus_blind (Bus.load_blind kind.width (address + offset))).bind fun _ =>
      finish_blind dest _

theorem executeStore_blind (width : Width) (src base : Reg) (offset : Word) :
    Blind (@unlogged ε) (executeStore width src base offset) :=
  (readX_blind base).bind fun address =>
    (readX_blind src).bind fun _ =>
      (onBus_blind (Bus.store_blind width (address + offset) _)).bind fun _ => advance_blind

theorem executeLoadReserved_blind (dest base : Reg) :
    Blind (@unlogged ε) (executeLoadReserved dest base) :=
  (readX_blind base).bind fun address =>
    (onBus_blind (Bus.load_blind .word address)).bind fun value =>
      Blind.bind (fun _ => rfl) fun _ => finish_blind dest value

theorem tryStore_blind (base src : Reg) : Blind (@unlogged ε) (tryStore base src) := by
  intro h
  have hstore := Bus.store_blind .word (h.x base) (h.x src) h.bus
  simp only [tryStore]
  rw [show h.unlogged.x = h.x from rfl, show h.unlogged.bus = h.bus.unlogged from rfl, hstore,
    show h.bus.unlogged.isReserved = h.bus.isReserved from rfl]
  split
  · split
    · cases Bus.store .word (h.x base) (h.x src) h.bus <;> rfl
    · rfl
  · rfl

theorem executeStoreConditional_blind (dest base src : Reg) :
    Blind (@unlogged ε) (executeStoreConditional dest base src) := by
  intro h
  rw [executeStoreConditional_apply, executeStoreConditional_apply, tryStore_blind base src h]
  cases tryStore base src h <;> rfl

theorem executeAmo_blind (op : Amo) (dest base src : Reg) :
    Blind (@unlogged ε) (executeAmo op dest base src) := by
  intro h
  rw [executeAmo_apply, executeAmo_apply, show h.unlogged.x = h.x from rfl,
    show h.unlogged.bus = h.bus.unlogged from rfl, Bus.load_blind .word (h.x base) h.bus]
  split
  · cases Bus.load .word (h.x base) h.bus with
    | error trap b => rfl
    | ok old b =>
        have hstore := Bus.store_blind .word (h.x base) (op.eval old (h.x src)) b
        simp only [mapState]
        rw [hstore]
        cases Bus.store .word (h.x base) (op.eval old (h.x src)) b <;> rfl
  · rfl

theorem execute_blind (i : Instr) (word : Word) : Blind (@unlogged ε) (execute i word) := by
  cases i with
  | lui dest imm => exact finish_blind dest imm
  | auipc dest imm => exact readPc_blind.bind fun pc => finish_blind dest (pc + imm)
  | jal dest offset => exact readPc_blind.bind fun pc => jumpAndLink_blind dest (pc + offset)
  | jalr dest base offset => exact (readX_blind base).bind fun _ => jumpAndLink_blind dest _
  | branch cond src1 src2 offset => exact executeBranch_blind cond src1 src2 offset
  | load kind dest base offset => exact executeLoad_blind kind dest base offset
  | store width src base offset => exact executeStore_blind width src base offset
  | opImm op dest src imm => exact executeWithImm_blind op.toOp dest src imm
  | shiftImm op dest src amount => exact executeWithImm_blind op.toOp dest src _
  | op op dest src1 src2 => exact executeOp_blind op dest src1 src2
  | loadReserved dest base => exact executeLoadReserved_blind dest base
  | storeConditional dest base src => exact executeStoreConditional_blind dest base src
  | amo op dest base src => exact executeAmo_blind op dest base src
  | scall | sbreak | illegal _ => exact throw_blind _
  | eret => exact fun _ => rfl
  | csr op dest src number =>
      exact (readX_blind src).bind fun _ => executeCsr_blind word op dest number _ _
  | csrImm op dest value number => exact executeCsr_blind word op dest number _ _

/-! ## Steps -/

theorem fetchAndExecute_blind : Blind (@unlogged ε) fetchAndExecute :=
  readPc_blind.bind fun pc =>
    (onBus_blind (Bus.fetch_blind pc)).bind fun word =>
      (record_blind _).bind fun _ => execute_blind _ word

theorem step_unlogged (h : Hart ε) : h.unlogged.step = (h.step.1, h.step.2.unlogged) := by
  -- Whether the interrupt is taken is no matter of the journal.
  cases hp : h.pending && h.listening with
  | true =>
      obtain ⟨hpending, hlistening⟩ := Bool.and_eq_true_iff.mp hp
      have hun : h.unlogged.pending = true := hpending
      rw [step_interrupt hpending hlistening, step_interrupt hun hlistening]
      rfl
  | false =>
      have hun : (h.unlogged.pending && h.unlogged.listening) = false := hp
      rw [step_fetch hp, step_fetch hun, fetchAndExecute_blind h]
      cases fetchAndExecute h <;> rfl

end Hart

namespace Microcontroller

/-- The machine with its journal switched off and empty. -/
def unlogged (m : Microcontroller ε) : Microcontroller ε :=
  { m with hart := m.hart.unlogged }

/-! ## Calls -/

theorem writeOne_blind (p : Placement) :
    Blind (@Bus.unlogged ε) (writeAll.writeOne p) := by
  intro b
  unfold writeAll.writeOne
  dsimp only
  rw [Bus.visit_blind p.region.slot _ _ b]
  cases Bus.visit p.region.slot (Device.program p.offset p.segment.data)
    (.outOfRange p.offset p.segment.data.size 0) b <;> rfl

theorem writeAll_blind (placements : List Placement) :
    Blind (@Bus.unlogged ε) (writeAll placements) := by
  induction placements with
  | nil => exact fun _ => rfl
  | cons p rest ih =>
      exact Blind.bind (fun _ => rfl) fun _ => (writeOne_blind p).bind fun _ => ih

theorem load_blind (image : Elf.Image) : Blind (@unlogged ε) (load image) := by
  intro m
  unfold load
  rw [show m.unlogged.regionSize = m.regionSize from rfl]
  cases image.segments.mapM (placement m.regionSize) with
  | error e => rfl
  | ok placements =>
      let b := (m.hart.bus.update romSlot Device.cleared).update ramSlot Device.cleared
      have hclear : (m.unlogged.hart.bus.update romSlot Device.cleared).update ramSlot
          Device.cleared = b.unlogged := by
        rw [← Bus.update_unlogged, ← Bus.update_unlogged]
        rfl
      dsimp only
      rw [hclear, writeAll_blind placements]
      cases writeAll placements b <;> rfl

theorem reset_unlogged (m : Microcontroller ε) : m.unlogged.reset = m.reset.unlogged := by
  have hupdate := Bus.updateController_unlogged m.hart.bus.unreserve controllerSlot (·.reset)
  let hart : Hart ε := m.hart.reset.setX stackPointer (initialStackPointer m.config.ramPages)
  show { m with hart := { hart with
      bus := (m.hart.bus.unreserve.unlogged.updateController controllerSlot (·.reset)).note
        (.restarted resetVector) } } = _
  rw [hupdate]
  rfl

variable [Peripheral ε]

theorem arbitrate_unlogged (m : Microcontroller ε) :
    m.unlogged.arbitrate = m.arbitrate.unlogged := by
  have hdispatch := Bus.dispatch_unlogged (m.hart.bus.cycle controllerSlot) controllerSlot
    m.hart.listening
  unfold arbitrate
  rw [show m.unlogged.hart.bus = m.hart.bus.unlogged from rfl, Bus.cycle_unlogged]
  dsimp only
  rw [show m.unlogged.hart.listening = m.hart.listening from rfl, hdispatch]
  rfl

theorem cycle_unlogged (m : Microcontroller ε) :
    m.unlogged.cycle = (m.cycle.1, m.cycle.2.unlogged) := by
  have hturns : m.attached.foldl Bus.cycle m.hart.step.2.bus.unlogged
      = (m.attached.foldl Bus.cycle m.hart.step.2.bus).unlogged :=
    List.foldl_hom Bus.unlogged Bus.cycle_unlogged
  have harbitrate := arbitrate_unlogged
    ({ m with hart := m.hart.step.2 }.onBus fun b => m.attached.foldl Bus.cycle b)
  unfold cycle
  rw [show m.unlogged.hart = m.hart.unlogged from rfl, Hart.step_unlogged]
  refine Prod.ext rfl (Eq.trans ?_ harbitrate)
  show arbitrate { m with hart := { m.hart.step.2 with
    bus := m.attached.foldl Bus.cycle m.hart.step.2.bus.unlogged } } = _
  rw [hturns]
  rfl

theorem timestep_unlogged (m : Microcontroller ε) :
    m.unlogged.timestep = m.timestep.unlogged := by
  have hturns : m.attached.foldl Bus.timestep m.hart.bus.unlogged
      = (m.attached.foldl Bus.timestep m.hart.bus).unlogged :=
    List.foldl_hom Bus.unlogged Bus.timestep_unlogged
  show { m with hart := { m.hart with
    bus := m.attached.foldl Bus.timestep m.hart.bus.unlogged } } = _
  rw [hturns]
  rfl

theorem apply_unlogged (call : Call ε) (m : Microcontroller ε) :
    call.apply m.unlogged = (call.apply m).unlogged := by
  cases call with
  | install d => rfl
  | attach slot base =>
      simp only [Call.apply, attach]
      rw [show m.unlogged.bus = m.bus.unlogged from rfl, Bus.attach_unlogged]
      cases m.bus.attach slot base <;> rfl
  | register slot line =>
      simp only [Call.apply]
      cases lineOfNat line with
      | error e => rfl
      | ok l =>
          have hupdate :=
            Bus.updateController_unlogged m.hart.bus controllerSlot (·.register slot l)
          show { m with hart := { m.hart with
            bus := m.hart.bus.unlogged.updateController controllerSlot (·.register slot l) } } = _
          rw [hupdate]
          rfl
  | load image =>
      simp only [Call.apply]
      rw [load_blind image m, stateAfter_mapState]
  | reset => exact reset_unlogged m
  | cycle => exact congrArg Prod.snd (cycle_unlogged m)
  | timestep => exact timestep_unlogged m

end Microcontroller

end Rv32Soc
