import Rv32Soc.Proofs.Events
import Rv32Soc.Proofs.Housing
import Rv32Soc.Proofs.Unlogged

/-!
# Everything the owner can do

Calls are not all that the owner of a microcontroller can do to it. The pc, the
registers and the control registers can be written, the interrupt raised, the
reservation set and dropped; the bus and every device on it can be accessed
from outside, the memories reprogrammed or cleared, and the controller operated
in all its ways. An action is a call or one of these, and a history is a list
of actions.

Three things are said of every action, with no regard to what it is for. It
moves the devices as a relation allows that includes everything done to them.
Unless it attaches something it leaves the bus as large as it was and the
windows where they were. And it does not depend on the journal.
-/

namespace Rv32Soc

variable {ε : Type}

namespace Bus

/-! ## Pokes -/

/-- Something that is done to the bus from outside. -/
inductive Poke where
  | reserve (address : Word)
  | unreserve
  /-- Load or store at an address, as a bus master does. -/
  | access (request : Request)
  /-- Store into the device in a slot, by its own offsets. -/
  | store (slot : Nat) (w : Width) (offset : Word) (value : BitVec w.bits)
  | program (region : Region) (offset : Word) (bytes : Array Byte)
  | clear (region : Region)
  | acknowledge (line : Nat)
  /-- Do something to the controller. No source is told of it. -/
  | operate (op : InterruptController.Operation)

/-- The bus after a poke, whether it succeeds or fails. -/
def Poke.apply [Peripheral ε] (b : Bus ε) : Poke → Bus ε
  | reserve address => b.reserve address
  | unreserve => b.unreserve
  | access request => (b.answer request).2
  | store slot w offset value =>
      stateAfter (storeInto slot w offset value ⟨.storeAccessFault, offset⟩ b)
  | program region offset bytes =>
      let absent := MemoryError.outOfRange offset bytes.size 0
      stateAfter (visit region.slot (Device.program offset bytes) absent b)
  | clear region => b.update region.slot Device.cleared
  | acknowledge line =>
      match lineOfNat line with
      | .ok l => b.acknowledge controllerSlot l
      | .error _ => b
  | operate op => b.updateController controllerSlot (op.apply ·)

/-- The source that a poke registers, if it registers one. -/
def Poke.registration? : Poke → Option (Nat × Line)
  | operate op => op.registration?
  | _ => none

/-! ## Windows and slots -/

/-- The windows are the same, and there are as many slots. -/
structure SameShape (b b' : Bus ε) : Prop where
  windows : b'.windows = b.windows
  size : b'.slots.size = b.slots.size

section Shape

variable {b b₁ b₂ b₃ b' : Bus ε}

theorem SameShape.refl (b : Bus ε) : SameShape b b :=
  ⟨rfl, rfl⟩

theorem SameShape.trans (h₁ : SameShape b₁ b₂) (h₂ : SameShape b₂ b₃) : SameShape b₁ b₃ :=
  ⟨h₂.windows.trans h₁.windows, h₂.size.trans h₁.size⟩

theorem sameShape_put (b : Bus ε) (slot : Nat) (d : Device ε) : SameShape b (b.put slot d) :=
  ⟨rfl, Array.size_setIfInBounds⟩

theorem sameShape_update (b : Bus ε) (slot : Nat) (f : Device ε → Device ε) :
    SameShape b (b.update slot f) := by
  cases hd : b.device? slot with
  | none =>
      rw [update, hd]
      exact .refl b
  | some d =>
      rw [update_eq_put hd]
      exact sameShape_put b slot (f d)

theorem sameShape_visit {σ α : Type} (slot : Nat) (f : EStateM σ (Device ε) α) (absent : σ)
    (b : Bus ε) : SameShape b (stateAfter (visit slot f absent b)) := by
  cases hd : b.device? slot with
  | none =>
      rw [visit_vacant hd]
      exact .refl b
  | some d =>
      cases hf : f d with
      | ok a d' =>
          rw [visit_ok hd hf]
          exact sameShape_put b slot d'
      | error e d' =>
          rw [visit_error hd hf]
          exact sameShape_put b slot d'

theorem filling_sameShape : Filling (@SameShape ε) where
  refl := .refl
  trans := .trans
  note _ _ := ⟨rfl, rfl⟩
  cleared b slot := sameShape_update b slot _
  program slot _ _ := sameShape_visit slot _

variable [Peripheral ε]

theorem sameShape_announce (b : Bus ε) (told : List Acknowledgement) :
    SameShape b (b.announce told) :=
  told.foldlRecOn _ (.refl b) fun b' h a _ => by
    have htold : SameShape b' (a.sources.foldl tell b') :=
      a.sources.foldlRecOn _ (.refl b') fun b'' h slot _ =>
        h.trans (sameShape_update b'' slot Device.acknowledge)
    exact h.trans ⟨htold.windows, htold.size⟩

theorem sameShape_storeInto (slot : Nat) (w : Width) (offset : Word) (value : BitVec w.bits)
    (absent : AddressTrap) (b : Bus ε) :
    SameShape b (stateAfter (storeInto slot w offset value absent b)) := by
  have hvisit := sameShape_visit slot (Device.write w offset value) absent b
  unfold storeInto
  split
  · next told b' hstore =>
      rw [hstore] at hvisit
      exact hvisit.trans (sameShape_announce b' told)
  · next trap b' hstore =>
      rw [hstore] at hvisit
      exact hvisit

theorem sameShape_load (w : Width) (address : Word) (b : Bus ε) :
    SameShape b (stateAfter (load w address b)) := by
  obtain hsame | ⟨slot, offset, d, -, hput⟩ := load_leaves w address b
  · rw [hsame]
    exact .refl b
  · rw [hput]
    exact sameShape_put b slot _

theorem sameShape_store_ok {w : Width} {address : Word} {value : BitVec w.bits}
    (h : store w address value b = .ok () b') : SameShape b b' := by
  obtain ⟨-, slot, offset, d, told, d', -, -, -, rfl⟩ := store_eq_ok.mp h
  have htold := (sameShape_put b slot d').trans (sameShape_announce _ told)
  unfold loseReservation
  split
  · exact ⟨htold.windows, htold.size⟩
  · exact htold

theorem sameShape_chronicle : Chronicle fun (b : Bus ε) _ b' => SameShape b b' where
  noted := by
    rintro b _ ⟨journal, rfl⟩
    exact ⟨rfl, rfl⟩
  append := .trans
  load := sameShape_load
  store := sameShape_store_ok
  refused h := by
    obtain rfl | ⟨slot, -, -, d', -, -, -, -, rfl⟩ := store_eq_error h
    · exact .refl _
    · exact sameShape_put _ slot d'
  reserve _ _ := ⟨rfl, rfl⟩
  conditional _ := ⟨rfl, rfl⟩
  conditionalStore h := (sameShape_store_ok h).trans ⟨rfl, rfl⟩
  restart _ := ⟨rfl, rfl⟩
  put _ _ _ := sameShape_put _ _ _
  turn := by
    intro b slot e _ b' e' _ h
    -- A vacant slot is a slot still.
    have hsize : (b.vacate slot).slots.size = b.slots.size := Array.size_setIfInBounds
    have hback := sameShape_put b' slot (.external e')
    exact ⟨h.windows, hback.size.trans (h.size.trans hsize)⟩

theorem poke_sameShape (p : Poke) (b : Bus ε) : SameShape b (p.apply b) := by
  cases p with
  | reserve address => exact sameShape_chronicle.reserve b address
  | unreserve => exact sameShape_chronicle.restart b
  | access request => exact sameShape_chronicle.answer request b
  | store slot w offset value => exact sameShape_storeInto slot w offset value _ b
  | program region offset bytes => exact sameShape_visit region.slot _ _ b
  | clear region => exact sameShape_update b region.slot _
  | acknowledge line =>
      simp only [Poke.apply]
      cases lineOfNat line with
      | error e => exact .refl b
      | ok l =>
          dsimp only
          unfold Bus.acknowledge
          split
          · exact .refl b
          · exact (sameShape_put b _ _).trans (sameShape_announce _ _)
  | operate op => exact sameShape_update b controllerSlot _

end Shape

/-! ## Devices, and the journal -/

variable [Peripheral ε]

theorem poke_evolves {D : Device ε → Device ε → Prop} (hD : Device.Inclusive D) {p : Poke}
    (hp : p.registration? = none) (b : Bus ε) : Evolves D b (p.apply b) := by
  have hlawful := hD.toLawful
  cases p with
  | reserve address | unreserve => exact evolves_of_slots hlawful rfl
  | access request => exact evolves_answer hlawful request b
  | store slot w offset value => exact evolves_storeInto hlawful slot w offset value _ b
  | program region offset bytes =>
      exact evolves_visit hlawful (hD.program offset bytes) region.slot _ b
  | clear region => exact evolves_update hlawful hD.cleared b region.slot
  | acknowledge line =>
      simp only [Poke.apply]
      cases hline : lineOfNat line with
      | error e => exact .refl hlawful b
      | ok l =>
          dsimp only
          unfold Bus.acknowledge
          split
          · exact .refl hlawful b
          · next c hc =>
              have hone := hD.operate c (.acknowledge line) rfl
              simp only [InterruptController.Operation.apply, InterruptController.onLine,
                hline] at hone
              exact (evolves_put hlawful (controller?_eq_some.mp hc) hone).trans hlawful
                (evolves_announce hlawful _ _)
  | operate op =>
      exact evolves_updateController hlawful (fun c => hD.operate c op hp) b controllerSlot

theorem poke_unlogged (p : Poke) (b : Bus ε) :
    p.apply b.unlogged = (p.apply b).unlogged := by
  cases p with
  | reserve address | unreserve => rfl
  | access request => exact congrArg Prod.snd (answer_unlogged request b)
  | store slot w offset value =>
      simp only [Poke.apply, storeInto_blind slot w offset value _ b, stateAfter_mapState]
  | program region offset bytes =>
      simp only [Poke.apply, visit_blind region.slot _ _ b, stateAfter_mapState]
  | clear region => exact update_unlogged b region.slot _
  | acknowledge line =>
      simp only [Poke.apply]
      cases lineOfNat line with
      | error e => rfl
      | ok l => exact acknowledge_unlogged b controllerSlot l
  | operate op => exact updateController_unlogged b controllerSlot _

end Bus

namespace Hart

/-! ## Edits -/

/-- Something that is written into the hart from outside. Numbers may name no register. -/
inductive Edit where
  | setPc (address : Word)
  | setRegister (number : Nat) (value : Word)
  | setCsr (number : BitVec 16) (value : Word)
  | raise

/-- The hart after an edit. What names no register is ignored. -/
def Edit.apply (h : Hart ε) : Edit → Hart ε
  | setPc address => { h with pc := address }
  | setRegister number value =>
      match h.registers.write number value with
      | .ok registers => { h with registers }
      | .error _ => h
  | setCsr number value =>
      match h.csr.write number value with
      | .ok csr => { h with csr }
      | .error _ => h
  | raise => h.raiseExternal

theorem edit_bus (e : Edit) (h : Hart ε) : (e.apply h).bus = h.bus := by
  cases e with
  | setPc address | raise => rfl
  | setRegister number value =>
      simp only [Edit.apply]
      split <;> rfl
  | setCsr number value =>
      simp only [Edit.apply]
      split <;> rfl

theorem edit_unlogged (e : Edit) (h : Hart ε) : e.apply h.unlogged = (e.apply h).unlogged := by
  cases e with
  | setPc address | raise => rfl
  | setRegister number value =>
      simp only [Edit.apply]
      rw [show h.unlogged.registers = h.registers from rfl]
      cases h.registers.write number value <;> rfl
  | setCsr number value =>
      simp only [Edit.apply]
      rw [show h.unlogged.csr = h.csr from rfl]
      cases h.csr.write number value <;> rfl

end Hart

namespace Microcontroller

/-! ## Actions -/

/-- Something that the owner of a microcontroller does to it. -/
inductive Action (ε : Type) where
  | call (call : Call ε)
  | poke (p : Bus.Poke)
  | edit (e : Hart.Edit)

/-- The slot and the line that an action registers, if it registers one. -/
def Action.registration? : Action ε → Option (Nat × Line)
  | call c => c.registration?
  | poke p => p.registration?
  | _ => none

/-- The sources that a history registers, in order. -/
def registrations (history : List (Action ε)) : List (Nat × Line) :=
  history.filterMap Action.registration?

/-- The action gives the machine no device and no source of interrupts. -/
def Action.Bare : Action ε → Prop
  | call (.install _) | call (.attach _ _) | call (.register _ _)
  | poke (.operate (.register _ _)) => False
  | _ => True

theorem Action.Bare.registration? {a : Action ε} (ha : a.Bare) : a.registration? = none := by
  cases a with
  | call c => cases c <;> first | rfl | cases ha
  | poke p =>
      cases p with
      | operate op => cases op <;> first | rfl | cases ha
      | _ => rfl
  | edit e => rfl

theorem registrations_eq_nil {history : List (Action ε)} (h : ∀ a ∈ history, a.Bare) :
    registrations history = [] :=
  List.filterMap_eq_nil_iff.mpr fun a ha => (h a ha).registration?

variable [Peripheral ε]

/-- The machine after an action. -/
def Action.apply (m : Microcontroller ε) : Action ε → Microcontroller ε
  | call c => c.apply m
  | poke p => m.onBus p.apply
  | edit e => { m with hart := e.apply m.hart }

/-- The state after a history of actions. -/
def after (m : Microcontroller ε) (history : List (Action ε)) : Microcontroller ε :=
  history.foldl Action.apply m

theorem after_snoc (m : Microcontroller ε) (history : List (Action ε)) (a : Action ε) :
    m.after (history ++ [a]) = a.apply (m.after history) :=
  List.foldl_append

/-! ## What every action keeps -/

theorem act_evolves {D : Device ε → Device ε → Prop} (hD : Device.Inclusive D) {a : Action ε}
    (ha : a.registration? = none) (m : Microcontroller ε) :
    Bus.Evolves D m.bus (a.apply m).bus := by
  cases a with
  | call c => exact apply_evolves_of_unregistered hD ha m
  | poke p => exact Bus.poke_evolves hD ha m.bus
  | edit e => exact Bus.evolves_of_slots hD.toLawful (congrArg Bus.slots (m.hart.edit_bus e))

theorem apply_config (call : Call ε) (m : Microcontroller ε) :
    (call.apply m).config = m.config := by
  cases call with
  | attach slot base =>
      simp only [Call.apply, attach]
      cases m.bus.attach slot base <;> rfl
  | register slot line =>
      simp only [Call.apply]
      cases lineOfNat line <;> rfl
  | load image =>
      obtain ⟨b, heq, -⟩ := load_fills Bus.filling_sameShape image m
      rw [Call.apply, heq]
  | install _ | reset | cycle | timestep => rfl

theorem act_config (a : Action ε) (m : Microcontroller ε) : (a.apply m).config = m.config := by
  cases a with
  | call c => exact apply_config c m
  | poke p | edit e => rfl

theorem after_config (m : Microcontroller ε) (history : List (Action ε)) :
    (m.after history).config = m.config := by
  induction history using List.reverseRecOn with
  | nil => rfl
  | append_singleton history a ih =>
      rw [after_snoc, act_config]
      exact ih

/-- The same devices are attached, under the same windows. -/
structure SameDevices (m m' : Microcontroller ε) : Prop where
  shape : Bus.SameShape m.bus m'.bus
  attached : m'.attached = m.attached

omit [Peripheral ε] in
theorem SameDevices.trans {m₁ m₂ m₃ : Microcontroller ε} (h₁ : SameDevices m₁ m₂)
    (h₂ : SameDevices m₂ m₃) : SameDevices m₁ m₃ :=
  ⟨h₁.shape.trans h₂.shape, h₂.attached.trans h₁.attached⟩

theorem act_sameDevices {a : Action ε} (ha : a.Bare) (m : Microcontroller ε) :
    SameDevices m (a.apply m) := by
  cases a with
  | call c =>
      cases c with
      | install _ | attach _ _ | register _ _ => cases ha
      | load image =>
          obtain ⟨b, heq, hb⟩ := load_fills Bus.filling_sameShape image m
          rw [Action.apply, Call.apply, heq]
          exact ⟨hb, rfl⟩
      | reset => exact ⟨reset_chronicled Bus.sameShape_chronicle m, rfl⟩
      | cycle => exact ⟨cycle_chronicled Bus.sameShape_chronicle m, rfl⟩
      | timestep => exact ⟨timestep_chronicled Bus.sameShape_chronicle m, rfl⟩
  | poke p => exact ⟨Bus.poke_sameShape p m.bus, rfl⟩
  | edit e =>
      have hbus : (Action.apply m (.edit e)).bus = m.bus := m.hart.edit_bus e
      refine ⟨?_, rfl⟩
      rw [hbus]
      exact .refl m.bus

theorem after_sameDevices {history : List (Action ε)} (h : ∀ a ∈ history, a.Bare)
    (m : Microcontroller ε) : SameDevices m (m.after history) :=
  history.foldlRecOn _ ⟨.refl _, rfl⟩ fun m' hm' a ha => hm'.trans (act_sameDevices (h a ha) m')

theorem act_unlogged (a : Action ε) (m : Microcontroller ε) :
    a.apply m.unlogged = (a.apply m).unlogged := by
  cases a with
  | call c => exact apply_unlogged c m
  | poke p =>
      have hpoke := Bus.poke_unlogged p m.hart.bus
      show { m with hart := { m.hart with bus := p.apply m.hart.bus.unlogged } } = _
      rw [hpoke]
      rfl
  | edit e => exact congrArg (fun hart => { m with hart }) (m.hart.edit_unlogged e)

theorem after_unlogged (m : Microcontroller ε) (history : List (Action ε)) :
    m.unlogged.after history = (m.after history).unlogged :=
  List.foldl_hom unlogged fun m a => act_unlogged a m

end Microcontroller

end Rv32Soc
