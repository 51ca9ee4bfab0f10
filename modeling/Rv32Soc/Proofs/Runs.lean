import Mathlib.Data.List.Induction
import Rv32Soc.Microcontroller.Loader
import Rv32Soc.Proofs.Dispatch
import Rv32Soc.Proofs.Evolution
import Rv32Soc.Proofs.HartSteps

/-!
# Runs of the microcontroller

The owner of a microcontroller attaches devices, registers interrupt lines,
loads images, resets, and lets cycles and timesteps pass, in any order. A run
is a list of such calls. Programs and bus masters do what they like meanwhile;
but whatever they do to a device is something that the device does for an
access, a cycle or an acknowledgement. So the interrupt controller of a
microcontroller is at every time in a state that its own operations lead to,
and what holds of all those states holds of it in every run.
-/

namespace Rv32Soc

variable {ε : Type}

/-! ## The controller among the devices -/

/-- If the device is a controller, it is one still and has been changed by operations alone. -/
def Device.Operated (d d' : Device ε) : Prop :=
  ∀ c, d = .controller c → ∃ ops, d' = .controller (c.perform ops)

theorem Device.operated_refl (d : Device ε) : Operated d d :=
  fun _ hd => ⟨[], hd⟩

/-- One operation is a run of operations. -/
theorem Device.operated_one (c : InterruptController) (op : InterruptController.Operation) :
    Operated (.controller c : Device ε) (.controller (op.apply c)) := by
  intro c' hc'
  cases hc'
  exact ⟨[op], rfl⟩

theorem Device.operated_program (offset : Word) (bytes : Array Byte) (d : Device ε) :
    Device.Operated d (stateAfter (Device.program offset bytes d)) := by
  intro c hd
  subst hd
  exact ⟨[], rfl⟩

theorem Device.operated_cleared (d : Device ε) : Device.Operated d d.cleared := by
  intro c hd
  subst hd
  exact ⟨[], rfl⟩

namespace Bus

theorem controller?_eq_some {b : Bus ε} {slot : Nat} {c : InterruptController} :
    b.controller? slot = some c ↔ b.device? slot = some (.controller c) := by
  unfold controller?
  split
  · next c' hc' => rw [hc']; simp
  · next hnone =>
      refine ⟨nofun, fun hc => absurd hc (hnone c)⟩

theorem Evolves.controller? {b b' : Bus ε} (h : Evolves Device.Operated b b') {slot : Nat}
    {c : InterruptController} (hc : b.controller? slot = some c) :
    ∃ ops, b'.controller? slot = some (c.perform ops) := by
  obtain ⟨d, hd, hops⟩ := h.device (controller?_eq_some.mp hc)
  obtain ⟨ops, hd'⟩ := hops c rfl
  refine ⟨ops, controller?_eq_some.mpr ?_⟩
  rw [hd, hd']

theorem controller?_dispatch {b : Bus ε} {slot : Nat} {c : InterruptController}
    (h : b.controller? slot = some c) (listening : Bool) :
    (b.dispatch slot listening).2.controller? slot = some (c.dispatch listening).2 := by
  have hput : (b.put slot (.controller (c.dispatch listening).2)).controller? slot
      = some (c.dispatch listening).2 :=
    controller?_eq_some.mpr (device?_put_self (controller?_eq_some.mp h))
  simp only [dispatch, h]
  split <;> exact hput

end Bus

variable [Peripheral ε]

theorem Device.operated_read (w : Width) (offset : Word) (d : Device ε) :
    Operated d (stateAfter (read w offset d)) := by
  intro c hd
  obtain hsame | ⟨e, e', heq, -⟩ := read_leaves w offset d
  · exact ⟨[], hsame.trans hd⟩
  · cases hd.symm.trans heq

theorem Device.operated_write (w : Width) (offset : Word) (value : BitVec w.bits)
    (d : Device ε) : Operated d (stateAfter (write w offset value d)) := by
  intro c hd
  subst hd
  cases w with
  | byte | halfword => exact ⟨[], rfl⟩
  | word =>
      refine ⟨[.writeWord offset value], ?_⟩
      simp only [write, InterruptController.perform, List.foldl_cons, List.foldl_nil,
        InterruptController.Operation.apply]
      cases InterruptController.writeWord offset value c <;> rfl

theorem Device.lawful_operated : Device.Lawful (@Operated ε) where
  refl := operated_refl
  trans := by
    intro d₁ d₂ d₃ hfirst hsecond c hd
    obtain ⟨ops, hd₂⟩ := hfirst c hd
    obtain ⟨more, hd₃⟩ := hsecond _ hd₂
    refine ⟨ops ++ more, ?_⟩
    rw [hd₃, InterruptController.perform_append]
  read := operated_read
  write := operated_write
  acknowledge := by
    intro d c hd
    subst hd
    exact ⟨[], rfl⟩
  tick := fun _ => nofun
  poll := fun c asserting => operated_one c (.poll asserting)
  turn := fun _ _ => nofun

/-- A lawful relation that includes, besides, what the owner of a machine does to its devices, but
for registering them. -/
structure Device.Inclusive (D : Device ε → Device ε → Prop) : Prop extends
    Device.Lawful D where
  program : ∀ offset bytes d, D d (stateAfter (Device.program offset bytes d))
  cleared : ∀ d, D d d.cleared
  operate : ∀ c op, InterruptController.Operation.registration? op = none →
    D (.controller c) (.controller (op.apply c))

/-- A lawful relation that includes, besides, what the owner of a machine does to its devices. -/
structure Device.Comprehensive (D : Device ε → Device ε → Prop) : Prop extends
    Device.Lawful D where
  program : ∀ offset bytes d, D d (stateAfter (Device.program offset bytes d))
  cleared : ∀ d, D d d.cleared
  operate : ∀ c op, D (.controller c) (.controller (InterruptController.Operation.apply c op))

theorem Device.Comprehensive.inclusive {D : Device ε → Device ε → Prop}
    (hD : Device.Comprehensive D) : Device.Inclusive D where
  toLawful := hD.toLawful
  program := hD.program
  cleared := hD.cleared
  operate c op _ := hD.operate c op

theorem Device.comprehensive_operated : Device.Comprehensive (@Operated ε) where
  toLawful := lawful_operated
  program := operated_program
  cleared := operated_cleared
  operate := operated_one

namespace Bus

theorem traffic_evolves {D : Device ε → Device ε → Prop} (hD : Device.Lawful D) :
    Bus.Traffic (Evolves D) where
  refl := .refl hD
  trans := .trans hD
  note _ _ := evolves_of_slots hD rfl
  reserve _ _ := evolves_of_slots hD rfl
  unreserve _ := evolves_of_slots hD rfl
  load := evolves_load hD
  store := evolves_store hD

theorem attach_slots {b b' : Bus ε} {slot : Nat} {base : Word}
    (h : b.attach slot base = .ok b') : b'.slots = b.slots := by
  unfold attach at h
  split at h
  · cases h
  · simp only [] at h
    split at h
    · cases h
    · split at h
      · cases h
      · split at h
        · cases h
        · split at h <;> cases h
          rfl

end Bus

namespace Microcontroller

/-! ## Calls -/

/-- A call that the owner of a microcontroller makes. Devices are given a slot before they are
attached or registered; slots, addresses and lines may be wrong. -/
inductive Call (ε : Type) where
  | install (device : Device ε)
  | attach (slot : Nat) (base : Word)
  | register (slot line : Nat)
  | load (image : Elf.Image)
  | reset
  | cycle
  | timestep

/-- The state that a call leaves. A call that is refused leaves what it was refused in. -/
def Call.apply (m : Microcontroller ε) : Call ε → Microcontroller ε
  | install d => m.onBus fun b => (b.install d).2
  | attach slot base =>
      match m.attach slot base with
      | .ok m => m
      | .error _ => m
  | register slot line =>
      match lineOfNat line with
      | .ok l => m.register slot l
      | .error _ => m
  | load image => stateAfter (Microcontroller.load image m)
  | reset => m.reset
  | cycle => m.cycle.2
  | timestep => m.timestep

/-- The state after a run of calls. -/
def run (m : Microcontroller ε) (calls : List (Call ε)) : Microcontroller ε :=
  calls.foldl Call.apply m

theorem run_append (m : Microcontroller ε) (calls more : List (Call ε)) :
    m.run (calls ++ more) = (m.run calls).run more :=
  List.foldl_append

theorem run_snoc (m : Microcontroller ε) (calls : List (Call ε)) (call : Call ε) :
    m.run (calls ++ [call]) = call.apply (m.run calls) :=
  run_append m calls [call]

/-! ## Construction -/

theorem place_slots {b b' : Bus ε} {d : Device ε} {base : Word}
    (h : place b d base = .ok b') : b'.slots = b.slots.push (some d) := by
  unfold place at h
  simp only [] at h
  split at h
  · next hattach => cases h; exact Bus.attach_slots hattach
  · cases h

/-- A new microcontroller has its three devices in their slots, and its hart is that of a reset
with a stack pointer. -/
theorem new_eq_ok {config : Config} {m : Microcontroller ε} (h : new config = .ok m) :
    ∃ b : Bus ε, b.slots = #[some (.rom (Storage.ofPages config.romPages)),
        some (.ram (Storage.ofPages config.ramPages)), some (.controller {})]
      ∧ m = { hart := ({ bus := b } : Hart ε).setX stackPointer
                (initialStackPointer config.ramPages)
              config } := by
  simp only [new, bind, Except.bind] at h
  split at h
  · cases h
  · split at h
    · cases h
    · split at h
      · cases h
      · next b₁ hrom =>
          split at h
          · cases h
          · next b₂ hram =>
              split at h
              · cases h
              · next b₃ hcontroller =>
                  cases h
                  refine ⟨b₃, ?_, rfl⟩
                  rw [place_slots hcontroller, place_slots hram, place_slots hrom]
                  rfl

theorem new_ok {config : Config} {m : Microcontroller ε} (h : new config = .ok m) :
    m.bus.slots = #[some (.rom (Storage.ofPages config.romPages)),
        some (.ram (Storage.ofPages config.ramPages)), some (.controller {})]
      ∧ m.hart.pending = false := by
  obtain ⟨b, hslots, rfl⟩ := new_eq_ok h
  exact ⟨hslots, rfl⟩

/-- A new microcontroller has an interrupt controller as at power-on. -/
theorem controller?_new {config : Config} {m : Microcontroller ε} (h : new config = .ok m) :
    m.bus.controller? controllerSlot = some {} := by
  rw [Bus.controller?_eq_some, Bus.device?, (new_ok h).1]
  rfl

/-! ## Images -/

omit [Peripheral ε] in
theorem writeAll_cons (p : Placement) (rest : List Placement) (b : Bus ε) :
    writeAll (p :: rest) b
      = match writeAll.writeOne p
            (b.note (.segmentPlaced p.segment.base p.segment.data.size)) with
        | .ok () b => writeAll rest b
        | .error e b => .error e b := by
  show EStateM.bind (writeAll.writeOne p) (fun _ => writeAll rest)
      (b.note (.segmentPlaced p.segment.base p.segment.data.size)) = _
  unfold EStateM.bind
  split <;> next hone => rw [hone]

end Microcontroller

/-- A preorder of bus states that includes everything that loading an image does to the bus. -/
structure Bus.Filling (R : Bus ε → Bus ε → Prop) : Prop where
  refl : ∀ b, R b b
  trans : ∀ {b₁ b₂ b₃}, R b₁ b₂ → R b₂ b₃ → R b₁ b₃
  note : ∀ b r, R b (b.note r)
  cleared : ∀ b slot, R b (b.update slot Device.cleared)
  program : ∀ slot offset bytes absent b,
    R b (stateAfter (Bus.visit slot (Device.program offset bytes) absent b))

theorem Bus.filling_evolves {D : Device ε → Device ε → Prop} (hD : Device.Lawful D)
    (hprogram : ∀ offset bytes d, D d (stateAfter (Device.program offset bytes d)))
    (hcleared : ∀ d, D d d.cleared) : Bus.Filling (Bus.Evolves D) where
  refl := .refl hD
  trans := .trans hD
  note _ _ := Bus.evolves_of_slots hD rfl
  cleared := Bus.evolves_update hD hcleared
  program slot offset bytes := Bus.evolves_visit hD (hprogram offset bytes) slot

namespace Microcontroller

section Filling

variable {R : Bus ε → Bus ε → Prop} (hR : Bus.Filling R)

include hR

omit [Peripheral ε]

theorem writeOne_fills (p : Placement) (b : Bus ε) : R b (stateAfter (writeAll.writeOne p b)) := by
  have hvisit := hR.program p.region.slot p.offset p.segment.data
    (.outOfRange p.offset p.segment.data.size 0) b
  simp only [writeAll.writeOne]
  split <;> next heq => rw [heq] at hvisit; exact hvisit

theorem writeAll_fills (placements : List Placement) (b : Bus ε) :
    R b (stateAfter (writeAll placements b)) := by
  induction placements generalizing b with
  | nil => exact hR.refl b
  | cons p rest ih =>
      have hnote := hR.note b (.segmentPlaced p.segment.base p.segment.data.size)
      have hone := hR.trans hnote (writeOne_fills hR p _)
      rw [writeAll_cons]
      split
      · next b' heq =>
          rw [heq] at hone
          exact hR.trans hone (ih b')
      · next e b' heq =>
          rw [heq] at hone
          exact hone

theorem load_fills (image : Elf.Image) (m : Microcontroller ε) :
    ∃ b, stateAfter (load image m) = { m with hart := { m.hart with bus := b } }
      ∧ R m.hart.bus b := by
  unfold load
  split
  · exact ⟨m.hart.bus, rfl, hR.refl _⟩
  · next placements hplaced =>
      have hclear := hR.trans (hR.cleared m.hart.bus romSlot) (hR.cleared _ ramSlot)
      have hwrite := hR.trans hclear (writeAll_fills hR placements _)
      simp only []
      split <;> next heq =>
        rw [heq] at hwrite
        first
          | exact ⟨_, rfl, hR.trans hwrite (hR.note _ _)⟩
          | exact ⟨_, rfl, hwrite⟩

end Filling

/-- Loading an image changes devices on the bus and nothing else. -/
theorem load_bus {D : Device ε → Device ε → Prop} (hD : Device.Lawful D)
    (hprogram : ∀ offset bytes d, D d (stateAfter (Device.program offset bytes d)))
    (hcleared : ∀ d, D d d.cleared) (image : Elf.Image) (m : Microcontroller ε) :
    ∃ b, stateAfter (load image m) = { m with hart := { m.hart with bus := b } }
      ∧ Bus.Evolves D m.hart.bus b :=
  load_fills (Bus.filling_evolves hD hprogram hcleared) image m

/-! ## Every call moves the devices as a relation allows -/

/-- The machine when the arbitration of its next cycle decides: the hart has taken its step, the
attached devices have had their cycles, and the controller has polled its sources. -/
def arbitrating (m : Microcontroller ε) : Microcontroller ε :=
  { m with hart := m.hart.step.2 }.onBus fun b =>
    (m.attached.foldl Bus.cycle b).cycle controllerSlot

/-- The line that the next cycle delivers, if it delivers one. -/
def delivery (m : Microcontroller ε) : Option Line :=
  (m.arbitrating.bus.dispatch controllerSlot m.arbitrating.hart.listening).1

theorem cycle_eq (m : Microcontroller ε) :
    m.cycle = (m.hart.step.1,
      { m.arbitrating with hart := { m.arbitrating.hart with
        bus := (m.arbitrating.bus.dispatch controllerSlot m.arbitrating.hart.listening).2
        pending := m.arbitrating.hart.pending || m.delivery.isSome } }) := rfl

variable {D : Device ε → Device ε → Prop}

theorem arbitrating_evolves (hD : Device.Lawful D) (m : Microcontroller ε) :
    Bus.Evolves D m.bus m.arbitrating.bus := by
  have hstep := Hart.step_bus (Bus.traffic_evolves hD) m.hart
  have hturns := hstep.trans hD (Bus.evolves_foldl hD (Bus.evolves_cycle hD) m.attached _)
  exact hturns.trans hD (Bus.evolves_cycle hD _ controllerSlot)

theorem dispatch_evolves (hD : Device.Inclusive D) (b : Bus ε) (slot : Nat)
    (listening : Bool) : Bus.Evolves D b (b.dispatch slot listening).2 := by
  unfold Bus.dispatch
  split
  · exact .refl hD.toLawful b
  · next c hc =>
      have hput := Bus.evolves_put hD.toLawful (Bus.controller?_eq_some.mp hc)
        (hD.operate c (.dispatch listening) rfl)
      simp only []
      split
      · exact hput.trans hD.toLawful (Bus.evolves_of_slots hD.toLawful rfl)
      · exact hput

/-- The slot and the line that a call registers, if it registers one. -/
def Call.registration? : Call ε → Option (Nat × Line)
  | register slot line => InterruptController.Operation.registration? (.register slot line)
  | _ => none

omit [Peripheral ε] in
theorem registration?_register {slot line : Nat} {l : Line} (hline : lineOfNat line = .ok l) :
    (Call.register slot line : Call ε).registration? = some (slot, l) := by
  simp only [Call.registration?, InterruptController.Operation.registration?, hline]

theorem apply_evolves_of_unregistered (hD : Device.Inclusive D) {call : Call ε}
    (hcall : call.registration? = none) (m : Microcontroller ε) :
    Bus.Evolves D m.bus (call.apply m).bus := by
  have hlawful := hD.toLawful
  cases call with
  | install d => exact Bus.evolves_install hlawful m.bus d
  | attach slot base =>
      simp only [Call.apply, attach]
      cases hattach : m.bus.attach slot base with
      | ok b => exact Bus.evolves_of_slots hlawful (Bus.attach_slots hattach)
      | error e => exact .refl hlawful _
  | register slot line =>
      simp only [Call.apply]
      cases hline : lineOfNat line with
      | ok l =>
          rw [registration?_register hline] at hcall
          cases hcall
      | error e => exact .refl hlawful _
  | load image =>
      obtain ⟨b, heq, hb⟩ := load_bus hlawful hD.program hD.cleared image m
      rw [Call.apply, heq]
      exact hb
  | reset =>
      have hunreserve : Bus.Evolves D m.bus m.bus.unreserve :=
        Bus.evolves_of_slots hlawful rfl
      have hreset := hunreserve.trans hlawful (Bus.evolves_updateController hlawful
        (fun c => hD.operate c .reset rfl) m.bus.unreserve controllerSlot)
      exact hreset.trans hlawful (Bus.evolves_of_slots hlawful rfl)
  | cycle =>
      rw [Call.apply, cycle_eq]
      exact (arbitrating_evolves hlawful m).trans hlawful
        (dispatch_evolves hD _ controllerSlot _)
  | timestep => exact Bus.evolves_foldl hlawful (Bus.evolves_timestep hlawful) m.attached m.bus

theorem apply_evolves (hD : Device.Comprehensive D) (call : Call ε) (m : Microcontroller ε) :
    Bus.Evolves D m.bus (call.apply m).bus := by
  cases call with
  | register slot line =>
      simp only [Call.apply]
      cases hline : lineOfNat line with
      | ok l =>
          refine Bus.evolves_updateController hD.toLawful (fun c => ?_) m.bus controllerSlot
          have hone := hD.operate c (.register slot line)
          simp only [InterruptController.Operation.apply, InterruptController.onLine,
            hline] at hone
          exact hone
      | error e => exact .refl hD.toLawful _
  | install _ | attach _ _ | load _ | reset | cycle | timestep =>
      exact apply_evolves_of_unregistered hD.inclusive rfl m

theorem run_evolves (hD : Device.Comprehensive D) (m : Microcontroller ε)
    (calls : List (Call ε)) : Bus.Evolves D m.bus (m.run calls).bus := by
  induction calls using List.reverseRecOn with
  | nil => exact .refl hD.toLawful m.bus
  | append_singleton calls call ih =>
      rw [run_snoc]
      exact ih.trans hD.toLawful (apply_evolves hD call (m.run calls))

/-- However a microcontroller is run, its interrupt controller is in a state that operations
lead to from power-on. -/
theorem controller?_run {config : Config} {m : Microcontroller ε} (hnew : new config = .ok m)
    (calls : List (Call ε)) :
    ∃ ops, (m.run calls).bus.controller? controllerSlot
      = some (InterruptController.perform {} ops) :=
  (run_evolves Device.comprehensive_operated m calls).controller? (controller?_new hnew)

end Microcontroller

end Rv32Soc
