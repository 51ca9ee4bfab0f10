import Rv32Soc.Device.Probe
import Rv32Soc.Proofs.Construction
import Rv32Soc.Proofs.Footprints
import Rv32Soc.Proofs.Loading

/-!
# Programs cannot write to a ROM

A ROM refuses every store that comes over the bus, and everything that a hart
or a device does to a machine it does over the bus. So no ROM ever changes but
by loading an image, which goes past the bus. The hart fails in one of two
ways: an instruction that tries to store ends in an exception, and a
store-conditional that does not try tells so.

The bus that a device meets in its turn is not the one before or after the
cycle: other devices have acted, and the device's own slot is vacant. Hence the
requests of a cycle are listed here each with its own bus, and the ROM is shown
to be guarded on all of them.
-/

namespace Rv32Soc

variable {ε : Type}

/-- How a store is refused at an address where stores are not allowed. -/
def refusedStore (width : Width) (address : Word) : AddressTrap :=
  ⟨if width.Aligned address then .storeAccessFault else .storeMisaligned, address⟩

theorem toException_refusedStore (width : Width) (address : Word) :
    (refusedStore width address).toException
      = if width.Aligned address then .storeAccessFault address
        else .storeAddressMisaligned address := by
  unfold refusedStore
  split <;> rfl

namespace Bus

/-! ## What happens to ROMs -/

/-- Every ROM is as it was, and is seen where it was. -/
structure Spares (b b' : Bus ε) : Prop where
  windows : b'.windows = b.windows
  rom : ∀ slot s, b.device? slot = some (.rom s) → b'.device? slot = some (.rom s)

section Relation

variable {b b₁ b₂ b₃ b' : Bus ε}

theorem Spares.trans (h₁ : Spares b₁ b₂) (h₂ : Spares b₂ b₃) : Spares b₁ b₃ :=
  ⟨h₂.windows.trans h₁.windows, fun slot s hs => h₂.rom slot s (h₁.rom slot s hs)⟩

theorem spares_of_slots (hwindows : b'.windows = b.windows) (hslots : b'.slots = b.slots) :
    Spares b b' :=
  ⟨hwindows, fun _ _ hs => keepsMemories_of_slots hslots _ _ hs rfl⟩

theorem Spares.refl (b : Bus ε) : Spares b b :=
  spares_of_slots rfl rfl

theorem Confined.spares {access? : Option (Width × Word)} (h : Confined access? b b') :
    Spares b b' :=
  ⟨h.windows, h.rom⟩

theorem spares_put {slot : Nat} {d d' : Device ε} (hd : b.device? slot = some d)
    (hrom : ∀ s, d = .rom s → d' = .rom s) : Spares b (b.put slot d') := by
  refine ⟨rfl, fun other s hs => ?_⟩
  by_cases hslot : slot = other
  · subst hslot
    rw [hd] at hs
    cases hs
    rw [device?_put_self hd, hrom s rfl]
  · rw [device?_put_of_ne b hslot, hs]

/-- The slot of a bus master is vacant while it takes its turn. -/
theorem spares_vacate {slot : Nat} {e : ε} (hd : b.device? slot = some (.external e)) :
    Spares b (b.vacate slot) :=
  ⟨rfl, fun other _ hs => keepsMemories_vacate hd other _ hs rfl⟩

end Relation

variable [Peripheral ε]

/-- No access of anybody changes a ROM. -/
theorem spares_chronicle : Chronicle fun (b : Bus ε) _ b' => Spares b b' where
  noted := by
    rintro b _ ⟨journal, rfl⟩
    exact spares_of_slots rfl rfl
  append := Spares.trans
  load w address b := (load_confined none w address b).spares
  store h := (store_confined h).spares
  refused h :=
    ⟨(store_error_steady h).windows, fun slot s hs => store_error_keepsMemories h slot _ hs rfl⟩
  reserve _ _ := spares_of_slots rfl rfl
  conditional _ := spares_of_slots rfl rfl
  conditionalStore h := (store_confined h).spares.trans (spares_of_slots rfl rfl)
  restart _ := spares_of_slots rfl rfl
  put := by
    intro b slot d d' hd hmemory
    refine spares_put hd fun s hs => ?_
    rw [hs] at hmemory
    cases hmemory
  turn := by
    intro b slot e _ b' e' hd h
    refine ⟨h.windows, fun other s hs => ?_⟩
    rw [device?_put_of_ne b' (ne_of_external hd hs rfl)]
    exact ((spares_vacate hd).trans h).rom other s hs

/-! ## Requests

The requests that bus masters make, each with the bus that it meets.
-/

/-- The requests of a script. -/
def scriptRequests {α : Type} : Script α → Bus ε → List (Request × Bus ε)
  | .done _, _ => []
  | .ask request next, b =>
      (request, b) :: scriptRequests (next (b.answer request).1) (b.answer request).2

/-- What a bus master does in one phase. -/
def scriptOf (e : ε) : Phase → Script ε
  | .cycle => Peripheral.cycle e
  | .timestep => Peripheral.timestep e

/-- The bus after the device in a slot has had its phase. -/
def phased (b : Bus ε) (slot : Nat) : Phase → Bus ε
  | .cycle => b.cycle slot
  | .timestep => b.timestep slot

/-- The requests that the device in a slot makes in one phase, if it is a bus master. -/
def turnRequests (b : Bus ε) (slot : Nat) (phase : Phase) : List (Request × Bus ε) :=
  match b.device? slot with
  | some (.external e) => scriptRequests (scriptOf e phase) (b.vacate slot)
  | _ => []

/-- The requests that the devices in some slots make while each has its phase. -/
def roundRequests (phase : Phase) : List Nat → Bus ε → List (Request × Bus ε)
  | [], _ => []
  | slot :: rest, b => b.turnRequests slot phase ++ roundRequests phase rest (b.phased slot phase)

theorem spares_of_mem_scriptRequests {α : Type} {script : Script α} {b b' : Bus ε}
    {request : Request} (h : (request, b') ∈ scriptRequests script b) : Spares b b' := by
  induction script generalizing b with
  | done result => cases h
  | ask first next ih =>
      rcases List.mem_cons.mp h with heq | hrest
      · cases heq
        exact .refl _
      · exact (spares_chronicle.answer first b).trans (ih _ hrest)

theorem phased_spares (b : Bus ε) (slot : Nat) (phase : Phase) :
    Spares b (b.phased slot phase) := by
  cases phase with
  | cycle => exact spares_chronicle.cycle b slot
  | timestep => exact spares_chronicle.timestep b slot

theorem spares_of_mem_roundRequests {phase : Phase} {slots : List Nat} {b b' : Bus ε}
    {request : Request} (h : (request, b') ∈ roundRequests phase slots b) : Spares b b' := by
  induction slots generalizing b with
  | nil => cases h
  | cons slot rest ih =>
      rcases List.mem_append.mp h with hturn | hrest
      · unfold turnRequests at hturn
        split at hturn
        · next e hd => exact (spares_vacate hd).trans (spares_of_mem_scriptRequests hturn)
        · cases hturn
      · exact (phased_spares b slot phase).trans (ih hrest)

/-! ## A ROM behind a window -/

/-- A ROM fills a window of the bus. -/
structure MapsRom (b : Bus ε) (w : Window) (s : Storage) : Prop where
  device : b.device? w.slot = some (.rom s)
  size : s.memory.size = w.bytes
  laid : Laid b.windows
  mem : w ∈ b.windows

/-- What a ROM is for all who use the bus: the bytes can be loaded and fetched at the addresses of
the window, and no store at an address that leads to the ROM, be it there or elsewhere, does
anything. -/
structure Guards (b : Bus ε) (w : Window) (rom : Memory) : Prop where
  load : ∀ width address, w.Holds address → width.Aligned address →
    Bus.load width address b = .ok (assemble rom.bytes (address - w.base).toNat width.bytes) b
  fetch : ∀ address, w.Holds address → Width.Aligned .word address →
    Bus.fetch address b = .ok (assemble rom.bytes (address - w.base).toNat 4) b
  mapped : ∀ address, w.Holds address → b.route address = some (w.slot, address - w.base)
  store : ∀ width address value offset, b.route address = some (w.slot, offset) →
    Bus.store width address value b = .error (refusedStore width address) b
  answer : ∀ width address value offset, b.route address = some (w.slot, offset) →
    b.answer (.store width address value) = (.error (refusedStore width address), b)

theorem store_rom {b : Bus ε} {slot : Nat} {s : Storage} (hd : b.device? slot = some (.rom s))
    {address offset : Word} (hroute : b.route address = some (slot, offset)) (width : Width)
    (value : BitVec width.bits) :
    store width address value b = .error (refusedStore width address) b := by
  unfold refusedStore
  by_cases haligned : width.Aligned address
  · have hwrite : Device.write width offset value (.rom s)
        = .error ⟨.storeAccessFault, offset⟩ (.rom s : Device ε) := rfl
    rw [store, if_pos haligned, if_pos haligned, hroute]
    simp only [storeInto, visit_error hd hwrite, put_self hd]
  · rw [store, if_neg haligned, if_neg haligned]

theorem MapsRom.guards {b : Bus ε} {w : Window} {s : Storage} (h : b.MapsRom w s) :
    b.Guards w s.memory := by
  have hload : ∀ width address, w.Holds address → width.Aligned address →
      Bus.load width address b
        = .ok (assemble s.memory.bytes (address - w.base).toNat width.bytes) b :=
    fun width address ha haligned => load_of_holds h.laid h.mem ha haligned h.device rfl h.size
  refine ⟨hload, ?_, fun address ha => route_of_holds h.laid h.mem ha, ?_, ?_⟩
  · intro address ha haligned
    rw [fetch, if_pos haligned, hload .word address ha haligned]
    rfl
  · intro width address value offset hroute
    exact store_rom h.device hroute width value
  · intro width address value offset hroute
    rw [answer, store_rom h.device hroute]

omit [Peripheral ε] in
theorem MapsRom.of_spares {b b' : Bus ε} {w : Window} {s : Storage} (h : b.MapsRom w s)
    (hb : Spares b b') : b'.MapsRom w s :=
  ⟨hb.rom _ _ h.device, h.size, hb.windows ▸ h.laid, hb.windows ▸ h.mem⟩

end Bus

namespace Hart

open Isa

variable [Peripheral ε]

/-! ## Instructions that would store into a ROM -/

/-- What becomes of an instruction whose store is aimed at a ROM. One that withholds its store, a
store-conditional without its reservation, tells so in its destination; all others, and this one too
if its address does not suit a word, end in an exception. -/
structure Refused (h : Hart ε) (i : Instr) (width : Width) (address : Word) : Prop where
  trap : (h.withholds i = true → ¬width.Aligned address) → h.step.1
    = some (.exception (refusedStore width address).toException)
  withheld : h.withholds i = true → width.Aligned address → h.step.1 = none
    ∧ ∀ dest base src, i = .storeConditional dest base src → dest ≠ 0 → h.step.2.x dest = 1
  reservation : h.step.2.bus.reservation
    = if i.isStoreConditional then none else h.bus.reservation
  spared : Bus.Spares h.bus h.step.2.bus

section Refusals

variable {h : Hart ε} {i : Instr} {width : Width} {address : Word} {slot : Nat} {offset : Word}
  {s : Storage}

theorem execute_refused (word : Word) (htarget : h.storeTarget? i = some (width, address))
    (hroute : h.bus.route address = some (slot, offset))
    (hd : h.bus.device? slot = some (.rom s))
    (hattempt : h.withholds i = true → ¬width.Aligned address) :
    ∃ h', execute i word h = .error (refusedStore width address).toException h'
      ∧ h'.bus.reservation = if i.isStoreConditional then none else h.bus.reservation := by
  cases i with
  | store w src base place =>
      cases htarget
      refine ⟨h, ?_, rfl⟩
      rw [execute, executeStore_apply, Bus.store_rom hd hroute]
  | storeConditional dest base src =>
      cases htarget
      refine ⟨{ h with bus := h.bus.unreserve }, ?_, rfl⟩
      rw [execute, executeStoreConditional_apply]
      by_cases haligned : Width.Aligned .word (h.x base)
      · have hreserved : h.bus.isReserved (h.x base) = true := by
          by_contra hfree
          exact hattempt (by simp [withholds, hfree]) haligned
        have hstore := Bus.store_rom hd hroute .word (h.x src)
        rw [tryStore_reserved haligned hreserved, hstore]
      · simp only [tryStore, if_neg haligned, toException_refusedStore]
  | amo op dest base src =>
      cases htarget
      rw [execute, executeAmo_apply, toException_refusedStore]
      by_cases haligned : Width.Aligned .word (h.x base)
      · have hsteady := Bus.load_steady .word (h.x base) h.bus
        have hkept := Bus.load_keepsMemories .word (h.x base) h.bus
        rw [if_pos haligned, if_pos haligned]
        cases hload : Bus.load .word (h.x base) h.bus with
        | error trap b =>
            rw [hload] at hsteady
            exact ⟨_, rfl, hsteady.reservation⟩
        | ok old b =>
            rw [hload] at hsteady hkept
            have hroute' : b.route (h.x base) = some (slot, offset) :=
              (Bus.route_of_windows hsteady.windows _).trans hroute
            have hd' : b.device? slot = some (.rom s) := hkept slot _ hd rfl
            have hstore := Bus.store_rom hd' hroute' .word (op.eval old (h.x src))
            have hfault : (refusedStore .word (h.x base)).toException
                = .storeAccessFault (h.x base) := by
              rw [toException_refusedStore, if_pos haligned]
            simp only [hstore, hfault]
            exact ⟨_, rfl, hsteady.reservation⟩
      · rw [if_neg haligned, if_neg haligned]
        exact ⟨h, rfl, rfl⟩
  | _ => cases htarget

theorem execute_withheld (word : Word) (hwithholds : h.withholds i = true)
    (htarget : h.storeTarget? i = some (width, address)) (haligned : width.Aligned address) :
    ∃ h', execute i word h = .ok () h' ∧ h'.bus.reservation = none
      ∧ ∀ dest base src, i = .storeConditional dest base src → dest ≠ 0 → h'.x dest = 1 := by
  cases i with
  | storeConditional dest base src =>
      cases htarget
      have hfree : h.bus.isReserved (h.x base) = false := by
        rw [withholds, Bool.not_eq_true'] at hwithholds
        exact hwithholds
      rw [execute, executeStoreConditional_apply, tryStore_unreserved haligned hfree]
      refine ⟨_, rfl, rfl, fun dest' base' src' heq hdest => ?_⟩
      cases heq
      exact Registers.get_set hdest 1
  | _ => cases hwithholds

theorem step_refused (hexecuted : h.executed? = some i)
    (htarget : h.storeTarget? i = some (width, address))
    (hroute : h.bus.route address = some (slot, offset))
    (hd : h.bus.device? slot = some (.rom s)) : Refused h i width address := by
  obtain ⟨⟨word, h₁⟩, hb, rfl⟩ := Option.map_eq_some_iff.mp hexecuted
  have hspared : Bus.Spares h.bus h.step.2.bus := step_chronicled Bus.spares_chronicle h
  -- The fetch leaves everything that decides about the store.
  have hroute₁ : h₁.bus.route address = some (slot, offset) :=
    (Bus.route_of_windows (beginning_confined hb none).windows address).trans hroute
  have hd₁ : h₁.bus.device? slot = some (.rom s) := beginning_keepsMemories hb slot _ hd rfl
  have htarget₁ := (beginning_storeTarget? hb (Instr.decode word)).trans htarget
  have hwithholds := beginning_withholds hb (Instr.decode word)
  have hstep := step_of_beginning hb
  by_cases hattempt : h.withholds (Instr.decode word) = true → ¬width.Aligned address
  · obtain ⟨h', hrun, hreservation⟩ := execute_refused word htarget₁ hroute₁ hd₁
      (by rw [hwithholds]; exact hattempt)
    simp only [hrun] at hstep
    refine ⟨fun _ => by rw [hstep], fun hyes haligned => absurd haligned (hattempt hyes), ?_,
      hspared⟩
    rw [hstep, ← beginning_reservation hb]
    exact hreservation
  · rw [Classical.not_imp, not_not] at hattempt
    obtain ⟨hyes, haligned⟩ := hattempt
    obtain ⟨h', hrun, hreservation, hstatus⟩ := execute_withheld word
      (hwithholds.trans hyes) htarget₁ haligned
    simp only [hrun] at hstep
    refine ⟨fun hno => absurd haligned (hno hyes), fun _ _ => ?_, ?_, hspared⟩
    · rw [hstep]
      exact ⟨rfl, hstatus⟩
    · have hconditional : (Instr.decode word).isStoreConditional = true := by
        revert hyes
        cases Instr.decode word <;> intro hyes <;> first | rfl | cases hyes
      rw [hstep, hconditional]
      exact hreservation

end Refusals

end Hart

namespace Microcontroller

/-! ## Calls -/

variable [Peripheral ε] {config : Config} {m : Microcontroller ε} {w : Window} {s : Storage}

/-- Only loading an image changes the ROM. -/
theorem mapsRom_apply (h : m.bus.MapsRom w s) {call : Call ε}
    (hcall : ∀ image, call ≠ .load image) : (call.apply m).bus.MapsRom w s := by
  cases call with
  | install d => exact ⟨Bus.device?_install h.device d, h.size, h.laid, h.mem⟩
  | attach slot base =>
      simp only [Call.apply, attach]
      cases hattach : m.bus.attach slot base with
      | error e => exact h
      | ok b =>
          obtain ⟨d, -, hplaced, hapart, rfl⟩ := Bus.attach_eq_ok.mp hattach
          exact ⟨h.device, h.size, h.laid.snoc hplaced hapart, List.mem_append_left _ h.mem⟩
  | register slot line =>
      simp only [Call.apply]
      cases lineOfNat line with
      | error e => exact h
      | ok l => exact h.of_spares (Bus.spares_chronicle.updateController m.bus controllerSlot _)
  | load image => exact absurd rfl (hcall image)
  | reset => exact h.of_spares (reset_chronicled Bus.spares_chronicle m)
  | cycle => exact h.of_spares (cycle_chronicled Bus.spares_chronicle m)
  | timestep => exact h.of_spares (timestep_chronicled Bus.spares_chronicle m)

theorem mapsRom_run (h : m.bus.MapsRom w s) {calls : List (Call ε)}
    (hcalls : ∀ image, .load image ∉ calls) : (m.run calls).bus.MapsRom w s := by
  induction calls using List.reverseRecOn with
  | nil => exact h
  | append_singleton calls call ih =>
      simp only [List.mem_append, List.mem_singleton, not_or] at hcalls
      rw [run_snoc]
      exact mapsRom_apply (ih fun image => (hcalls image).1) fun image => Ne.symm (hcalls image).2

/-! ## Machines as they are made -/

theorem mapsRom_new (hnew : new config = .ok m) :
    m.bus.MapsRom (config.window .rom) (Storage.ofPages config.romPages) := by
  refine ⟨device?_new hnew .rom, size_ofPages _, laid_new hnew, ?_⟩
  rw [windows_new hnew]
  exact List.mem_cons_self

omit [Peripheral ε] in
/-- An image gives the ROM other bytes, and it stays where it is. -/
theorem mapsRom_load (h : m.bus.MapsRom (config.window .rom) s) (hhoused : m.Housed)
    (image : Elf.Image) :
    ∃ s', (stateAfter (load image m)).bus.MapsRom (config.window .rom) s' := by
  have hwholly := hhoused.loadsWholly image
  cases hload : load image m with
  | error e m' =>
      obtain ⟨rfl, -⟩ := hwholly.refuses e m' hload
      exact ⟨s, h⟩
  | ok u m' =>
      have hloaded := hwholly.loads m' hload
      obtain ⟨s', hd', -⟩ := hloaded.housed .rom
      have hsize : s'.memory.size = s.memory.size := by
        have hrom : (m'.memoryAt Region.rom.slot).size = (m.memoryAt Region.rom.slot).size :=
          hloaded.romSize
        rw [memoryAt_eq hd', memoryAt_eq (s := s) h.device] at hrom
        exact hrom
      have hwindows : m'.bus.windows = m.bus.windows := hloaded.bus.windows
      exact ⟨s', hd', hsize.trans h.size, hwindows ▸ h.laid, hwindows ▸ h.mem⟩

theorem mapsRom_of_new (hnew : new config = .ok m) (calls : List (Call ε)) :
    ∃ s, (m.run calls).bus.MapsRom (config.window .rom) s := by
  induction calls using List.reverseRecOn with
  | nil => exact ⟨_, mapsRom_new hnew⟩
  | append_singleton calls call ih =>
      obtain ⟨s, hs⟩ := ih
      rw [run_snoc]
      by_cases hload : ∃ image, call = .load image
      · obtain ⟨image, rfl⟩ := hload
        exact mapsRom_load hs ((housed_new hnew).run calls) image
      · exact ⟨s, mapsRom_apply hs fun image heq => hload ⟨image, heq⟩⟩

/-! ## The ROM in a run -/

/-- The requests that the attached devices make in the next cycle, after the step of the hart, or
in the next timestep. -/
def requests (m : Microcontroller ε) (phase : Phase) : List (Request × Bus ε) :=
  Bus.roundRequests phase m.attached
    (match phase with
    | .cycle => m.hart.step.2.bus
    | .timestep => m.bus)

/-- The ROM behind a window has certain bytes, and is guarded: from the hart, whatever instruction
comes next, and from the devices, whenever one of them makes a request. -/
structure Intact (m : Microcontroller ε) (w : Window) (rom : Memory) : Prop where
  contents : m.memoryAt w.slot = rom
  bus : m.bus.Guards w rom
  hart : ∀ i width address offset, m.hart.executed? = some i →
    m.hart.storeTarget? i = some (width, address) → m.bus.route address = some (w.slot, offset) →
      m.hart.Refused i width address
  requests : ∀ phase request b, (request, b) ∈ m.requests phase → b.Guards w rom

theorem intact_of_mapsRom (h : m.bus.MapsRom w s) : m.Intact w s.memory where
  contents := by
    rw [memoryAt, h.device]
    rfl
  bus := h.guards
  hart _ _ _ _ hexecuted htarget hroute := Hart.step_refused hexecuted htarget hroute h.device
  requests := by
    intro phase request b hmem
    have hspared : Bus.Spares m.bus b := by
      cases phase with
      | cycle =>
          have hstep := Hart.step_chronicled Bus.spares_chronicle m.hart
          exact hstep.trans (Bus.spares_of_mem_roundRequests hmem)
      | timestep => exact Bus.spares_of_mem_roundRequests hmem
    exact (h.of_spares hspared).guards

/-- Programs and devices cannot write to the ROM. It stands in its window on every machine that has
been made and run in any way; and on a machine where it does, whatever the state of the hart, it
is intact and guarded after any calls but those that load an image. -/
theorem rom_intact :
    (∀ (config : Config) (m : Microcontroller ε), new config = .ok m →
        ∀ calls, ∃ s, (m.run calls).bus.MapsRom (config.window .rom) s)
      ∧ ∀ (m : Microcontroller ε) (w : Window) (s : Storage), m.bus.MapsRom w s →
        ∀ calls, (∀ image, .load image ∉ calls) → (m.run calls).Intact w s.memory :=
  ⟨fun _ _ hnew calls => mapsRom_of_new hnew calls,
    fun _ _ _ h _ hcalls => intact_of_mapsRom (mapsRom_run h hcalls)⟩

/-- A bus master that stores to the first word of the ROM in every cycle. -/
def vandal : Probe where
  onCycle := [.store .word 0 (.constant 1)]

/-- The bus master is attached and has one turn. -/
def vandalCalls : List (Call Probe) :=
  [.install (.external vandal), .attach 3 0x40000000, .cycle]

/-- The bus master makes its request and is refused. -/
theorem rom_intact_vandal :
    ∃ m : Microcontroller Probe, new ⟨1, 1⟩ = .ok m ∧ (m.run vandalCalls).rom = m.rom
      ∧ ∃ b, (.store .word 0 1, b) ∈ (m.run vandalCalls).requests .cycle
        ∧ b.answer (.store .word 0 1) = (.error ⟨.storeAccessFault, 0⟩, b) := by
  have hrequests : ((new ⟨1, 1⟩).toOption.map fun m : Microcontroller Probe =>
      ((m.run vandalCalls).requests .cycle).map Prod.fst) = some [.store .word 0 1] := by
    decide +kernel
  cases hnew : (new ⟨1, 1⟩ : Except ConfigError (Microcontroller Probe)) with
  | error e =>
      rw [hnew] at hrequests
      cases hrequests
  | ok m =>
      rw [hnew] at hrequests
      obtain ⟨hmaps, hintact⟩ := rom_intact (ε := Probe)
      obtain ⟨s, hs⟩ := hmaps _ m hnew []
      have hafter := hintact m _ s hs vandalCalls (by simp [vandalCalls])
      have hlist : ((m.run vandalCalls).requests .cycle).map Prod.fst = [.store .word 0 1] :=
        Option.some.inj hrequests
      have hasked : (.store .word 0 1) ∈ ((m.run vandalCalls).requests .cycle).map Prod.fst := by
        rw [hlist]
        exact List.mem_singleton_self _
      obtain ⟨⟨request, b⟩, hmem, rfl⟩ := List.mem_map.mp hasked
      have hguards := hafter.requests .cycle _ b hmem
      have hmapped := hguards.mapped 0 (by decide)
      refine ⟨m, rfl, ?_, b, hmem, hguards.answer .word 0 1 _ hmapped⟩
      exact hafter.contents.trans (intact_of_mapsRom hs).contents.symm

end Microcontroller

end Rv32Soc
