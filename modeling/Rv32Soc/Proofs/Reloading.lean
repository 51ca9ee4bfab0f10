import Rv32Soc.Proofs.Actions
import Rv32Soc.Proofs.Loading
import Rv32Soc.Proofs.PendingLines

/-!
# Nothing is left of an earlier program

A machine that has been given an image and has then been reset is the machine
of that image, whatever it did before. Loading clears both memories before it
fills them, and the reset clears the hart and the controller; what neither of
them touches no action changes. That is little: the configuration, of a memory
its kind and its number of pages, and of the controller its registered sources,
in order.

So two machines of one configuration with the same sources agree right after in
all that a program sees of the processor, its memories and the controller. With
no devices but their own they agree in everything, the journal apart; and as
nothing depends on the journal, they cannot be told apart ever after.
-/

namespace Rv32Soc

open Elf (Image Segment)

variable {ε : Type}

/-! ## The make of a device -/

/-- What of a device is settled when it is made, and when its sources are registered. -/
inductive Device.Make where
  | memory (region : Region) (pages : Word) (size : Nat)
  | timer
  | controller (sources : List (Nat × Line))
  | external

/-- The make of a device. -/
def Device.make : Device ε → Device.Make
  | rom s => .memory .rom s.pages s.memory.size
  | ram s => .memory .ram s.pages s.memory.size
  | timer _ => .timer
  | controller c => .controller c.sources
  | external _ => .external

/-- The second device is of the make of the first. -/
def Device.SameMake (d d' : Device ε) : Prop :=
  d'.make = d.make

theorem Device.make_device (r : Region) (s : Storage) :
    (r.device s : Device ε).make = .memory r s.pages s.memory.size := by
  cases r <;> rfl

theorem Device.make_eq_memory {d : Device ε} {r : Region} {pages : Word} {size : Nat}
    (h : d.make = .memory r pages size) :
    ∃ s, d = r.device s ∧ s.pages = pages ∧ s.memory.size = size := by
  cases d with
  | rom s | ram s => cases h; exact ⟨s, rfl, rfl, rfl⟩
  | timer t | controller c | external e => cases h

theorem Device.make_eq_controller {d : Device ε} {sources : List (Nat × Line)}
    (h : d.make = .controller sources) : ∃ c, d = .controller c ∧ c.sources = sources := by
  cases d with
  | controller c => cases h; exact ⟨c, rfl, rfl⟩
  | rom s | ram s | timer t | external e => cases h

theorem Device.sameMake_program (offset : Word) (bytes : Array Byte) (r : Region) (s : Storage) :
    SameMake (r.device s : Device ε) (stateAfter (Device.program offset bytes (r.device s))) := by
  rw [program_device]
  split
  · rw [stateAfter_ok, SameMake, make_device, make_device, s.size_programmed]
    rfl
  · rfl

section Steps

variable [Peripheral ε]

theorem Device.sameMake_read (w : Width) (offset : Word) (d : Device ε) :
    SameMake d (stateAfter (Device.read w offset d)) := by
  obtain hsame | ⟨e, e', rfl, hafter⟩ := read_leaves w offset d
  · exact congrArg make hsame
  · rw [hafter]
    rfl

theorem Device.sameMake_write (w : Width) (offset : Word) (value : BitVec w.bits)
    (d : Device ε) : SameMake d (stateAfter (Device.write w offset value d)) := by
  cases d with
  | rom s => rfl
  | ram s =>
      cases hwrite : Device.write w offset value (.ram s : Device ε) with
      | error e d' =>
          rw [stateAfter_error, write_memory_eq_error rfl hwrite]
          rfl
      | ok told d' =>
          obtain ⟨t, ht, -, -, rfl⟩ := (write_memory_eq_ok rfl).mp hwrite
          cases ht
          exact congrArg (Make.memory .ram s.pages) (s.size_written w offset value)
  | timer t =>
      cases w with
      | byte | halfword => rfl
      | word =>
          simp only [Device.write]
          split <;> rfl
  | controller c =>
      cases w with
      | byte | halfword => rfl
      | word =>
          have hsources := InterruptController.sources_writeWord offset value c
          simp only [Device.write]
          split <;> next heq => rw [heq] at hsources; exact congrArg Make.controller hsources
  | external e =>
      simp only [Device.write]
      split <;> rfl

/-- Only a registration changes the make of a device. -/
theorem Device.inclusive_sameMake : Device.Inclusive (@SameMake ε) where
  refl _ := rfl
  trans h₁ h₂ := Eq.trans h₂ h₁
  read := sameMake_read
  write := sameMake_write
  acknowledge d := by cases d <;> rfl
  tick _ := rfl
  poll c asserting := congrArg Make.controller (c.sources_poll asserting)
  turn _ _ := rfl
  program offset bytes d := by
    cases d with
    | rom s => exact sameMake_program offset bytes .rom s
    | ram s => exact sameMake_program offset bytes .ram s
    | timer t | controller c | external e => rfl
  cleared d := by
    cases d with
    | rom s | ram s => exact congrArg (Make.memory _ s.pages) s.size_cleared
    | timer t | controller c | external e => rfl
  operate c op hop := by
    have hsources := c.sources_apply op
    rw [hop, Option.toList_none, List.append_nil] at hsources
    exact congrArg Make.controller hsources

end Steps

namespace Microcontroller

/-! ## The make of a machine -/

/-- The machine is of this configuration, its memories are of the sizes that belong to it, and its
controller has these sources. -/
structure Made (m : Microcontroller ε) (config : Config) (sources : List (Nat × Line)) :
    Prop where
  configured : m.config = config
  memory : ∀ r : Region, (m.bus.device? r.slot).map Device.make
    = some (.memory r (config.pages r) ((config.pages r).toNat * pageSize))
  controller : (m.bus.device? controllerSlot).map Device.make = some (.controller sources)

variable {config : Config} {sources : List (Nat × Line)} {image : Image}
  {m m' : Microcontroller ε}

theorem Made.of_evolves (h : m.Made config sources) (hconfig : m'.config = m.config)
    (hbus : Bus.Evolves Device.SameMake m.bus m'.bus) : m'.Made config sources := by
  have hmake : ∀ slot k, (m.bus.device? slot).map Device.make = some k →
      (m'.bus.device? slot).map Device.make = some k := by
    intro slot k hk
    obtain ⟨d, hd, rfl⟩ := Option.map_eq_some_iff.mp hk
    obtain ⟨d', hd', hsame⟩ := hbus.device hd
    rw [hd', Option.map_some, hsame]
  exact ⟨hconfig.trans h.configured, fun r => hmake _ _ (h.memory r), hmake _ _ h.controller⟩

theorem Made.updateController (h : m.Made config sources) {more : List (Nat × Line)}
    {f : InterruptController → InterruptController}
    (hf : ∀ c, (f c).sources = c.sources ++ more) :
    (m.onBus (·.updateController controllerSlot f)).Made config (sources ++ more) where
  configured := h.configured
  memory r := by
    have hne : controllerSlot ≠ r.slot := by cases r <;> decide
    rw [← h.memory r]
    exact congrArg _ (Bus.device?_update_of_ne m.bus hne _)
  controller := by
    obtain ⟨d, hd, hmake⟩ := Option.map_eq_some_iff.mp h.controller
    obtain ⟨c, rfl, rfl⟩ := Device.make_eq_controller hmake
    show ((m.bus.updateController controllerSlot f).device? controllerSlot).map Device.make = _
    rw [Bus.updateController, Bus.update_eq_put hd, Bus.device?_put_self hd, Option.map_some,
      ← hf c]
    rfl

/-! ## Reloading -/

/-- The machine that an image makes. -/
structure Reloaded (m : Microcontroller ε) (config : Config) (image : Image)
    (sources : List (Nat × Line)) : Prop where
  configured : m.config = config
  pc : m.hart.pc = resetVector
  registers : m.hart.registers
    = ({} : Registers).set stackPointer (initialStackPointer config.ramPages)
  csr : m.hart.csr = {}
  pending : m.hart.pending = false
  reservation : m.bus.reservation = none
  memory : ∀ r : Region, m.bus.device? r.slot
    = some (r.device ((Storage.ofPages (config.pages r)).filled r
        (image.segments.map Segment.placed)))
  controller : m.bus.device? controllerSlot = some (.controller { sources })

theorem cleared_eq_ofPages {s : Storage} (h : s.memory.size = s.pages.toNat * pageSize) :
    s.cleared = Storage.ofPages s.pages := by
  rw [Storage.cleared, Storage.ofPages, Memory.cleared, h]

/-- A reset clears all but the memories, the sources and the devices. -/
theorem reloaded_reset (hconfig : m.config = config)
    (hmemory : m.bus.Stores fun r =>
      (Storage.ofPages (config.pages r)).filled r (image.segments.map Segment.placed))
    {c : InterruptController} (hc : m.bus.device? controllerSlot = some (.controller c)) :
    m.reset.Reloaded config image c.sources := by
  let b : Bus ε := m.bus.unreserve.updateController controllerSlot (·.reset)
  have hb : ∀ slot, m.reset.bus.device? slot = b.device? slot := fun _ => rfl
  refine ⟨hconfig, rfl, ?_, rfl, rfl, ?_, fun r => ?_, ?_⟩
  · rw [← hconfig]
    rfl
  · exact (Bus.update_steady m.bus.unreserve controllerSlot _).reservation
  · have hne : controllerSlot ≠ r.slot := by cases r <;> decide
    rw [hb, ← hmemory r]
    exact Bus.device?_update_of_ne m.bus.unreserve hne _
  · have hc' : m.bus.unreserve.device? controllerSlot = some (.controller c) := hc
    have hput : b = m.bus.unreserve.put controllerSlot (.controller c.reset) :=
      Bus.update_eq_put hc' _
    rw [hb, hput, Bus.device?_put_self hc']
    rfl

section

variable (hm : m.Made config sources)
  (hroom : ∀ r, (config.pages r).toNat * pageSize ≤ regionRoom)

include hm

theorem Made.exists_contents : ∃ contents : Region → Storage, m.bus.Stores contents
    ∧ ∀ r, (contents r).pages = config.pages r
      ∧ (contents r).memory.size = (config.pages r).toNat * pageSize := by
  have hmemory : ∀ r : Region, ∃ s, m.bus.device? r.slot = some (r.device s)
      ∧ s.pages = config.pages r ∧ s.memory.size = (config.pages r).toNat * pageSize := by
    intro r
    obtain ⟨d, hd, hmake⟩ := Option.map_eq_some_iff.mp (hm.memory r)
    obtain ⟨s, rfl, hpages, hsize⟩ := Device.make_eq_memory hmake
    exact ⟨s, hd, hpages, hsize⟩
  choose contents hstores hmade using hmemory
  exact ⟨contents, hstores, hmade⟩

include hroom

/-- Which images are accepted depends on the configuration alone. -/
theorem Made.accepts (image : Image) : (∃ n, load image m = .ok () n)
    ↔ ∀ s ∈ image.segments, s.FitsIn (config.romPages.toNat * pageSize)
        (config.ramPages.toNat * pageSize) := by
  obtain ⟨contents, hstores, hmade⟩ := hm.exists_contents
  have hhoused : m.Housed := fun r => ⟨_, hstores r, (hmade r).2 ▸ hroom r⟩
  have hrom : m.rom.size = config.romPages.toNat * pageSize :=
    (congrArg Memory.size (memoryAt_eq (hstores .rom))).trans (hmade .rom).2
  have hram : m.ram.size = config.ramPages.toNat * pageSize :=
    (congrArg Memory.size (memoryAt_eq (hstores .ram))).trans (hmade .ram).2
  rw [← hrom, ← hram]
  exact (hhoused.loadsWholly image).accepts

theorem Made.reloaded (hload : load image m = .ok () m') :
    m'.reset.Reloaded config image sources := by
  obtain ⟨contents, hstores, hmade⟩ := hm.exists_contents
  have hsizes : ∀ r, (contents r).memory.size ≤ regionRoom := fun r => (hmade r).2 ▸ hroom r
  obtain ⟨hfit, hplaced⟩ | ⟨-, e, hrefused, -⟩ :=
    placements_cases (regionSize_le hstores hsizes) image.segments
  · obtain ⟨b, heq, hb⟩ := load_placed hstores hsizes hfit hplaced
    rw [hload] at heq
    cases heq
    -- Cleared, a memory is as it was made.
    have hcleared : ∀ r, (contents r).cleared = Storage.ofPages (config.pages r) := fun r => by
      rw [cleared_eq_ofPages (by rw [(hmade r).1, (hmade r).2]), (hmade r).1]
    obtain ⟨d, hd, hmake⟩ := Option.map_eq_some_iff.mp hm.controller
    obtain ⟨c, rfl, rfl⟩ := Device.make_eq_controller hmake
    have hcontroller : b.device? controllerSlot = some (.controller c) :=
      (hb.other controllerSlot fun r => by cases r <;> decide).trans hd
    have hfilled : b.Stores fun r =>
        (Storage.ofPages (config.pages r)).filled r (image.segments.map Segment.placed) := by
      intro r
      have hr := hb.stores r
      simp only [hcleared] at hr
      exact hr
    exact reloaded_reset (m := { m with hart := { m.hart with bus := b } }) hm.configured hfilled
      hcontroller
  · rw [load, hrefused] at hload
    cases hload

end

/-! ## Two machines -/

/-- All that a program sees of the processor, the memories and the controller is the same. -/
structure Alike (m m' : Microcontroller ε) : Prop where
  pc : m.hart.pc = m'.hart.pc
  registers : m.hart.registers = m'.hart.registers
  csr : m.hart.csr = m'.hart.csr
  pending : m.hart.pending = m'.hart.pending
  reservation : m.bus.reservation = m'.bus.reservation
  rom : m.rom = m'.rom
  ram : m.ram = m'.ram
  controller : m.bus.controller? controllerSlot = m'.bus.controller? controllerSlot

theorem Reloaded.alike (h : m.Reloaded config image sources)
    (h' : m'.Reloaded config image sources) : Alike m m' where
  pc := h.pc.trans h'.pc.symm
  registers := h.registers.trans h'.registers.symm
  csr := h.csr.trans h'.csr.symm
  pending := h.pending.trans h'.pending.symm
  reservation := h.reservation.trans h'.reservation.symm
  rom := (memoryAt_eq (h.memory .rom)).trans (memoryAt_eq (h'.memory .rom)).symm
  ram := (memoryAt_eq (h.memory .ram)).trans (memoryAt_eq (h'.memory .ram)).symm
  controller := by
    rw [Bus.controller?_eq_some.mpr h.controller, Bus.controller?_eq_some.mpr h'.controller]

theorem Reloaded.slots (h : m.Reloaded config image sources)
    (h' : m'.Reloaded config image sources) (hthree : m.bus.slots.size = 3)
    (hthree' : m'.bus.slots.size = 3) : m.bus.slots = m'.bus.slots := by
  apply Array.ext_getElem?
  intro slot
  have hsame : ∀ {slot d}, m.bus.device? slot = some d → m'.bus.device? slot = some d →
      m.bus.slots[slot]? = m'.bus.slots[slot]? := fun hd hd' =>
    (Bus.slots_of_device? hd).trans (Bus.slots_of_device? hd').symm
  -- The three slots that a machine is made with are taken, and there is no fourth.
  match slot with
  | 0 => exact hsame (h.memory .rom) (h'.memory .rom)
  | 1 => exact hsame (h.memory .ram) (h'.memory .ram)
  | 2 => exact hsame h.controller h'.controller
  | slot + 3 => rw [Array.getElem?_eq_none (by omega), Array.getElem?_eq_none (by omega)]

/-- Machines of one image that have the same devices are the same, the journal apart. -/
theorem Reloaded.unlogged_eq (h : m.Reloaded config image sources)
    (h' : m'.Reloaded config image sources) (hslots : m.bus.slots = m'.bus.slots)
    (hwindows : m.bus.windows = m'.bus.windows) (hattached : m.attached = m'.attached) :
    m.unlogged = m'.unlogged := by
  have hreservation : m.bus.reservation = m'.bus.reservation :=
    h.reservation.trans h'.reservation.symm
  have hbus : m.hart.bus.unlogged = m'.hart.bus.unlogged := by
    unfold Bus.unlogged
    rw [show m.hart.bus.slots = m'.hart.bus.slots from hslots,
      show m.hart.bus.windows = m'.hart.bus.windows from hwindows,
      show m.hart.bus.reservation = m'.hart.bus.reservation from hreservation]
  have hhart : m.hart.unlogged = m'.hart.unlogged := by
    unfold Hart.unlogged
    rw [hbus, h.pc, h'.pc, h.registers, h'.registers, h.csr, h'.csr, h.pending, h'.pending]
  unfold Microcontroller.unlogged
  rw [hhart, h.configured, h'.configured, hattached]

/-- Loading the image and a reset make machines of both that are alike. -/
def ReloadsAlike (m m' : Microcontroller ε) (image : Image) : Prop :=
  ∀ n n', load image m = .ok () n → load image m' = .ok () n' → Alike n.reset n'.reset

variable [Peripheral ε]

/-! ## Histories -/

theorem made_new (hnew : new config = .ok m) : m.Made config [] where
  configured := by
    obtain ⟨b, -, rfl⟩ := new_eq_ok hnew
    rfl
  memory r := by
    rw [device?_new hnew r, Option.map_some, Device.make_device, size_ofPages]
    rfl
  controller := by
    rw [Bus.controller?_eq_some.mp (controller?_new hnew)]
    rfl

/-- An action adds the source that it registers, if it registers one. -/
theorem made_act (h : m.Made config sources) (a : Action ε) :
    (a.apply m).Made config (sources ++ a.registration?.toList) := by
  cases hreg : a.registration? with
  | none =>
      rw [Option.toList_none, List.append_nil]
      exact h.of_evolves (act_config a m) (act_evolves Device.inclusive_sameMake hreg m)
  | some source =>
      -- Two actions can register a source, and each does so at the controller.
      cases a with
      | call c =>
          cases c with
          | register slot line =>
              cases hline : lineOfNat line with
              | ok l =>
                  cases (registration?_register (ε := ε) hline).symm.trans hreg
                  simp only [Action.apply, Call.apply, hline]
                  exact h.updateController fun c => rfl
              | error e =>
                  simp [Action.registration?, Call.registration?,
                    InterruptController.Operation.registration?, hline] at hreg
          | install _ | attach _ _ | load _ | reset | cycle | timestep => cases hreg
      | poke p =>
          cases p with
          | operate op =>
              have hop : op.registration? = some source := hreg
              exact h.updateController fun c => by rw [c.sources_apply, hop]
          | reserve _ | unreserve | access _ | store _ _ _ _ | program _ _ _ | clear _
          | acknowledge _ => cases hreg
      | edit e => cases hreg

theorem made_after (hnew : new config = .ok m) (history : List (Action ε)) :
    (m.after history).Made config (registrations history) := by
  induction history using List.reverseRecOn with
  | nil => exact made_new hnew
  | append_singleton history a ih =>
      have hone : registrations [a] = a.registration?.toList := by
        unfold registrations
        cases ha : a.registration? <;> simp [ha]
      rw [after_snoc, registrations, List.filterMap_append]
      have hact := made_act ih a
      rw [← hone] at hact
      exact hact

/-- With no devices but its own, a machine has just these when it has been reloaded. -/
theorem sameDevices_reset {before : List (Action ε)} (hbare : ∀ a ∈ before, a.Bare)
    (hload : load image (m.after before) = .ok () m') : SameDevices m m'.reset := by
  -- The load and the reset are two more actions of the same kind.
  have hbefore := after_sameDevices hbare m
  have hloaded := act_sameDevices (a := .call (.load image)) trivial (m.after before)
  have hreset := act_sameDevices (a := .call .reset) trivial m'
  have hstate : Action.apply (m.after before) (.call (.load image)) = m' := by
    rw [Action.apply, Call.apply, hload, stateAfter_ok]
  rw [hstate] at hloaded
  exact (hbefore.trans hloaded).trans hreset

theorem same_of_bare (hnew : new config = .ok m) {before before' : List (Action ε)}
    (hbare : ∀ a ∈ before, a.Bare) (hbare' : ∀ a ∈ before', a.Bare) {n n' : Microcontroller ε}
    (hn : load image (m.after before) = .ok () n) (hn' : load image (m.after before') = .ok () n') :
    n.reset.unlogged = n'.reset.unlogged := by
  have hthree : m.bus.slots.size = 3 := by rw [(new_ok hnew).1]; rfl
  have hd := sameDevices_reset hbare hn
  have hd' := sameDevices_reset hbare' hn'
  have hreloaded := (made_after hnew before).reloaded (pages_new hnew) hn
  have hreloaded' := (made_after hnew before').reloaded (pages_new hnew) hn'
  rw [registrations_eq_nil hbare] at hreloaded
  rw [registrations_eq_nil hbare'] at hreloaded'
  exact hreloaded.unlogged_eq hreloaded'
    (hreloaded.slots hreloaded' (hd.shape.size.trans hthree) (hd'.shape.size.trans hthree))
    (hd.shape.windows.trans hd'.shape.windows.symm) (hd.attached.trans hd'.attached.symm)

/-- The results of the next cycles, in order. -/
def results (m : Microcontroller ε) : Nat → List (Option Trap)
  | 0 => []
  | count + 1 => m.cycle.1 :: m.cycle.2.results count

theorem results_unlogged (m : Microcontroller ε) (count : Nat) :
    m.unlogged.results count = m.results count := by
  induction count generalizing m with
  | zero => rfl
  | succ count ih => rw [results, results, cycle_unlogged, ih]

theorem results_of_unlogged_eq (h : m.unlogged = m'.unlogged) (later : List (Action ε))
    (count : Nat) : (m.after later).results count = (m'.after later).results count := by
  rw [← results_unlogged, ← results_unlogged (m'.after later), ← after_unlogged,
    ← after_unlogged, h]

/-- Loading the image and a reset make the same machine of both, the journal apart, so that they
cannot be told apart by anything that is done to them later. -/
structure ReloadsSame (m m' : Microcontroller ε) (image : Image) : Prop where
  same : ∀ n n', load image m = .ok () n → load image m' = .ok () n' →
    n.reset.unlogged = n'.reset.unlogged
  results : ∀ n n', load image m = .ok () n → load image m' = .ok () n' →
    ∀ later count, (n.reset.after later).results count = (n'.reset.after later).results count

/-- No residue between programs. Whatever has been done to a machine, it accepts the images that
fit its configuration; and loading one and a reset bring any two machines of the configuration to
the same state. With the same registered sources they are alike, whatever else is attached to them.
With nothing but their own devices they are the same, and the same as a machine that is new: its
history is the empty one. -/
theorem no_residue (hnew : new config = .ok m) (image : Image)
    (before before' : List (Action ε)) :
    ((∃ n, load image (m.after before) = .ok () n) ↔ ∀ s ∈ image.segments,
        s.FitsIn (config.romPages.toNat * pageSize) (config.ramPages.toNat * pageSize))
      ∧ (registrations before = registrations before' →
        ReloadsAlike (m.after before) (m.after before') image)
      ∧ ((∀ a ∈ before, a.Bare) → (∀ a ∈ before', a.Bare) →
        ReloadsAlike (m.after before) (m.after before') image
          ∧ ReloadsSame (m.after before) (m.after before') image) := by
  have hroom := pages_new hnew
  have hmade := made_after hnew before
  have hmade' := made_after hnew before'
  have halike : registrations before = registrations before' →
      ReloadsAlike (m.after before) (m.after before') image := by
    intro hsources n n' hn hn'
    rw [← hsources] at hmade'
    exact (hmade.reloaded hroom hn).alike (hmade'.reloaded hroom hn')
  refine ⟨hmade.accepts hroom image, halike, fun hbare hbare' => ?_⟩
  have hsources := (registrations_eq_nil hbare).trans (registrations_eq_nil hbare').symm
  exact ⟨halike hsources, fun n n' hn hn' => same_of_bare hnew hbare hbare' hn hn',
    fun n n' hn hn' => results_of_unlogged_eq (same_of_bare hnew hbare hbare' hn hn')⟩

/-- A pair of bytes is loaded into two machines with a timer each, and into one that has run by
itself and one that is new. -/
theorem no_residue_pair :
    ∃ m : Microcontroller Empty, new ⟨1, 1⟩ = .ok m ∧ (∃ n, load (pairAt 0x200) m = .ok () n)
      ∧ ReloadsAlike
          (m.after [.call (.install (.timer {})), .call (.attach 3 0x40000000),
            .call (.register 3 5), .call .cycle])
          (m.after [.edit (.setPc 0x1000), .call (.install (.timer {})),
            .poke (.operate (.register 3 5))])
          (pairAt 0x200)
      ∧ ReloadsSame
          (m.after [.poke (.program .rom 0x200 #[1, 2, 3, 4]), .edit .raise, .call .cycle]) m
          (pairAt 0x200) := by
  have hfits : Config.Fits ⟨1, 1⟩ := fun r => by cases r <;> decide
  obtain ⟨m, hnew, -⟩ := exists_new (ε := Empty) hfits
  refine ⟨m, hnew, (no_residue hnew _ [] []).1.mpr (by decide), (no_residue hnew _ _ _).2.1 rfl,
    ((no_residue hnew _ _ []).2.2 ?_ nofun).2⟩
  intro a ha
  simp only [List.mem_cons, List.not_mem_nil, or_false] at ha
  obtain rfl | rfl | rfl := ha <;> trivial

end Microcontroller

end Rv32Soc
