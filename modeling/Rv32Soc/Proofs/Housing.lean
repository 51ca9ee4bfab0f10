import Rv32Soc.Proofs.Accesses
import Rv32Soc.Proofs.Runs

/-!
# The memories of a microcontroller

A microcontroller is made with a ROM and a RAM in slots of their own, each no
larger than its part of the address space. Programs, bus masters and the owner
may change bytes in them, but nothing that happens on a bus makes another
device of a memory, or a memory of another size. So the two are at home there
in every run.
-/

namespace Rv32Soc

variable {ε : Type}

/-- A memory of the kind that belongs to a region. -/
def Region.device : Region → Storage → Device ε
  | rom, s => .rom s
  | ram, s => .ram s

@[simp]
theorem Region.storage?_device (r : Region) (s : Storage) :
    (r.device s : Device ε).storage? = some s := by
  cases r <;> rfl

theorem Region.slot_inj {r r' : Region} (h : r.slot = r'.slot) : r = r' := by
  cases r <;> cases r' <;> first | rfl | cases h

/-- The number of pages that a memory is made with. -/
def Config.pages (config : Config) : Region → Word
  | .rom => config.romPages
  | .ram => config.ramPages

/-- The number of bytes of the address space that belong to either memory. -/
def regionRoom : Nat := 0x10000000

/-! ## Devices that stay what they are -/

/-- If the device is a memory, it is one of the same kind and size still. -/
def Device.SameKind (d d' : Device ε) : Prop :=
  ∀ (r : Region) (s : Storage), d = r.device s →
    ∃ s', d' = r.device s' ∧ s'.memory.size = s.memory.size

theorem Device.sameKind_refl (d : Device ε) : SameKind d d :=
  fun _ s hd => ⟨s, hd, rfl⟩

theorem Device.sameKind_of_storage? {d : Device ε} (h : d.storage? = none) (d' : Device ε) :
    SameKind d d' := by
  intro r s hd
  rw [hd, r.storage?_device] at h
  cases h

/-- The storage with a run of bytes laid over its own. -/
def Storage.programmed (s : Storage) (offset : Word) (bytes : Array Byte) : Storage :=
  { s with memory := ⟨splice s.memory.bytes offset.toNat bytes.toList⟩ }

theorem Storage.size_programmed (s : Storage) (offset : Word) (bytes : Array Byte) :
    (s.programmed offset bytes).memory.size = s.memory.size :=
  size_splice _ _ _

theorem Storage.size_cleared (s : Storage) : s.cleared.memory.size = s.memory.size :=
  Array.size_replicate

/-- A memory takes a run of bytes just if it lies inside. -/
theorem Device.program_device (r : Region) (s : Storage) (offset : Word) (bytes : Array Byte) :
    Device.program offset bytes (r.device s : Device ε)
      = if s.memory.InRange offset bytes.size then .ok () (r.device (s.programmed offset bytes))
        else .error (.outOfRange offset bytes.size s.memory.size) (r.device s) := by
  cases r <;>
    by_cases hinside : s.memory.InRange offset bytes.size <;>
      simp [Region.device, Device.program, Storage.program, Storage.onMemory, Memory.writeBytes,
        Storage.programmed, hinside]

theorem Device.cleared_device (r : Region) (s : Storage) :
    (r.device s : Device ε).cleared = r.device s.cleared := by
  cases r <;> rfl

variable [Peripheral ε]

theorem Device.sameKind_write (w : Width) (offset : Word) (value : BitVec w.bits)
    (d : Device ε) : SameKind d (stateAfter (Device.write w offset value d)) := by
  intro r s hd
  have hmemory : d.storage?.isSome := by rw [hd, r.storage?_device]; rfl
  cases hwrite : Device.write w offset value d with
  | error e d' =>
      rw [stateAfter_error, write_memory_eq_error hmemory hwrite]
      exact ⟨s, hd, rfl⟩
  | ok told d' =>
      obtain ⟨t, rfl, -, -, rfl⟩ := (write_memory_eq_ok hmemory).mp hwrite
      cases r with
      | rom => cases hd
      | ram =>
          cases hd
          exact ⟨_, rfl, Storage.size_written _ _ _ _⟩

theorem Device.comprehensive_sameKind : Device.Comprehensive (@SameKind ε) where
  refl := sameKind_refl
  trans := by
    intro d₁ d₂ d₃ hfirst hsecond r s hd
    obtain ⟨s', hd', hsize⟩ := hfirst r s hd
    obtain ⟨s'', hd'', hsize'⟩ := hsecond r s' hd'
    exact ⟨s'', hd'', hsize'.trans hsize⟩
  read := by
    intro w offset d r s hd
    rw [stateAfter_read_memory (by rw [hd, r.storage?_device]; rfl)]
    exact ⟨s, hd, rfl⟩
  write := sameKind_write
  acknowledge := by
    intro d r s hd
    refine ⟨s, ?_, rfl⟩
    rw [hd]
    cases r <;> rfl
  tick := fun t => sameKind_of_storage? rfl _
  poll := fun c asserting => sameKind_of_storage? rfl _
  turn := fun e e' => sameKind_of_storage? rfl _
  program := by
    intro offset bytes d r s hd
    rw [hd, program_device]
    split
    · exact ⟨_, rfl, s.size_programmed offset bytes⟩
    · exact ⟨s, rfl, rfl⟩
  cleared := by
    intro d r s hd
    rw [hd, cleared_device]
    exact ⟨_, rfl, s.size_cleared⟩
  operate := fun c op => sameKind_of_storage? rfl _

/-! ## Memories that stay where they are -/

namespace Microcontroller

/-- The memories are in their slots, and none is larger than its part of the address space. -/
def Housed (m : Microcontroller ε) : Prop :=
  ∀ r : Region, ∃ s, m.bus.device? r.slot = some (r.device s) ∧ s.memory.size ≤ regionRoom

omit [Peripheral ε] in
theorem memoryAt_eq {m : Microcontroller ε} {r : Region} {s : Storage}
    (h : m.bus.device? r.slot = some (r.device s)) : m.memoryAt r.slot = s.memory := by
  rw [memoryAt, h, Option.bind_some, r.storage?_device]

theorem size_ofPages (pages : Word) :
    (Storage.ofPages pages).memory.size = pages.toNat * pageSize :=
  Array.size_replicate

theorem device?_new {config : Config} {m : Microcontroller ε} (hnew : new config = .ok m)
    (r : Region) :
    m.bus.device? r.slot = some (r.device (Storage.ofPages (config.pages r))) := by
  rw [Bus.device?, (new_ok hnew).1]
  cases r <;> rfl

theorem size_new {config : Config} {m : Microcontroller ε} (hnew : new config = .ok m)
    (r : Region) : (m.memoryAt r.slot).size = (config.pages r).toNat * pageSize := by
  rw [memoryAt_eq (device?_new hnew r)]
  exact size_ofPages _

theorem pages_new {config : Config} {m : Microcontroller ε} (hnew : new config = .ok m)
    (r : Region) : (config.pages r).toNat * pageSize ≤ regionRoom := by
  simp only [new, bind, Except.bind] at hnew
  split at hnew
  · cases hnew
  · next hrom =>
      split at hnew
      · cases hnew
      · next hram =>
          cases r with
          | rom => exact Nat.not_lt.mp hrom
          | ram => exact Nat.not_lt.mp hram

theorem housed_new {config : Config} {m : Microcontroller ε} (hnew : new config = .ok m) :
    m.Housed := by
  intro r
  refine ⟨_, device?_new hnew r, ?_⟩
  rw [size_ofPages]
  exact pages_new hnew r

/-- Whatever happens to a microcontroller, its memories stay at home. -/
theorem Housed.run {m : Microcontroller ε} (h : m.Housed) (calls : List (Call ε)) :
    (m.run calls).Housed := by
  intro r
  obtain ⟨s, hd, hsize⟩ := h r
  obtain ⟨d, hd', hkind⟩ :=
    (run_evolves Device.comprehensive_sameKind m calls).device hd
  obtain ⟨s', rfl, hsize'⟩ := hkind r s rfl
  exact ⟨s', hd', Nat.le_trans (Nat.le_of_eq hsize') hsize⟩

end Microcontroller

end Rv32Soc
