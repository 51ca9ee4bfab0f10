import Rv32Soc.Proofs.Actions
import Rv32Soc.Proofs.Construction
import Rv32Soc.Proofs.MappedBytes
import Rv32Soc.Proofs.MemoryInstructions

/-!
# Every configuration

A configuration is two numbers of pages, each of them any word, and what comes
of it can be told from the numbers alone. If both lie between one page and the
room that the map has for a memory, there is a microcontroller. Otherwise a
memory that is too large is refused before anything is built, and a memory
without a page when its window is to be opened. No other check of the bus ever
fails: the bases of the map are multiples of every size that is accepted.

The stack pointer of a new microcontroller is computed in words, and would be
wrong if a product or a sum did not fit in one. For the sizes that are accepted
all of them fit. The end of the RAM is a multiple of eight, so that to step
back by one and to round down leads to its last eight bytes.
-/

namespace Rv32Soc

variable {ε : Type} {config : Config}

/-! ## What is refused -/

/-- The number of pages that the map has room for in each memory. -/
def roomPages : Nat := 0x40000

theorem le_room_iff {pages : Nat} : pages * pageSize ≤ regionRoom ↔ pages ≤ roomPages := by
  simp only [pageSize, regionRoom, roomPages]
  omega

theorem Config.fits_iff : config.Fits ↔
    (1 ≤ config.romPages.toNat ∧ config.romPages.toNat ≤ roomPages)
      ∧ 1 ≤ config.ramPages.toNat ∧ config.ramPages.toNat ≤ roomPages := by
  simp only [← le_room_iff]
  constructor
  · exact fun h => ⟨h .rom, h .ram⟩
  · rintro ⟨hrom, hram⟩ r
    cases r with
    | rom => exact hrom
    | ram => exact hram

/-- What is wrong with a configuration, if it is not accepted. A memory that is too large is
found before one that has no page. -/
def Config.refusal? (config : Config) : Option ConfigError :=
  if roomPages < config.romPages.toNat then some (.romTooLarge config.romPages)
  else if roomPages < config.ramPages.toNat then some (.ramTooLarge config.ramPages)
  else if config.romPages = 0 ∨ config.ramPages = 0 then some (.bus .noPages)
  else none

theorem Config.refusal?_cases (config : Config) :
    (roomPages < config.romPages.toNat
        ∧ config.refusal? = some (.romTooLarge config.romPages))
      ∨ (config.romPages.toNat ≤ roomPages ∧ roomPages < config.ramPages.toNat
        ∧ config.refusal? = some (.ramTooLarge config.ramPages))
      ∨ (config.romPages.toNat ≤ roomPages ∧ config.ramPages.toNat ≤ roomPages
        ∧ (config.romPages = 0 ∨ config.ramPages = 0)
        ∧ config.refusal? = some (.bus .noPages))
      ∨ config.Fits ∧ config.refusal? = none := by
  unfold refusal?
  by_cases hrom : roomPages < config.romPages.toNat
  · exact .inl ⟨hrom, if_pos hrom⟩
  · rw [if_neg hrom]
    have hrom := Nat.not_lt.mp hrom
    by_cases hram : roomPages < config.ramPages.toNat
    · exact .inr (.inl ⟨hrom, hram, if_pos hram⟩)
    · rw [if_neg hram]
      have hram := Nat.not_lt.mp hram
      by_cases hnone : config.romPages = 0 ∨ config.ramPages = 0
      · exact .inr (.inr (.inl ⟨hrom, hram, hnone, if_pos hnone⟩))
      · refine .inr (.inr (.inr ⟨?_, if_neg hnone⟩))
        rw [not_or, ← BitVec.toNat_inj, ← BitVec.toNat_inj] at hnone
        exact fits_iff.mpr ⟨⟨Nat.pos_of_ne_zero hnone.1, hrom⟩, Nat.pos_of_ne_zero hnone.2, hram⟩

namespace Microcontroller

variable [Peripheral ε]

theorem place_noPages {d : Device ε} (b : Bus ε) (base : Word) (hpages : d.pages = 0) :
    place b d base = .error (.bus .noPages) := by
  have hattach : (b.install d).2.attach b.slots.size base = .error .noPages := by
    rw [Bus.attach, b.device?_installed d, Option.map_some]
    exact if_pos hpages
  simp only [place, show (b.install d).1 = b.slots.size from rfl, hattach]

theorem new_romTooLarge (h : roomPages < config.romPages.toNat) :
    (new config : Except ConfigError (Microcontroller ε))
      = .error (.romTooLarge config.romPages) := by
  have hrom : config.romPages.toNat * pageSize > ramBase.toNat - romBase.toNat :=
    (lt_iff_lt_of_le_iff_le le_room_iff).mpr h
  simp only [new, bind, Except.bind, if_pos hrom]
  rfl

theorem new_ramTooLarge (hrom : config.romPages.toNat ≤ roomPages)
    (h : roomPages < config.ramPages.toNat) :
    (new config : Except ConfigError (Microcontroller ε))
      = .error (.ramTooLarge config.ramPages) := by
  have hrom : ¬config.romPages.toNat * pageSize > ramBase.toNat - romBase.toNat :=
    Nat.not_lt.mpr (le_room_iff.mpr hrom)
  have hram : config.ramPages.toNat * pageSize > ramTop.toNat - ramBase.toNat :=
    (lt_iff_lt_of_le_iff_le le_room_iff).mpr h
  simp only [new, bind, Except.bind, if_neg hrom, if_pos hram]
  rfl

/-- If both memories are without a page it is the ROM that is refused; the reason is the same. -/
theorem new_noPages (hrom : config.romPages.toNat ≤ roomPages)
    (hram : config.ramPages.toNat ≤ roomPages) (h : config.romPages = 0 ∨ config.ramPages = 0) :
    (new config : Except ConfigError (Microcontroller ε)) = .error (.bus .noPages) := by
  have hromRoom : ¬config.romPages.toNat * pageSize > ramBase.toNat - romBase.toNat :=
    Nat.not_lt.mpr (le_room_iff.mpr hrom)
  have hramRoom : ¬config.ramPages.toNat * pageSize > ramTop.toNat - ramBase.toNat :=
    Nat.not_lt.mpr (le_room_iff.mpr hram)
  by_cases hnone : config.romPages = 0
  · have hplace : place ({} : Bus ε) (.rom (Storage.ofPages config.romPages)) romBase
        = .error (.bus .noPages) := place_noPages _ _ hnone
    simp only [new, bind, Except.bind, if_neg hromRoom, if_neg hramRoom, hplace]
  · -- Then the window of the ROM is opened, and it is the RAM that has no page.
    have hpages : 1 ≤ config.romPages.toNat :=
      Nat.pos_of_ne_zero fun hzero => hnone (BitVec.eq_of_toNat_eq hzero)
    obtain ⟨b, hplace, -⟩ : ∃ b,
        place ({} : Bus ε) (.rom (Storage.ofPages config.romPages)) romBase = .ok b
          ∧ b.windows = [config.window .rom] ∧ b.slots.size = 1 :=
      place_ok rfl rfl (Config.window_placed .rom hpages (le_room_iff.mpr hrom))
        fun _ hv => absurd hv List.not_mem_nil
    have hfails : place b (.ram (Storage.ofPages config.ramPages)) ramBase
        = .error (.bus .noPages) := place_noPages _ _ (h.resolve_left hnone)
    simp only [new, bind, Except.bind, if_neg hromRoom, if_neg hramRoom, hplace, hfails]

/-- There is no other reason to refuse a configuration than those that its sizes give. -/
theorem new_eq_error {e : ConfigError} :
    (new config : Except ConfigError (Microcontroller ε)) = .error e
      ↔ config.refusal? = some e := by
  obtain ⟨hrom, hrefusal⟩ | ⟨hrom, hram, hrefusal⟩ | ⟨hrom, hram, hnone, hrefusal⟩
    | ⟨hfits, hrefusal⟩ := config.refusal?_cases
  · rw [hrefusal, new_romTooLarge hrom, Except.error.injEq, Option.some.injEq]
  · rw [hrefusal, new_ramTooLarge hrom hram, Except.error.injEq, Option.some.injEq]
  · rw [hrefusal, new_noPages hrom hram hnone, Except.error.injEq, Option.some.injEq]
  · obtain ⟨m, hnew, -⟩ := exists_new (ε := ε) hfits
    rw [hrefusal, hnew]
    exact ⟨nofun, nofun⟩

theorem exists_new_iff : (∃ m : Microcontroller ε, new config = .ok m) ↔ config.Fits := by
  constructor
  · rintro ⟨m, hnew⟩
    exact fits_of_new hnew
  · intro h
    obtain ⟨m, hnew, -⟩ := exists_new (ε := ε) h
    exact ⟨m, hnew⟩

end Microcontroller

/-! ## Exact arithmetic -/

/-- No step on the way to the place of a window overflows: its bytes, its rounded size and its
last page are what they are for unbounded numbers. -/
structure Window.Exact (w : Window) : Prop where
  bytes : w.pages.toNat * pageSize ≤ wordCount
  mask : (windowMask w.pages).toNat + 1 = roundUp (w.pages.toNat * pageSize)
  stop : pageOf w.base + w.pages.toNat ≤ pageCount

theorem Window.Placed.exact {w : Window} (h : w.Placed) : w.Exact where
  bytes := h.bytes_le
  mask := (windowSize_eq h.bytes_le).trans (roundUp_eq w.bytes).symm
  stop := (placed_iff.mp h).2.2

/-- No step on the way to the stack pointer overflows, and none in the size of a region. -/
structure Config.Exact (config : Config) : Prop where
  romRoom : ¬ramBase.usubOverflow romBase
  ramRoom : ¬ramTop.usubOverflow ramBase
  size : ¬config.ramPages.umulOverflow (BitVec.ofNat 32 pageSize)
  stop : ¬ramBase.uaddOverflow (config.ramPages * BitVec.ofNat 32 pageSize)
  last : ¬(ramBase + config.ramPages * BitVec.ofNat 32 pageSize).usubOverflow 1

theorem Config.Fits.exact (h : config.Fits) : config.Exact := by
  have hpage : (BitVec.ofNat 32 pageSize).toNat = 1024 := rfl
  have hbase : ramBase.toNat = 0x10000000 := rfl
  have hroom : config.ramPages.toNat * 1024 ≤ 0x10000000 := (h .ram).2
  have hsize : ¬config.ramPages.umulOverflow (BitVec.ofNat 32 pageSize) := by
    rw [BitVec.umulOverflow, decide_eq_true_iff, hpage]
    omega
  have hstop : ¬ramBase.uaddOverflow (config.ramPages * BitVec.ofNat 32 pageSize) := by
    rw [BitVec.uaddOverflow, decide_eq_true_iff, BitVec.toNat_mul_of_not_umulOverflow hsize,
      hpage, hbase]
    omega
  refine ⟨by decide, by decide, hsize, hstop, ?_⟩
  rw [BitVec.usubOverflow, decide_eq_true_iff, BitVec.toNat_add_of_not_uaddOverflow hstop, hbase]
  exact Nat.not_lt.mpr (Nat.le_trans (by decide) (Nat.le_add_right _ _))

/-! ## The stack -/

theorem Config.Fits.toNat_stackPointer (h : config.Fits) :
    (initialStackPointer config.ramPages).toNat
      = 0x10000000 + 1024 * config.ramPages.toNat - 8 := by
  have hlast : (ramBase + config.ramPages * BitVec.ofNat 32 pageSize - 1).toNat
      = 0x10000000 + config.ramPages.toNat * 1024 - 1 := by
    rw [BitVec.toNat_sub_of_not_usubOverflow h.exact.last,
      BitVec.toNat_add_of_not_uaddOverflow h.exact.stop,
      BitVec.toNat_mul_of_not_umulOverflow h.exact.size]
    rfl
  have hrounded : (initialStackPointer config.ramPages).toNat
      = (0x10000000 + config.ramPages.toNat * 1024 - 1) / 8 * 8 := by
    rw [← hlast]
    exact toNat_and_not_lowBits _ 3
  -- The RAM is not empty, so the multiple of eight below its last byte is still in it.
  have hpages : 1 ≤ config.ramPages.toNat := (h .ram).1
  omega

theorem Config.Fits.eight_dvd_stackPointer (h : config.Fits) :
    8 ∣ (initialStackPointer config.ramPages).toNat := by
  rw [h.toNat_stackPointer]
  omega

/-- The addresses of the eight bytes from the stack pointer on. -/
theorem Config.Fits.toNat_stack (h : config.Fits) {k : Nat} (hk : k < 8) :
    (initialStackPointer config.ramPages + BitVec.ofNat 32 k).toNat
      = 0x10000000 + (config.ramPages.toNat * pageSize - 8 + k) := by
  have hpointer := h.toNat_stackPointer
  have hpages : 1 ≤ config.ramPages.toNat := (h .ram).1
  have hroom : config.ramPages.toNat * 1024 ≤ 0x10000000 := (h .ram).2
  rw [toNat_add_ofNat (by rw [hpointer, wordCount]; omega), hpointer, pageSize]
  omega

theorem Config.Fits.stack_holds (h : config.Fits) {k : Nat} (hk : k < 8) :
    (config.window .ram).Holds (initialStackPointer config.ramPages + BitVec.ofNat 32 k) := by
  have hbase : (config.window .ram).base.toNat = 0x10000000 := rfl
  have hbytes : (config.window .ram).bytes = config.ramPages.toNat * pageSize := rfl
  have hpages : 1 ≤ config.ramPages.toNat := (h .ram).1
  rw [Window.Holds, hbase, hbytes, h.toNat_stack hk, pageSize]
  omega

namespace Microcontroller

variable [Peripheral ε]

section New

variable {m : Microcontroller ε}

theorem stackPointer_new (hnew : new config = .ok m) :
    m.hart.x stackPointer = initialStackPointer config.ramPages := by
  obtain ⟨b, -, rfl⟩ := new_eq_ok hnew
  exact Registers.get_set (by decide) _

theorem stackPointer_reset (hnew : new config = .ok m) (history : List (Action ε)) :
    (m.after history).reset.hart.x stackPointer = initialStackPointer config.ramPages := by
  have hconfig : (m.after history).config = config := by
    obtain ⟨b, -, rfl⟩ := new_eq_ok hnew
    exact after_config _ history
  rw [← hconfig]
  exact Registers.get_set (by decide) _

/-- The bytes from the stack pointer on are the last ones of the RAM. -/
theorem route_stack (hnew : new config = .ok m) {k : Nat} (hk : k < 8) :
    m.bus.route (initialStackPointer config.ramPages + BitVec.ofNat 32 k)
      = some (ramSlot, BitVec.ofNat 32 (m.ram.size - 8 + k)) := by
  have hfits := fits_of_new hnew
  have hwindow : config.window .ram ∈ m.bus.windows := by
    rw [windows_new hnew]
    exact List.mem_cons_of_mem _ List.mem_cons_self
  have hoffset : initialStackPointer config.ramPages + BitVec.ofNat 32 k
      - (config.window .ram).base = BitVec.ofNat 32 (m.ram.size - 8 + k) := by
    have hsize : m.ram.size = config.ramPages.toNat * pageSize := size_new hnew .ram
    have hbase : (config.window .ram).base.toNat = 0x10000000 := rfl
    have hroom : config.ramPages.toNat * pageSize ≤ 0x10000000 := (hfits .ram).2
    apply BitVec.eq_of_toNat_eq
    rw [BitVec.toNat_sub_of_le (hfits.stack_holds hk).1, hfits.toNat_stack hk, hbase,
      BitVec.toNat_ofNat, hsize]
    omega
  rw [Bus.route_of_holds (laid_new hnew) hwindow (hfits.stack_holds hk), hoffset]
  rfl

theorem stack_located (hnew : new config = .ok m) :
    m.bus.Located .word (initialStackPointer config.ramPages) ramSlot
      (BitVec.ofNat 32 (m.ram.size - 8)) (.ram (Storage.ofPages config.ramPages))
      (Storage.ofPages config.ramPages) where
  aligned := Nat.mod_eq_zero_of_dvd
    (Nat.dvd_trans (by decide) (fits_of_new hnew).eight_dvd_stackPointer)
  route := by
    have hroute := route_stack hnew (k := 0) (by decide)
    rwa [Nat.add_zero, BitVec.add_zero] at hroute
  device := device?_new hnew .ram
  storage := rfl
  inside := by
    have hpages : 1 ≤ config.ramPages.toNat := (fits_of_new hnew .ram).1
    have hsize : m.ram.size = config.ramPages.toNat * 1024 := size_new hnew .ram
    have hle := Nat.mod_le (config.ramPages.toNat * 1024 - 8) (2 ^ 32)
    rw [Memory.InRange, size_ofPages, hsize, BitVec.toNat_ofNat, pageSize, Width.bytes]
    omega

/-- A word can be kept at the stack pointer. -/
theorem stack_keeps (hnew : new config = .ok m) (value : BitVec (Width.bits .word)) :
    ∃ b, Bus.store .word (initialStackPointer config.ramPages) value m.bus = .ok () b
      ∧ Bus.load .word (initialStackPointer config.ramPages) b = .ok value b := by
  have hlocated := stack_located hnew
  obtain ⟨b, hstore, -⟩ := hlocated.exists_store (laid_new hnew) value
  exact ⟨b, hstore, (Bus.contains_of_store hstore ⟨_, _, _, _, hlocated⟩).load⟩

end New

/-! ## Microcontrollers as they are made -/

/-- The bus has the two memories and the interrupt controller, each with its window, and nothing
else; the windows share no page, and no step on the way there overflows. -/
structure LaidOut (m : Microcontroller ε) (config : Config) : Prop where
  slots : m.bus.slots = #[some (.rom (Storage.ofPages config.romPages)),
    some (.ram (Storage.ofPages config.ramPages)), some (.controller {})]
  windows : m.bus.windows = [⟨romBase, config.romPages, romSlot⟩,
    ⟨ramBase, config.ramPages, ramSlot⟩,
    ⟨controllerBase, InterruptController.pageCount, controllerSlot⟩]
  sizes : ∀ r, m.regionSize r = (config.pages r).toNat * pageSize
  apart : m.bus.windows.Pairwise Window.Apart
  exact : config.Exact ∧ ∀ w ∈ m.bus.windows, w.Exact

/-- The stack pointer is a multiple of eight, the bytes behind it are the last eight of the RAM,
a word can be kept there, and a reset always leads back to it. -/
structure Primed (m : Microcontroller ε) (config : Config) : Prop where
  pointer : (m.hart.x stackPointer).toNat = 0x10000000 + 1024 * config.ramPages.toNat - 8
  aligned : (m.hart.x stackPointer).toNat % 8 = 0
  last : ∀ k, k < 8 → m.bus.route (m.hart.x stackPointer + BitVec.ofNat 32 k)
    = some (ramSlot, BitVec.ofNat 32 (m.ram.size - 8 + k))
  keeps : ∀ value, ∃ b, Bus.store .word (m.hart.x stackPointer) value m.bus = .ok () b
    ∧ Bus.load .word (m.hart.x stackPointer) b = .ok value b
  restored : ∀ history, (m.after history).reset.hart.x stackPointer = m.hart.x stackPointer

theorem laidOut_new {m : Microcontroller ε} (hnew : new config = .ok m) :
    m.LaidOut config where
  slots := (new_ok hnew).1
  windows := windows_new hnew
  sizes
    | .rom => size_new hnew .rom
    | .ram => size_new hnew .ram
  apart := (laid_new hnew).apart
  exact := ⟨(fits_of_new hnew).exact, fun w hw => ((laid_new hnew).placed w hw).exact⟩

theorem primed_new {m : Microcontroller ε} (hnew : new config = .ok m) : m.Primed config := by
  have hpointer := stackPointer_new hnew
  have hfits := fits_of_new hnew
  constructor
  case pointer => rw [hpointer, hfits.toNat_stackPointer]
  case aligned => rw [hpointer, Nat.mod_eq_zero_of_dvd hfits.eight_dvd_stackPointer]
  case last =>
    intro k hk
    rw [hpointer, route_stack hnew hk]
  case keeps =>
    rw [hpointer]
    exact stack_keeps hnew
  case restored =>
    intro history
    rw [hpointer, stackPointer_reset hnew history]

/-- Of every configuration it is settled by its sizes whether there is a microcontroller, and if
there is none, why. If there is one it has three windows apart from each other and a stack pointer
at the end of its RAM, and nothing has overflowed on the way. -/
theorem new_settled (config : Config) :
    ((∃ m : Microcontroller ε, new config = .ok m)
      ↔ (1 ≤ config.romPages.toNat ∧ config.romPages.toNat ≤ 0x40000)
        ∧ 1 ≤ config.ramPages.toNat ∧ config.ramPages.toNat ≤ 0x40000)
      ∧ (∀ e, (new config : Except ConfigError (Microcontroller ε)) = .error e
          ↔ config.refusal? = some e)
      ∧ ∀ m : Microcontroller ε, new config = .ok m → m.LaidOut config ∧ m.Primed config :=
  ⟨exists_new_iff.trans Config.fits_iff, fun _ => new_eq_error,
    fun _ hnew => ⟨laidOut_new hnew, primed_new hnew⟩⟩

/-- The largest memories fill their parts of the map, and the stack begins right below its end;
with a page more there is no microcontroller. -/
theorem new_settled_largest :
    (∃ m : Microcontroller Empty, new ⟨0x40000, 0x40000⟩ = .ok m
        ∧ m.hart.x stackPointer = 0x1ffffff8
        ∧ (m.after [.edit (.setRegister 2 7)]).reset.hart.x stackPointer = 0x1ffffff8)
      ∧ (new ⟨0x40001, 0⟩ : Except ConfigError (Microcontroller Empty))
          = .error (.romTooLarge 0x40001)
      ∧ (new ⟨0, 0x40001⟩ : Except ConfigError (Microcontroller Empty))
          = .error (.ramTooLarge 0x40001)
      ∧ (new ⟨0, 1⟩ : Except ConfigError (Microcontroller Empty)) = .error (.bus .noPages) := by
  obtain ⟨haccepted, -, hmade⟩ := new_settled (ε := Empty) ⟨0x40000, 0x40000⟩
  obtain ⟨m, hnew⟩ := haccepted.mpr (by decide)
  obtain ⟨-, hprimed⟩ := hmade m hnew
  have hpointer : m.hart.x stackPointer = 0x1ffffff8 := BitVec.eq_of_toNat_eq hprimed.pointer
  exact ⟨⟨m, hnew, hpointer, (hprimed.restored _).trans hpointer⟩,
    ((new_settled ⟨0x40001, 0⟩).2.1 _).mpr (by decide),
    ((new_settled ⟨0, 0x40001⟩).2.1 _).mpr (by decide),
    ((new_settled ⟨0, 1⟩).2.1 _).mpr (by decide)⟩

end Microcontroller

end Rv32Soc
