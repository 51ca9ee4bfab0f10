import Rv32Soc.Proofs.AddressSpace
import Rv32Soc.Proofs.Housing

/-!
# How a microcontroller is laid out

A microcontroller is made for every configuration with at least one page of
each memory and no more than there is room for. The windows of the two memories
and of the interrupt controller then stand where the map has them, apart from
each other.
-/

namespace Rv32Soc

variable {ε : Type}

theorem Window.apart_of_le {w v : Window} (h : w.base.toNat + w.bytes ≤ v.base.toNat) :
    w.Apart v := by
  intro page hboth
  rw [covers_iff, covers_iff] at hboth
  simp only [endPage, firstPage, pageOf, bytes, pageSize] at h hboth
  omega

/-! ## The windows of the map -/

/-- Both memories have a page, and neither is larger than its part of the address space. -/
def Config.Fits (config : Config) : Prop :=
  ∀ r, 1 ≤ (config.pages r).toNat ∧ (config.pages r).toNat * pageSize ≤ regionRoom

/-- The window of a memory of the machine. -/
def Config.window (config : Config) (r : Region) : Window :=
  ⟨r.base, config.pages r, r.slot⟩

/-- The window of the interrupt controller of the machine. -/
def controllerWindow : Window :=
  ⟨controllerBase, InterruptController.pageCount, controllerSlot⟩

variable {config : Config}

/-- For the place of a memory it does not matter how large the other one is. -/
theorem Config.window_placed (r : Region) (hpages : 1 ≤ (config.pages r).toNat)
    (hroom : (config.pages r).toNat * pageSize ≤ regionRoom) : (config.window r).Placed := by
  have hbytes : (config.window r).bytes ≤ 2 ^ 28 := hroom
  cases r with
  | rom => exact ⟨hpages, Nat.dvd_zero _, Nat.le_trans (Nat.add_le_add_left hbytes 0) (by decide)⟩
  | ram =>
      exact ⟨hpages, Nat.pow_dvd_pow 2 (Nat.clog_le_of_le_pow hbytes),
        Nat.le_trans (Nat.add_le_add_left hbytes (2 ^ 28)) (by decide)⟩

theorem Config.Fits.placed (h : config.Fits) (r : Region) : (config.window r).Placed :=
  window_placed r (h r).1 (h r).2

theorem placed_controllerWindow : controllerWindow.Placed :=
  Window.placed_iff.mpr (by decide +kernel)

theorem Config.Fits.apart (h : config.Fits) : (config.window .rom).Apart (config.window .ram) :=
  Window.apart_of_le (Nat.add_le_add_left (h .rom).2 0)

theorem Config.Fits.apart_controller (h : config.Fits) (r : Region) :
    (config.window r).Apart controllerWindow := by
  apply Window.apart_of_le
  cases r with
  | rom => exact Nat.le_trans (Nat.add_le_add_left (h .rom).2 0) (by decide)
  | ram => exact Nat.le_trans (Nat.add_le_add_left (h .ram).2 (2 ^ 28)) (by decide)

theorem Bus.device?_installed (b : Bus ε) (d : Device ε) :
    (b.install d).2.device? b.slots.size = some d := by
  simp [device?, install]

namespace Microcontroller

variable [Peripheral ε]

/-! ## Construction -/

theorem place_ok {b : Bus ε} {d : Device ε} {w : Window} (hpages : d.pages = w.pages)
    (hslot : b.slots.size = w.slot) (hplaced : w.Placed) (hapart : ∀ v ∈ b.windows, v.Apart w) :
    ∃ b', place b d w.base = .ok b' ∧ b'.windows = b.windows ++ [w]
      ∧ b'.slots.size = w.slot + 1 := by
  obtain ⟨base, pages, slot⟩ := w
  subst hpages hslot
  have hattach : (b.install d).2.attach b.slots.size base
      = .ok ((b.install d).2.opened ⟨base, d.pages, b.slots.size⟩) :=
    Bus.attach_eq_ok.mpr ⟨d, b.device?_installed d, hplaced, hapart, rfl⟩
  refine ⟨(b.install d).2.opened ⟨base, d.pages, b.slots.size⟩, ?_, rfl, Array.size_push _⟩
  unfold place
  simp only []
  split
  · next b' hb' =>
      cases hattach.symm.trans hb'
      rfl
  · next e he => cases hattach.symm.trans he

/-- A configuration that fits is accepted, and the windows stand as the map has them. -/
theorem exists_new (h : config.Fits) :
    ∃ m : Microcontroller ε, new config = .ok m
      ∧ m.bus.windows = [config.window .rom, config.window .ram, controllerWindow] := by
  have hromPages : ¬config.romPages.toNat * pageSize > ramBase.toNat - romBase.toNat :=
    Nat.not_lt.mpr (h .rom).2
  have hramPages : ¬config.ramPages.toNat * pageSize > ramTop.toNat - ramBase.toNat :=
    Nat.not_lt.mpr (h .ram).2
  obtain ⟨b₁, hrom, hwindows₁, hslots₁⟩ : ∃ b₁,
      place ({} : Bus ε) (.rom (Storage.ofPages config.romPages)) romBase = .ok b₁
        ∧ b₁.windows = [config.window .rom] ∧ b₁.slots.size = 1 :=
    place_ok rfl rfl (h.placed .rom) nofun
  obtain ⟨b₂, hram, hwindows₂, hslots₂⟩ : ∃ b₂,
      place b₁ (.ram (Storage.ofPages config.ramPages)) ramBase = .ok b₂
        ∧ b₂.windows = b₁.windows ++ [config.window .ram] ∧ b₂.slots.size = 2 :=
    place_ok rfl hslots₁ (h.placed .ram) (by simpa [hwindows₁] using h.apart)
  obtain ⟨b₃, hcontroller, hwindows₃, -⟩ : ∃ b₃,
      place b₂ (.controller {}) controllerBase = .ok b₃
        ∧ b₃.windows = b₂.windows ++ [controllerWindow] ∧ b₃.slots.size = 3 :=
    place_ok rfl hslots₂ placed_controllerWindow
      (by simpa [hwindows₂, hwindows₁] using ⟨h.apart_controller .rom, h.apart_controller .ram⟩)
  have hwindows : b₃.windows = [config.window .rom, config.window .ram, controllerWindow] := by
    rw [hwindows₃, hwindows₂, hwindows₁]
    rfl
  let hart : Hart ε := { bus := b₃ }
  refine ⟨{ hart := hart.setX stackPointer (initialStackPointer config.ramPages), config }, ?_,
    hwindows⟩
  simp only [new, bind, Except.bind, if_neg hromPages, if_neg hramPages, hrom, hram, hcontroller]
  rfl

/-- The windows of a new microcontroller are apart. -/
theorem laid_windows (h : config.Fits) :
    Laid [config.window .rom, config.window .ram, controllerWindow] where
  placed := by simpa using ⟨h.placed .rom, h.placed .ram, placed_controllerWindow⟩
  apart := by simpa using ⟨⟨h.apart, h.apart_controller .rom⟩, h.apart_controller .ram⟩

theorem pages_of_place {b b' : Bus ε} {d : Device ε} {base : Word}
    (h : place b d base = .ok b') : 1 ≤ d.pages.toNat := by
  unfold place at h
  simp only [] at h
  split at h
  · next hattach =>
      obtain ⟨d', hd', hplaced, -⟩ := Bus.attach_eq_ok.mp hattach
      cases (b.device?_installed d).symm.trans hd'
      exact hplaced.pages
  · cases h

/-- No other configuration is accepted. -/
theorem fits_of_new {m : Microcontroller ε} (hnew : new config = .ok m) : config.Fits := by
  intro r
  refine ⟨?_, pages_new hnew r⟩
  simp only [new, bind, Except.bind] at hnew
  split at hnew
  · cases hnew
  · split at hnew
    · cases hnew
    · split at hnew
      · cases hnew
      · next b₁ hrom =>
          split at hnew
          · cases hnew
          · next b₂ hram =>
              cases r with
              | rom => exact pages_of_place hrom
              | ram => exact pages_of_place hram

theorem windows_new {m : Microcontroller ε} (hnew : new config = .ok m) :
    m.bus.windows = [config.window .rom, config.window .ram, controllerWindow] := by
  obtain ⟨m', hnew', hwindows⟩ := exists_new (ε := ε) (fits_of_new hnew)
  cases hnew.symm.trans hnew'
  exact hwindows

theorem laid_new {m : Microcontroller ε} (hnew : new config = .ok m) : Laid m.bus.windows := by
  rw [windows_new hnew]
  exact laid_windows (fits_of_new hnew)

end Microcontroller

end Rv32Soc
