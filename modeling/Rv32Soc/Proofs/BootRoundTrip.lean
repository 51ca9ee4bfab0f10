import Rv32Soc.Proofs.ElfFiles
import Rv32Soc.Proofs.FlatMemory
import Rv32Soc.Proofs.Loading

/-!
# From a file to a running machine

Segments are put into a file, the file is read, a machine is made, the image
is loaded and the machine is reset: then every byte of every segment can be
loaded at its address, and all other memory is zero. The way there leads
through places in the file, places in the memories and addresses on the bus.
They are taken together here, and only two facts of each stage matter: which
image the file is, and which byte the image asks for at an address.
-/

namespace Rv32Soc

open Elf (Part Image Segment)

/-! ## Bytes of segments apart -/

namespace Elf

/-- An address of the part. -/
def Part.Covers (p : Part) (address : Nat) : Prop :=
  p.address.toNat ≤ address ∧ address < p.address.toNat + p.size

/-- The parts have no address in common. -/
def Part.Apart (p q : Part) : Prop :=
  ∀ address, ¬(p.Covers address ∧ q.Covers address)

instance : Std.Symm Part.Apart where
  symm _ _ h address hboth := h address ⟨hboth.2, hboth.1⟩

theorem Part.byteAt?_segment (p : Part) (address : Nat) :
    p.segment.byteAt? address
      = if p.address.toNat ≤ address then p.contents[address - p.address.toNat]? else none := by
  show (if p.address.toNat ≤ address then p.contents.toArray[address - p.address.toNat]?
    else none) = _
  rw [List.getElem?_toArray]

theorem Part.byteAt?_eq_none {p : Part} {address : Nat} (h : ¬p.Covers address) :
    p.segment.byteAt? address = none := by
  rw [byteAt?_segment]
  split
  · next hfrom =>
      have hto : p.address.toNat + p.size ≤ address := Nat.not_lt.mp fun hto => h ⟨hfrom, hto⟩
      exact List.getElem?_eq_none (show p.size ≤ _ by omega)
  · rfl

variable {parts : List Part} {address : Nat}

/-- Where parts are apart, a byte is that of the only part with the address. -/
theorem byteAt_of_covers (entry : Word) (h : parts.Pairwise Part.Apart) {p : Part} (hp : p ∈ parts)
    (hcovers : p.Covers address) :
    p.contents[address - p.address.toNat]?
      = some (Image.byteAt ⟨entry, parts.map Part.segment⟩ address) := by
  obtain ⟨hfrom, hto⟩ := hcovers
  have hplace : address - p.address.toNat < p.contents.length :=
    show _ < p.size by omega
  have hbyte : p.segment.byteAt? address = some p.contents[address - p.address.toNat] := by
    rw [p.byteAt?_segment, if_pos hfrom, List.getElem?_eq_getElem hplace]
  have honly : ∀ q ∈ parts, ∀ byte, q.segment.byteAt? address = some byte →
      byte = p.contents[address - p.address.toNat] := by
    intro q hq byte hbyte'
    by_cases hqp : q = p
    · rw [hqp, hbyte] at hbyte'
      exact (Option.some.inj hbyte').symm
    · rw [q.byteAt?_eq_none fun hcovers => h.forall hq hp hqp address ⟨hcovers, hfrom, hto⟩]
        at hbyte'
      cases hbyte'
  rw [List.getElem?_eq_getElem hplace, Image.byteAt, lastByte?]
  cases hlast : ((parts.map Part.segment).reverse.findSome? fun s => s.byteAt? address) with
  | none =>
      have hnone := List.findSome?_eq_none_iff.mp hlast p.segment
        (List.mem_reverse.mpr (List.mem_map_of_mem hp))
      rw [hbyte] at hnone
      cases hnone
  | some byte =>
      obtain ⟨s, hs, hbyte'⟩ := List.exists_of_findSome?_eq_some hlast
      obtain ⟨q, hq, rfl⟩ := List.mem_map.mp (List.mem_reverse.mp hs)
      rw [honly q hq byte hbyte', Option.getD_some]

theorem byteAt_of_uncovered (entry : Word) (h : ∀ p ∈ parts, ¬p.Covers address) :
    Image.byteAt ⟨entry, parts.map Part.segment⟩ address = 0 := by
  have hnone : lastByte? (parts.map Part.segment) address = none := by
    simp only [lastByte?, List.findSome?_eq_none_iff, List.mem_reverse, List.mem_map]
    rintro s ⟨p, hp, rfl⟩
    exact p.byteAt?_eq_none (h p hp)
  rw [Image.byteAt, hnone]
  rfl

/-- The part lies in a memory of the configuration; if it is empty, where a memory may end. -/
def Part.Inside (p : Part) (config : Config) : Prop :=
  p.address.toNat < 0x10000000
      ∧ p.address.toNat + p.size ≤ config.romPages.toNat * pageSize
    ∨ 0x10000000 ≤ p.address.toNat ∧ p.address.toNat < 0x20000000
      ∧ p.address.toNat - 0x10000000 + p.size ≤ config.ramPages.toNat * pageSize

instance (p : Part) (config : Config) : Decidable (p.Inside config) :=
  inferInstanceAs (Decidable (_ ∨ _))

variable {p : Part} {config : Config}

theorem Part.Inside.fitsIn (h : p.Inside config) :
    p.segment.FitsIn (config.romPages.toNat * pageSize) (config.ramPages.toNat * pageSize) := by
  have hsize : max p.segment.data.size p.segment.memorySize.toNat = p.size := by
    have hmemory : p.segment.memorySize.toNat = p.size % 2 ^ 32 := BitVec.toNat_ofNat _ _
    rw [hmemory, show p.segment.data.size = p.size from rfl]
    exact Nat.max_eq_left (Nat.mod_le _ _)
  rw [Segment.FitsIn, hsize]
  exact h

theorem Part.Inside.end_le (h : p.Inside config) (hfits : config.Fits) :
    p.address.toNat + p.size ≤ 2 ^ 32 := by
  have hrom : config.romPages.toNat * pageSize ≤ 2 ^ 28 := (hfits .rom).2
  have hram : config.ramPages.toNat * pageSize ≤ 2 ^ 28 := (hfits .ram).2
  rw [Inside] at h
  omega

theorem Part.Inside.holds (h : p.Inside config) {a : Word} (ha : p.Covers a.toNat) :
    ∃ r, (config.window r).Holds a := by
  obtain ⟨hfrom, hto⟩ := ha
  obtain ⟨-, hrom⟩ | ⟨hhigh, -, hram⟩ := h
  · refine ⟨.rom, Nat.zero_le _, ?_⟩
    show a.toNat < 0 + config.romPages.toNat * pageSize
    omega
  · refine ⟨.ram, Nat.le_trans hhigh hfrom, ?_⟩
    show a.toNat < 0x10000000 + config.ramPages.toNat * pageSize
    omega

end Elf

namespace Microcontroller

variable {ε : Type} [Peripheral ε]

/-! ## Memories in their windows -/

/-- The memories stand in the windows of the configuration, and hold given bytes. -/
structure Shows (m : Microcontroller ε) (config : Config) (byte : Nat → Byte) : Prop where
  windows : m.bus.windows = [config.window .rom, config.window .ram, controllerWindow]
  memory : ∀ r : Region, ∃ s, m.bus.device? r.slot = some (r.device s)
    ∧ s.memory.size = (config.window r).bytes
    ∧ ∀ i < s.memory.size, s.memory.bytes[i]? = some (byte (r.base.toNat + i))

theorem shows_loaded {config : Config} {m m' : Microcontroller ε} {image : Image}
    (hnew : new config = .ok m)
    (hwindows : m.bus.windows = [config.window .rom, config.window .ram, controllerWindow])
    (h : Loaded m m' image) : m'.Shows config image.byteAt := by
  refine ⟨h.bus.windows.trans hwindows, fun r => ?_⟩
  obtain ⟨s, hd, -⟩ := h.housed r
  obtain ⟨hsize, hbytes⟩ := h.memory r
  rw [memoryAt_eq hd, size_new hnew r] at hsize
  refine ⟨s, hd, hsize, fun i hi => ?_⟩
  rw [size_new hnew r, memoryAt_eq hd, ← hsize] at hbytes
  exact hbytes i hi

omit [Peripheral ε] in
/-- A reset leaves the memories as they are. -/
theorem Shows.reset {config : Config} {m : Microcontroller ε} {byte : Nat → Byte}
    (h : m.Shows config byte) : m.reset.Shows config byte := by
  have hsteady := Bus.update_steady m.bus.unreserve controllerSlot
  refine ⟨(hsteady _).windows.trans h.windows, fun r => ?_⟩
  obtain ⟨s, hd, hs⟩ := h.memory r
  refine ⟨s, ?_, hs⟩
  have hslot : controllerSlot ≠ r.slot := by cases r <;> decide
  exact (Bus.device?_update_of_ne _ hslot _).trans hd

/-- Every aligned load from a memory is answered with the bytes there. -/
theorem Shows.load {config : Config} {m : Microcontroller ε} {byte : Nat → Byte}
    (h : m.Shows config byte) (hfits : config.Fits) {r : Region} {address : Word}
    (ha : (config.window r).Holds address) {width : Width} (haligned : width.Aligned address) :
    ∃ value, Bus.load width address m.bus = .ok value m.bus
      ∧ ∀ i < width.bytes, byteOf value i = byte (address.toNat + i) := by
  obtain ⟨s, hd, hsize, hbytes⟩ := h.memory r
  have hplaced := hfits.placed r
  have hlaid : Laid m.bus.windows := h.windows ▸ laid_windows hfits
  have hw : config.window r ∈ m.bus.windows := by
    rw [h.windows]
    cases r <;> simp
  refine ⟨_, Bus.load_of_holds hlaid hw ha haligned hd (r.storage?_device s) hsize, ?_⟩
  intro i hi
  have hinside := hplaced.inRange ha haligned hsize
  have hfrom : r.base.toNat ≤ address.toNat := ha.1
  have hplace : (address - r.base).toNat = address.toNat - r.base.toNat :=
    BitVec.toNat_sub_of_le hfrom
  have hbyte := hbytes ((address - r.base).toNat + i)
    (Nat.lt_of_lt_of_le (Nat.add_lt_add_left hi _) hinside)
  rw [byteOf_assemble _ _ hi, Array.getD_eq_getD_getElem?]
  show (s.memory.bytes[(address - r.base).toNat + i]?).getD 0 = _
  rw [hbyte, hplace, Option.getD_some]
  congr 1
  omega

theorem Shows.loadByte {config : Config} {m : Microcontroller ε} {byte : Nat → Byte}
    (h : m.Shows config byte) (hfits : config.Fits) {r : Region} {address : Word}
    (ha : (config.window r).Holds address) :
    Bus.load .byte address m.bus = .ok (byte address.toNat) m.bus := by
  obtain ⟨value, hload, hvalue⟩ := h.load hfits ha (Width.aligned_byte address)
  have hself : byteOf (n := 1) value 0 = value := BitVec.extractLsb'_eq_self
  have hbyte : value = byte address.toNat := hself.symm.trans (hvalue 0 Nat.one_pos)
  exact hload.trans (congrArg (EStateM.Result.ok · m.bus) hbyte)

theorem Shows.fetch {config : Config} {m : Microcontroller ε} {byte : Nat → Byte}
    (h : m.Shows config byte) (hfits : config.Fits) {r : Region} {address : Word}
    (ha : (config.window r).Holds address) (haligned : Width.Aligned .word address) :
    ∃ w, Bus.fetch address m.bus = .ok w m.bus
      ∧ ∀ i < 4, Bus.load .byte (address + BitVec.ofNat 32 i) m.bus
        = .ok (byteOf (n := 4) w i) m.bus := by
  obtain ⟨w, hload, hw⟩ := h.load hfits ha haligned
  refine ⟨w, ?_, fun i hi => ?_⟩
  · rw [Bus.fetch, if_pos haligned, hload]
  · have hend : address.toNat + 4 ≤ (config.window r).base.toNat + (config.window r).bytes :=
      (hfits.placed r).access_le ha haligned
    have hinside := (hfits.placed r).inside
    have hsum : (address + BitVec.ofNat 32 i).toNat = address.toNat + i :=
      toNat_add_ofNat (by omega)
    have hholds : (config.window r).Holds (address + BitVec.ofNat 32 i) := by
      rw [Window.Holds, hsum]
      have hfrom := ha.1
      omega
    have hbyte := h.loadByte hfits hholds
    rw [hsum] at hbyte
    exact hbyte.trans (congrArg (EStateM.Result.ok · m.bus) (hw i hi).symm)

/-! ## Booting -/

/-- A machine that has been given parts and been reset. -/
structure Booted (config : Config) (parts : List Part) (m : Microcontroller ε) : Prop where
  pc : m.hart.pc = 0x200
  contents : ∀ p ∈ parts, ∀ i (byte : Byte), p.contents[i]? = some byte →
    Bus.load .byte (p.address + BitVec.ofNat 32 i) m.bus = .ok byte m.bus
  zero : ∀ a : Word, a.toNat < config.romPages.toNat * pageSize
      ∨ 0x10000000 ≤ a.toNat ∧ a.toNat < 0x10000000 + config.ramPages.toNat * pageSize →
    (∀ p ∈ parts, ¬p.Covers a.toNat) → Bus.load .byte a m.bus = .ok 0 m.bus
  fetch : ∀ p ∈ parts, ∀ a : Word, p.Covers a.toNat → Width.Aligned .word a →
    ∃ w, Bus.fetch a m.bus = .ok w m.bus
      ∧ ∀ i < 4, Bus.load .byte (a + BitVec.ofNat 32 i) m.bus = .ok (byteOf (n := 4) w i) m.bus

theorem booted_of_shows {config : Config} {parts : List Part} {entry : Word}
    {m : Microcontroller ε} (hfits : config.Fits)
    (hparts : ∀ p ∈ parts, p.Inside config) (hapart : parts.Pairwise Part.Apart)
    (hpc : m.hart.pc = 0x200)
    (h : m.Shows config (Image.byteAt ⟨entry, parts.map Part.segment⟩)) :
    Booted config parts m where
  pc := hpc
  contents := by
    intro p hp i byte hi
    obtain ⟨hplace, hbyte⟩ := List.getElem?_eq_some_iff.mp hi
    have hsum : (p.address + BitVec.ofNat 32 i).toNat = p.address.toNat + i :=
      toNat_add_ofNat (Nat.lt_of_lt_of_le (Nat.add_lt_add_left hplace _)
        ((hparts p hp).end_le hfits))
    have hcovers : p.Covers (p.address + BitVec.ofNat 32 i).toNat := by
      rw [hsum]
      exact ⟨Nat.le_add_right _ _, Nat.add_lt_add_left hplace _⟩
    obtain ⟨r, hr⟩ := (hparts p hp).holds hcovers
    have hload := h.loadByte hfits hr
    have hvalue := Elf.byteAt_of_covers entry hapart hp hcovers
    rw [hsum, Nat.add_sub_cancel_left, hi] at hvalue
    rw [hsum, ← Option.some.inj hvalue] at hload
    exact hload
  zero := by
    intro a ha huncovered
    have hr : ∃ r, (config.window r).Holds a := by
      obtain hrom | ⟨hram, hram'⟩ := ha
      · exact ⟨.rom, Nat.zero_le _, Nat.lt_of_lt_of_eq hrom (Nat.zero_add _).symm⟩
      · exact ⟨.ram, hram, hram'⟩
    obtain ⟨r, hr⟩ := hr
    have hload := h.loadByte hfits hr
    rw [Elf.byteAt_of_uncovered entry huncovered] at hload
    exact hload
  fetch := by
    intro p hp a ha haligned
    obtain ⟨r, hr⟩ := (hparts p hp).holds ha
    exact h.fetch hfits hr haligned

/-- Segments that fit and have no address in common come back from a file: it is read, a machine
is made and loaded with it, and after a reset the memories show the segments and nothing else. -/
theorem boot_round_trip (config : Config) (order : Elf.ByteOrder) (entry : Word)
    {parts : List Part}
    (hrom : 1 ≤ config.romPages.toNat ∧ config.romPages.toNat ≤ 0x40000)
    (hram : 1 ≤ config.ramPages.toNat ∧ config.ramPages.toNat ≤ 0x40000)
    (hcount : parts.length < 65535) (hlength : (Elf.build order entry parts).length < 2 ^ 32)
    (hparts : ∀ p ∈ parts, p.Inside config) (hapart : parts.Pairwise Part.Apart) :
    ∃ image, Image.ofFile (Elf.build order entry parts).toArray = .ok image
      ∧ ∃ m : Microcontroller ε, new config = .ok m
      ∧ ∃ m', load image m = .ok () m' ∧ Booted config parts m'.reset := by
  have hfits : config.Fits := by
    intro r
    cases r with
    | rom => exact ⟨hrom.1, Nat.mul_le_mul_right pageSize hrom.2⟩
    | ram => exact ⟨hram.1, Nat.mul_le_mul_right pageSize hram.2⟩
  have himage := Elf.ofFile_build order entry hcount hlength
    fun p hp => (hparts p hp).end_le hfits
  obtain ⟨m, hnew, hwindows⟩ := exists_new (ε := ε) hfits
  have hwhole := (housed_new hnew).loadsWholly ⟨entry, parts.map Part.segment⟩
  obtain ⟨m', hload⟩ := hwhole.accepts.mpr (by
    intro s hs
    obtain ⟨p, hp, rfl⟩ := List.mem_map.mp hs
    rw [show m.rom.size = _ from size_new hnew .rom, show m.ram.size = _ from size_new hnew .ram]
    exact (hparts p hp).fitsIn)
  have hshows := (shows_loaded hnew hwindows (hwhole.loads m' hload)).reset
  exact ⟨_, himage, m, hnew, m', hload, booted_of_shows hfits hparts hapart rfl hshows⟩

/-- An instruction in the ROM, the last two bytes of the RAM, and nothing behind them. -/
def threeParts : List Part :=
  [⟨0x200, [0x13, 0x05, 0x15, 0x00]⟩, ⟨0x100003fe, [0x17, 0x2a]⟩, ⟨0x10000400, []⟩]

/-- Three segments come back from a file of the other byte order. -/
theorem boot_round_trip_three :
    ∃ image, Image.ofFile (Elf.build .big 0x1234 threeParts).toArray = .ok image
      ∧ ∃ m : Microcontroller Empty, new ⟨1, 1⟩ = .ok m
      ∧ ∃ m', load image m = .ok () m' ∧ m'.reset.hart.pc = 0x200
        ∧ Bus.load .byte 0x100003ff m'.reset.bus = .ok 0x2a m'.reset.bus
        ∧ Bus.load .byte 0x204 m'.reset.bus = .ok 0 m'.reset.bus := by
  have hapart : threeParts.Pairwise Part.Apart := by
    simp [threeParts, Part.Apart, Part.Covers, Part.size]
    omega
  have hlength : (Elf.build .big 0x1234 threeParts).length < 2 ^ 32 := by
    rw [Elf.length_build]
    decide
  obtain ⟨image, himage, m, hnew, m', hload, hbooted⟩ := boot_round_trip (ε := Empty)
    ⟨1, 1⟩ .big 0x1234 (by decide) (by decide) (by decide) hlength (by decide) hapart
  refine ⟨image, himage, m, hnew, m', hload, hbooted.pc, ?_, ?_⟩
  · exact hbooted.contents ⟨0x100003fe, [0x17, 0x2a]⟩ (by simp [threeParts]) 1 0x2a rfl
  · exact hbooted.zero 0x204 (by decide)
      (by simp [threeParts, Part.Covers, Part.size])

end Microcontroller

end Rv32Soc
