import Rv32Soc.Proofs.Construction

/-!
# An image is loaded wholly or not at all

An image is accepted just if each of its segments lies in the ROM or in the
RAM. The loader asks more than that, first about the parts of the address
space and then about the sizes of the memories; but no memory is larger than
its part, so the answers agree. And what the loader has accepted the memories
take: an offset that was counted from the base of the memory lies inside it.

The contents afterwards can be told address by address and without regard to
the memories. A byte is that of the last segment with data for its address,
and is zero where no segment has any.
-/

namespace Rv32Soc

open Elf (Image Segment)

namespace Elf

/-- The byte that the data of a segment puts at an address. -/
def Segment.byteAt? (s : Segment) (address : Nat) : Option Byte :=
  if s.base.toNat ≤ address then s.data[address - s.base.toNat]? else none

/-- The byte of the last segment that has data for an address. -/
def lastByte? (segments : List Segment) (address : Nat) : Option Byte :=
  segments.reverse.findSome? (·.byteAt? address)

/-- The byte that an image asks for at an address: zero where no segment has data. -/
def Image.byteAt (image : Image) (address : Nat) : Byte :=
  (lastByte? image.segments address).getD 0

theorem lastByte?_cons (s : Segment) (rest : List Segment) (address : Nat) :
    lastByte? (s :: rest) address = (lastByte? rest address).or (s.byteAt? address) := by
  rw [lastByte?, List.reverse_cons, List.findSome?_append, List.findSome?_cons]
  cases s.byteAt? address <;> rfl

/-- The segment lies in a ROM or a RAM of these sizes, counting the larger of its data and its
memory. -/
def Segment.FitsIn (s : Segment) (romSize ramSize : Nat) : Prop :=
  s.base.toNat < 0x10000000
      ∧ s.base.toNat + max s.data.size s.memorySize.toNat ≤ romSize
    ∨ 0x10000000 ≤ s.base.toNat ∧ s.base.toNat < 0x20000000
      ∧ s.base.toNat - 0x10000000 + max s.data.size s.memorySize.toNat ≤ ramSize

instance (s : Segment) (romSize ramSize : Nat) : Decidable (s.FitsIn romSize ramSize) :=
  inferInstanceAs (Decidable (_ ∨ _))

/-- The memory that the base of a segment lies in, if it lies in one. -/
def Segment.region (s : Segment) : Region :=
  if s.base < ramBase then .rom else .ram

/-- The segment with the place that its base asks for. -/
def Segment.placed (s : Segment) : Placement :=
  ⟨s.region, s.base - s.region.base, s⟩

end Elf

/-! ## Placing -/

section Placing

variable {size : Region → Nat} {s : Segment}

theorem regionOf_eq_ok {base : Word} {length : Nat} {r : Region} :
    regionOf base length = .ok r
      ↔ r = .rom ∧ base.toNat < 0x10000000 ∧ base.toNat + length ≤ 0x10000000
        ∨ r = .ram ∧ 0x10000000 ≤ base.toNat ∧ base.toNat < 0x20000000
          ∧ base.toNat + length ≤ 0x20000000 := by
  have hram : ramBase.toNat = 0x10000000 := rfl
  have htop : ramTop.toNat = 0x20000000 := rfl
  simp only [regionOf, BitVec.lt_def, hram, htop]
  split
  · split
    · simp; omega
    · cases r <;> simp <;> omega
  · split
    · cases r <;> simp <;> omega
    · simp; omega

theorem placement_apply (size : Region → Nat) (s : Segment) : placement size s
    = match regionOf s.base s.extent with
      | .error e => .error e
      | .ok r =>
          if (s.base - r.base).toNat + s.extent > size r then
            .error (.segmentTooLarge s.base (s.base.toNat + s.extent) (size r) r)
          else .ok ⟨r, s.base - r.base, s⟩ := by
  simp only [placement, bind, Except.bind]
  cases regionOf s.base s.extent with
  | error e => rfl
  | ok r => simp only []; split <;> rfl

theorem region_of_lt (h : s.base.toNat < 0x10000000) : s.region = .rom :=
  if_pos (show s.base < ramBase from h)

theorem region_of_le (h : 0x10000000 ≤ s.base.toNat) : s.region = .ram :=
  if_neg (show ¬s.base < ramBase from Nat.not_lt.mpr h)

theorem toNat_offset (s : Segment) :
    (s.base - s.region.base).toNat = s.base.toNat - s.region.base.toNat := by
  apply BitVec.toNat_sub_of_le
  by_cases hlow : s.base.toNat < 0x10000000
  · rw [region_of_lt hlow]
    exact Nat.zero_le _
  · rw [region_of_le (Nat.not_lt.mp hlow)]
    exact Nat.not_lt.mp hlow

/-- A segment fits just if its region takes it and the memory there is large enough. -/
theorem fitsIn_iff (hsize : ∀ r, size r ≤ regionRoom) :
    s.FitsIn (size .rom) (size .ram)
      ↔ regionOf s.base s.extent = .ok s.region
        ∧ (s.base - s.region.base).toNat + s.extent ≤ size s.region := by
  have hrom : size .rom ≤ 0x10000000 := hsize .rom
  have hram : size .ram ≤ 0x10000000 := hsize .ram
  have hrombase : Region.rom.base.toNat = 0 := rfl
  have hrambase : Region.ram.base.toNat = 0x10000000 := rfl
  have hextent : s.extent = max s.data.size s.memorySize.toNat := rfl
  rw [regionOf_eq_ok, toNat_offset, Elf.Segment.FitsIn, ← hextent]
  by_cases hlow : s.base.toNat < 0x10000000
  · rw [region_of_lt hlow, hrombase]
    simp; omega
  · rw [region_of_le (Nat.not_lt.mp hlow), hrambase]
    simp; omega

theorem region_of_regionOf {r : Region} {length : Nat} (h : regionOf s.base length = .ok r) :
    s.region = r := by
  obtain ⟨rfl, hlow, -⟩ | ⟨rfl, hhigh, -⟩ := regionOf_eq_ok.mp h
  · exact region_of_lt hlow
  · exact region_of_le hhigh

/-- The refusals that are told before any byte is written. -/
def LoaderError.Early : LoaderError → Prop
  | .write _ _ => False
  | _ => True

theorem early_of_regionOf {base : Word} {length : Nat} {e : LoaderError}
    (h : regionOf base length = .error e) : e.Early := by
  simp only [regionOf] at h
  split at h
  · split at h <;> cases h
    trivial
  · split at h <;> cases h
    trivial

/-- A segment that fits is given the place that its base asks for, and one that does not is
refused early. -/
theorem placement_cases (hsize : ∀ r, size r ≤ regionRoom) (s : Segment) :
    s.FitsIn (size .rom) (size .ram) ∧ placement size s = .ok s.placed
      ∨ ¬s.FitsIn (size .rom) (size .ram) ∧ ∃ e, placement size s = .error e ∧ e.Early := by
  rw [placement_apply, fitsIn_iff hsize]
  cases hregion : regionOf s.base s.extent with
  | error e => exact .inr ⟨fun h => (nomatch h.1), e, rfl, early_of_regionOf hregion⟩
  | ok r =>
      obtain rfl := region_of_regionOf hregion
      by_cases hinside : (s.base - s.region.base).toNat + s.extent ≤ size s.region
      · exact .inl ⟨⟨rfl, hinside⟩, if_neg (Nat.not_lt.mpr hinside)⟩
      · exact .inr ⟨fun h => hinside h.2, _, if_pos (Nat.not_le.mp hinside), trivial⟩

theorem placements_cases (hsize : ∀ r, size r ≤ regionRoom) (segments : List Segment) :
    (∀ s ∈ segments, s.FitsIn (size .rom) (size .ram))
        ∧ segments.mapM (placement size) = .ok (segments.map Segment.placed)
      ∨ (¬∀ s ∈ segments, s.FitsIn (size .rom) (size .ram))
        ∧ ∃ e, segments.mapM (placement size) = .error e ∧ e.Early := by
  induction segments with
  | nil => exact .inl ⟨nofun, rfl⟩
  | cons s rest ih =>
      rw [List.mapM_cons, List.forall_mem_cons, List.map_cons]
      obtain ⟨hfit, hs⟩ | ⟨hfit, e, hs, he⟩ := placement_cases hsize s
      · obtain ⟨hall, hrest⟩ | ⟨hall, e, hrest, he⟩ := ih
        · exact .inl ⟨⟨hfit, hall⟩, by rw [hs, hrest]; rfl⟩
        · exact .inr ⟨fun h => hall h.2, e, by rw [hs, hrest]; rfl, he⟩
      · exact .inr ⟨fun h => hfit h.1, e, by rw [hs]; rfl, he⟩

end Placing

/-! ## Filling -/

variable {ε : Type}

/-- The storage of a region after one segment has been written. -/
def Placement.fill (r : Region) (s : Storage) (p : Placement) : Storage :=
  if p.region = r then s.programmed p.offset p.segment.data else s

/-- The storage of a region after segments have been written one after the other. -/
def Storage.filled (r : Region) (s : Storage) (placements : List Placement) : Storage :=
  placements.foldl (Placement.fill r) s

theorem Storage.size_fill (r : Region) (s : Storage) (p : Placement) :
    (p.fill r s).memory.size = s.memory.size := by
  unfold Placement.fill
  split
  · exact s.size_programmed _ _
  · rfl

theorem Storage.size_filled (r : Region) (s : Storage) (placements : List Placement) :
    (s.filled r placements).memory.size = s.memory.size := by
  induction placements generalizing s with
  | nil => rfl
  | cons p rest ih => exact (ih (p.fill r s)).trans (s.size_fill r p)

namespace Bus

/-- What the memories hold. -/
def Stores (b : Bus ε) (contents : Region → Storage) : Prop :=
  ∀ r : Region, b.device? r.slot = some (r.device (contents r))

/-- The memories have other contents, and all else on the bus is as it was. -/
structure Refilled (b b' : Bus ε) (contents : Region → Storage) : Prop where
  stores : b'.Stores contents
  other : ∀ slot, (∀ r : Region, slot ≠ r.slot) → b'.device? slot = b.device? slot
  steady : Steady b b'

variable {b b' b'' : Bus ε} {contents contents' : Region → Storage}

theorem Refilled.trans (h : Refilled b b' contents) (h' : Refilled b' b'' contents') :
    Refilled b b'' contents' :=
  ⟨h'.stores, fun slot hslot => (h'.other slot hslot).trans (h.other slot hslot),
    h.steady.trans h'.steady⟩

theorem refilled_note (h : b.Stores contents) (e : Record) : Refilled b (b.note e) contents :=
  ⟨h, fun _ _ => rfl, rfl, rfl⟩

theorem refilled_put (h : b.Stores contents)
    (r : Region) (hother : ∀ r', r' ≠ r → contents' r' = contents r') :
    Refilled b (b.put r.slot (r.device (contents' r))) contents' where
  stores := by
    intro r'
    by_cases hr : r' = r
    · subst hr
      rw [device?_put_self (h r')]
    · rw [device?_put_of_ne b (fun hslot => hr (Region.slot_inj hslot).symm), h r', hother r' hr]
  other := fun slot hslot => device?_put_of_ne b (hslot r).symm _
  steady := ⟨rfl, rfl⟩

theorem refilled_clear (h : b.Stores contents)
    (r : Region) (hr : contents' r = (contents r).cleared)
    (hother : ∀ r', r' ≠ r → contents' r' = contents r') :
    Refilled b (b.update r.slot Device.cleared) contents' := by
  rw [update_eq_put (h r), Device.cleared_device, ← hr]
  exact refilled_put h r hother

theorem refilled_cleared (h : b.Stores contents) :
    Refilled b ((b.update romSlot Device.cleared).update ramSlot Device.cleared)
      (fun r => (contents r).cleared) := by
  -- Between the two steps only the ROM has been cleared.
  let half : Region → Storage := fun r => if r = .rom then (contents r).cleared else contents r
  have hrom : Refilled b (b.update romSlot Device.cleared) half :=
    refilled_clear h .rom (if_pos rfl) fun r hr => if_neg hr
  exact hrom.trans (refilled_clear hrom.stores .ram rfl fun r hr => by cases r <;> trivial)

end Bus

namespace Microcontroller

open Bus (Refilled)

variable {b : Bus ε} {contents : Region → Storage}

theorem writeOne_ok (h : b.Stores contents) (p : Placement)
    (hinside : (contents p.region).memory.InRange p.offset p.segment.data.size) :
    ∃ b', writeAll.writeOne p b = .ok () b' ∧ Refilled b b' (fun r => p.fill r (contents r)) := by
  have hprogram : Device.program p.offset p.segment.data (p.region.device (contents p.region))
      = .ok () (p.region.device (p.fill p.region (contents p.region)) : Device ε) := by
    rw [Device.program_device, if_pos hinside, Placement.fill, if_pos rfl]
  refine ⟨_, ?_, Bus.refilled_put h p.region fun r hr => if_neg (Ne.symm hr)⟩
  rw [writeAll.writeOne, Bus.visit_ok (h p.region) hprogram]

/-- Segments that lie inside their memories are all written, and nothing fails on the way. -/
theorem writeAll_ok (h : b.Stores contents) {placements : List Placement}
    (hinside : ∀ p ∈ placements,
      (contents p.region).memory.InRange p.offset p.segment.data.size) :
    ∃ b', writeAll placements b = .ok () b'
      ∧ Refilled b b' (fun r => (contents r).filled r placements) := by
  induction placements generalizing b contents with
  | nil => exact ⟨b, rfl, h, fun _ _ => rfl, .refl b⟩
  | cons p rest ih =>
      have hnote := Bus.refilled_note h (.segmentPlaced p.segment.base p.segment.data.size)
      obtain ⟨b₁, hone, hb₁⟩ :=
        writeOne_ok hnote.stores p (hinside p List.mem_cons_self)
      -- Writing keeps the sizes, so the rest still lies inside.
      obtain ⟨b₂, hrest, hb₂⟩ := ih hb₁.stores (fun q hq => by
        have hsize := Storage.size_fill q.region (contents q.region) p
        rw [Memory.InRange, hsize]
        exact hinside q (List.mem_cons_of_mem p hq))
      refine ⟨b₂, ?_, (hnote.trans hb₁).trans hb₂⟩
      rw [writeAll_cons, hone]
      exact hrest

end Microcontroller

/-! ## Contents -/

section Contents

variable {size : Region → Nat} {s : Segment}

/-- A segment that fits has data for bytes of its own memory alone. -/
theorem byteAt?_eq (hsize : ∀ r, size r ≤ regionRoom) (hfit : s.FitsIn (size .rom) (size .ram))
    {r : Region} {i : Nat} (hi : i < size r) :
    s.byteAt? (r.base.toNat + i)
      = if s.placed.region = r then
          if s.placed.offset.toNat ≤ i then s.data[i - s.placed.offset.toNat]? else none
        else none := by
  have hrombase : Region.rom.base.toNat = 0 := rfl
  have hrambase : Region.ram.base.toNat = 0x10000000 := rfl
  have hplaced : s.placed = ⟨s.region, s.base - s.region.base, s⟩ := rfl
  have hrom : size .rom ≤ 0x10000000 := hsize .rom
  rw [Segment.byteAt?, hplaced, toNat_offset]
  obtain ⟨hlow, hstop⟩ | ⟨hhigh, -, -⟩ := hfit
  · rw [region_of_lt hlow, hrombase, Nat.sub_zero]
    cases r with
    | rom => rw [if_pos rfl, hrombase, Nat.zero_add]
    | ram =>
        -- The data ends before the RAM begins.
        rw [if_neg (show ¬Region.rom = .ram from nofun), hrambase, if_pos (by omega),
          Array.getElem?_eq_none (by omega)]
  · rw [region_of_le hhigh, hrambase]
    cases r with
    | rom => rw [if_neg (show ¬Region.ram = .rom from nofun), hrombase, if_neg (by omega)]
    | ram =>
        have hplace : 0x10000000 + i - s.base.toNat = i - (s.base.toNat - 0x10000000) := by omega
        have hfrom : s.base.toNat ≤ 0x10000000 + i ↔ s.base.toNat - 0x10000000 ≤ i := by omega
        rw [if_pos rfl, hrambase, hplace]
        simp only [hfrom]

theorem getElem?_fill (hsize : ∀ r, size r ≤ regionRoom)
    (hfit : s.FitsIn (size .rom) (size .ram)) {r : Region} {t : Storage}
    (ht : t.memory.size = size r) {i : Nat} (hi : i < size r) :
    (s.placed.fill r t).memory.bytes[i]?
      = (s.byteAt? (r.base.toNat + i)).or t.memory.bytes[i]? := by
  rw [byteAt?_eq hsize hfit hi, Placement.fill]
  by_cases hr : s.placed.region = r
  · have hbytes : i < t.memory.bytes.size := Nat.lt_of_lt_of_eq hi ht.symm
    rw [if_pos hr, if_pos hr, Storage.programmed, getElem?_splice_or _ _ _ hbytes,
      Array.getElem?_toList]
    rfl
  · rw [if_neg hr, if_neg hr, Option.none_or]

/-- A byte after segments have been written is that of the last one with data for it. -/
theorem getElem?_filled (hsize : ∀ r, size r ≤ regionRoom) {segments : List Segment}
    (hfit : ∀ s ∈ segments, s.FitsIn (size .rom) (size .ram)) {r : Region} {t : Storage}
    (ht : t.memory.size = size r) {i : Nat} (hi : i < size r) :
    (t.filled r (segments.map Segment.placed)).memory.bytes[i]?
      = (Elf.lastByte? segments (r.base.toNat + i)).or t.memory.bytes[i]? := by
  induction segments generalizing t with
  | nil => rfl
  | cons s rest ih =>
      have hs := getElem?_fill hsize (hfit s List.mem_cons_self) ht hi
      have hrest := ih (fun q hq => hfit q (List.mem_cons_of_mem s hq))
        ((t.size_fill r s.placed).trans ht)
      rw [Elf.lastByte?_cons, Option.or_assoc, ← hs]
      exact hrest

end Contents

/-! ## Loading -/

namespace Microcontroller

/-- What a machine is after it has been given an image: its memories hold the bytes of the image,
and all else is as it was. -/
structure Loaded (m m' : Microcontroller ε) (image : Image) : Prop where
  romSize : m'.rom.size = m.rom.size
  ramSize : m'.ram.size = m.ram.size
  rom : ∀ i < m.rom.size, m'.rom.bytes[i]? = some (image.byteAt i)
  ram : ∀ i < m.ram.size, m'.ram.bytes[i]? = some (image.byteAt (0x10000000 + i))
  frame : m' = { m with hart := { m.hart with bus := m'.bus } }
  bus : Bus.Steady m.bus m'.bus
  devices : ∀ slot, slot ≠ romSlot → slot ≠ ramSlot → m'.bus.device? slot = m.bus.device? slot
  controller : m'.controller = m.controller
  housed : m'.Housed

/-- An image is loaded just if each of its segments fits, and otherwise nothing at all happens. -/
structure LoadsWholly (m : Microcontroller ε) (image : Image) : Prop where
  accepts : (∃ m', load image m = .ok () m')
    ↔ ∀ s ∈ image.segments, s.FitsIn m.rom.size m.ram.size
  loads : ∀ m', load image m = .ok () m' → Loaded m m' image
  refuses : ∀ e m', load image m = .error e m' → m' = m ∧ ∀ base cause, e ≠ .write base cause

section

variable {m : Microcontroller ε} {contents : Region → Storage} {image : Image}

theorem regionSize_eq (h : m.bus.Stores contents) (r : Region) :
    m.regionSize r = (contents r).memory.size := by
  cases r with
  | rom => exact congrArg Memory.size (memoryAt_eq (h .rom))
  | ram => exact congrArg Memory.size (memoryAt_eq (h .ram))

variable (h : m.bus.Stores contents) (hroom : ∀ r, (contents r).memory.size ≤ regionRoom)

include h hroom

theorem regionSize_le (r : Region) : m.regionSize r ≤ regionRoom := by
  rw [regionSize_eq h r]
  exact hroom r

/-- What the loader has accepted it writes. -/
theorem load_placed (hfit : ∀ s ∈ image.segments, s.FitsIn m.rom.size m.ram.size)
    (hplaced : image.segments.mapM (placement m.regionSize)
      = .ok (image.segments.map Segment.placed)) :
    ∃ b, load image m = .ok () { m with hart := { m.hart with bus := b } }
      ∧ Bus.Refilled m.bus b
          (fun r => (contents r).cleared.filled r (image.segments.map Segment.placed)) := by
  have hclear := Bus.refilled_cleared h
  have hinside : ∀ p ∈ image.segments.map Segment.placed,
      (contents p.region).cleared.memory.InRange p.offset p.segment.data.size := by
    intro p hp
    obtain ⟨s, hs, rfl⟩ := List.mem_map.mp hp
    have hbound := ((fitsIn_iff (regionSize_le h hroom)).mp (hfit s hs)).2
    have hcleared := (contents s.region).size_cleared
    -- The loader has measured the larger of data and memory.
    have hdata : s.data.size ≤ s.extent := Nat.le_max_left _ _
    rw [regionSize_eq h] at hbound
    show (s.base - s.region.base).toNat + s.data.size ≤ (contents s.region).cleared.memory.size
    omega
  obtain ⟨b, hwrite, hb⟩ := writeAll_ok hclear.stores hinside
  refine ⟨_, ?_, (hclear.trans hb).trans
    (Bus.refilled_note hb.stores (.imageLoaded image.segments.length image.entry))⟩
  rw [load, hplaced]
  simp only []
  rw [show m.hart.bus = m.bus from rfl, hwrite]

/-- A memory that has been cleared and filled holds the bytes of the image. -/
theorem getElem?_loaded (hfit : ∀ s ∈ image.segments, s.FitsIn m.rom.size m.ram.size)
    (r : Region) {i : Nat} (hi : i < m.regionSize r) :
    ((contents r).cleared.filled r (image.segments.map Segment.placed)).memory.bytes[i]?
      = some (image.byteAt (r.base.toNat + i)) := by
  have hsize : (contents r).cleared.memory.size = m.regionSize r :=
    (contents r).size_cleared.trans (regionSize_eq h r).symm
  have hzero : (contents r).cleared.memory.bytes[i]? = some 0 := by
    rw [regionSize_eq h] at hi
    exact Array.getElem?_replicate.trans (if_pos hi)
  rw [getElem?_filled (regionSize_le h hroom) hfit hsize hi, hzero, Option.or_some]
  rfl

theorem loaded_of_refilled (hfit : ∀ s ∈ image.segments, s.FitsIn m.rom.size m.ram.size)
    {b : Bus ε}
    (hb : Bus.Refilled m.bus b
      (fun r => (contents r).cleared.filled r (image.segments.map Segment.placed))) :
    Loaded m { m with hart := { m.hart with bus := b } } image := by
  let m' : Microcontroller ε := { m with hart := { m.hart with bus := b } }
  have hmemory : ∀ r : Region, m'.memoryAt r.slot
      = ((contents r).cleared.filled r (image.segments.map Segment.placed)).memory :=
    fun r => memoryAt_eq (hb.stores r)
  have hsize : ∀ r : Region, (m'.memoryAt r.slot).size = (contents r).memory.size := fun r => by
    rw [hmemory r]
    exact (Storage.size_filled r _ _).trans (contents r).size_cleared
  have hdevices : ∀ slot, slot ≠ romSlot → slot ≠ ramSlot →
      b.device? slot = m.bus.device? slot := fun slot hrom hram =>
    hb.other slot fun r => by cases r <;> assumption
  exact {
    romSize := (hsize .rom).trans (regionSize_eq h .rom).symm
    ramSize := (hsize .ram).trans (regionSize_eq h .ram).symm
    rom := fun i hi => by
      have hbyte := getElem?_loaded h hroom hfit .rom hi
      rw [← hmemory, show Region.rom.base.toNat = 0 from rfl, Nat.zero_add] at hbyte
      exact hbyte
    ram := fun i hi => by
      have hbyte := getElem?_loaded h hroom hfit .ram hi
      rw [← hmemory] at hbyte
      exact hbyte
    frame := rfl
    bus := hb.steady
    devices := hdevices
    controller := by
      have hcontroller := hdevices controllerSlot (by decide) (by decide)
      show (b.controller? controllerSlot).getD {} = (m.bus.controller? controllerSlot).getD {}
      rw [Bus.controller?, Bus.controller?, hcontroller]
    housed := fun r => ⟨_, hb.stores r, by
      have hkept := hsize r
      rw [hmemory r] at hkept
      exact Nat.le_trans (Nat.le_of_eq hkept) (hroom r)⟩ }

omit h hroom in
theorem Loaded.memory {m' : Microcontroller ε} (h : Loaded m m' image) (r : Region) :
    (m'.memoryAt r.slot).size = (m.memoryAt r.slot).size
      ∧ ∀ i < (m.memoryAt r.slot).size,
        (m'.memoryAt r.slot).bytes[i]? = some (image.byteAt (r.base.toNat + i)) := by
  cases r with
  | rom =>
      refine ⟨h.romSize, fun i hi => ?_⟩
      rw [show Region.rom.base.toNat = 0 from rfl, Nat.zero_add]
      exact h.rom i hi
  | ram => exact ⟨h.ramSize, h.ram⟩

omit h hroom in
theorem Housed.loadsWholly (h : m.Housed) (image : Image) : LoadsWholly m image := by
  choose contents hstores hroom using h
  obtain ⟨hfit, hplaced⟩ | ⟨hfit, e, hrefused, he⟩ :=
    placements_cases (regionSize_le hstores hroom) image.segments
  · obtain ⟨b, hload, hb⟩ := load_placed hstores hroom hfit hplaced
    refine ⟨⟨fun _ => hfit, fun _ => ⟨_, hload⟩⟩, fun m' hm' => ?_, fun e m' hm' => ?_⟩
    · rw [hload] at hm'
      cases hm'
      exact loaded_of_refilled hstores hroom hfit hb
    · rw [hload] at hm'
      cases hm'
  · have hload : load image m = .error e m := by rw [load, hrefused]
    refine ⟨⟨fun ⟨m', hm'⟩ => ?_, fun hall => absurd hall hfit⟩, fun m' hm' => ?_,
      fun e' m' hm' => ?_⟩
    · rw [hload] at hm'
      cases hm'
    · rw [hload] at hm'
      cases hm'
    · rw [hload] at hm'
      cases hm'
      exact ⟨rfl, fun base cause hwrite => by rw [hwrite] at he; exact he⟩

end

variable [Peripheral ε]

/-- Loading is all or nothing, and covers the memories completely. The memories of a machine are
at home in every run, and on every machine whose memories are at home, an image is loaded wholly
or not at all. -/
theorem load_all_or_nothing :
    (∀ (config : Config) (m : Microcontroller ε), new config = .ok m →
        ∀ calls, (m.run calls).Housed)
      ∧ ∀ m : Microcontroller ε, m.Housed → ∀ image, LoadsWholly m image :=
  ⟨fun _ _ hnew calls => (housed_new hnew).run calls, fun _ h image => h.loadsWholly image⟩

/-- The segment `base`, `base + 1` with two bytes of data. -/
def pairAt (base : Word) : Image :=
  ⟨0, [⟨1, base, 2, #[0x17, 0x2a]⟩]⟩

/-- A pair of bytes is loaded to the very end of the RAM, but not beyond it. -/
theorem load_all_or_nothing_end :
    ∃ m : Microcontroller Empty, new ⟨1, 1⟩ = .ok m
      ∧ (∃ m', load (pairAt 0x100003fe) m = .ok () m' ∧ m'.ram.bytes[1023]? = some 0x2a)
      ∧ ∃ e, load (pairAt 0x100003ff) m = .error e m := by
  have hfits : Config.Fits ⟨1, 1⟩ := fun r => by cases r <;> decide
  obtain ⟨m, hnew, -⟩ := exists_new (ε := Empty) hfits
  obtain ⟨hrun, hload⟩ := load_all_or_nothing (ε := Empty)
  have hhoused : m.Housed := hrun _ m hnew []
  have hrom : m.rom.size = 1024 := size_new hnew .rom
  have hram : m.ram.size = 1024 := size_new hnew .ram
  refine ⟨m, hnew, ?_, ?_⟩
  · have hwhole := hload m hhoused (pairAt 0x100003fe)
    obtain ⟨m', hm'⟩ := hwhole.accepts.mpr (by rw [hrom, hram]; decide)
    refine ⟨m', hm', ?_⟩
    rw [(hwhole.loads m' hm').ram 1023 (by omega)]
    rfl
  · have hwhole := hload m hhoused (pairAt 0x100003ff)
    have hover : ¬∀ s ∈ (pairAt 0x100003ff).segments, s.FitsIn m.rom.size m.ram.size := by
      rw [hrom, hram]
      decide
    cases hm' : load (pairAt 0x100003ff) m with
    | ok u m' => exact absurd (hwhole.accepts.mp ⟨m', hm'⟩) hover
    | error e m' => exact ⟨e, by rw [(hwhole.refuses e m' hm').1]⟩

end Microcontroller

end Rv32Soc
