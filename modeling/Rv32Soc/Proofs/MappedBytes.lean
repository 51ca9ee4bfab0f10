import Rv32Soc.Proofs.Footprints

/-!
# Bytes of memories at their addresses

Beside its memories a bus may carry other devices, and a memory may be seen
in several windows. Still the address of a byte says all about it: two
addresses are of the same byte just if the bus routes them to the same place,
and an aligned access is about as many bytes in a row of one memory as it is
wide. So a load can be told from the bytes at its addresses, and a store by
the bytes that it leaves at them and at no others.

What keeps a value where it has been stored is told of the places and not of
the addresses: no store that has succeeded since was routed to one of them.
-/

namespace Rv32Soc

/-- The number that the bytes at an address and behind it make. -/
def FlatMemory.valueAt (m : FlatMemory) (w : Width) (address : Word) : BitVec w.bits :=
  BitVec.ofNat w.bits (littleEndian (m.bytesAt address w.bytes))

theorem assemble_congr {row row' : Array Byte} {start n : Nat}
    (h : ∀ i, i < n → row'[start + i]? = row[start + i]?) :
    assemble row' start n = assemble row start n := by
  apply eq_of_byteOf
  intro i hi
  rw [byteOf_assemble _ _ hi, byteOf_assemble _ _ hi, Array.getD_eq_getD_getElem?, h i hi,
    Array.getD_eq_getD_getElem?]

variable {ε : Type}

theorem Device.eq_ram_of_cell? {d : Device ε} {s : Storage} {place : Nat} {c : Cell}
    (hs : d.storage? = some s) (hc : d.cell? place = some c) (hwritable : c.writable = true) :
    d = .ram s := by
  cases d with
  | ram t =>
      cases hs
      rfl
  | rom t =>
      cases hc
      cases hwritable
  | timer t | controller c | external e => cases hs

theorem Device.storage?_of_cell? {d : Device ε} {place : Nat} {c : Cell}
    (hc : d.cell? place = some c) : ∃ s, d.storage? = some s := by
  cases d with
  | ram s | rom s => exact ⟨s, rfl⟩
  | timer t | controller c | external e => cases hc

/-- Reading makes no bytes visible and hides none. -/
theorem Device.cell?_read [Peripheral ε] (w : Width) (offset : Word) (d : Device ε)
    (place : Nat) :
    Device.cell? place (stateAfter (Device.read w offset d)) = Device.cell? place d := by
  obtain hsame | ⟨e, e', rfl, hafter⟩ := read_leaves w offset d
  · rw [hsame]
  · rw [hafter]
    rfl

/-- The number of bytes of a memory. -/
def Device.room? (d : Device ε) : Option Nat :=
  d.storage?.map fun s => s.memory.size

theorem Device.lawful_room [Peripheral ε] :
    Device.Lawful fun d d' : Device ε => d'.room? = d.room? where
  refl _ := rfl
  trans h₁ h₂ := h₂.trans h₁
  read w offset d := by
    obtain hsame | ⟨e, e', rfl, hafter⟩ := read_leaves w offset d
    · rw [hsame]
    · rw [hafter]
      rfl
  write w offset value d := by
    cases d with
    | ram s =>
        cases hwrite : Device.write w offset value (.ram s : Device ε) with
        | ok told d' =>
            obtain ⟨t, ht, -, -, rfl⟩ := (write_memory_eq_ok rfl).mp hwrite
            cases ht
            exact congrArg some (Storage.size_written _ _ _ _)
        | error e d' => rw [stateAfter_error, write_memory_eq_error rfl hwrite]
    | rom s => rfl
    | timer t | controller c =>
        cases w with
        | word =>
            simp only [Device.write]
            split <;> rfl
        | byte | halfword => rfl
    | external e =>
        simp only [Device.write]
        split <;> rfl
  acknowledge d := by cases d <;> rfl
  tick _ := rfl
  poll _ _ := rfl
  turn _ _ := rfl

namespace Bus

/-! ## Buses as they are set up -/

/-- The windows are laid out as they must be, there is a device behind each, and a memory is as
large as its windows are. -/
structure Sound (b : Bus ε) : Prop where
  laid : Laid b.windows
  sized : ∀ w ∈ b.windows, ∃ d, b.device? w.slot = some d
    ∧ ∀ s, d.storage? = some s → s.memory.size = w.bytes

theorem sound_setUp [Peripheral ε] {calls : List (Setup ε)}
    (hsizes : ∀ d s, .install d ∈ calls → d.storage? = some s →
      s.memory.size = s.pages.toNat * pageSize) : (setUp calls).Sound where
  laid := laid_setUp calls
  sized w hw := by
    obtain ⟨d, hd, hpages⟩ := occupied_setUp calls w hw
    refine ⟨d, hd, fun s hs => ?_⟩
    rw [hsizes d s (install_mem_of_device? hd) hs, Window.bytes, ← hpages,
      Device.pages_of_storage? hs]

theorem Sound.of_evolves {b b' : Bus ε} (h : b.Sound) (hwindows : b'.windows = b.windows)
    (hevolves : Evolves (fun d d' : Device ε => d'.room? = d.room?) b b') : b'.Sound where
  laid := hwindows ▸ h.laid
  sized w hw := by
    rw [hwindows] at hw
    obtain ⟨d, hd, hsize⟩ := h.sized w hw
    obtain ⟨d', hd', hroom⟩ := hevolves.device hd
    refine ⟨d', hd', fun s' hs' => ?_⟩
    simp only [Device.room?, hs', Option.map_some] at hroom
    obtain ⟨s, hs, heq⟩ := Option.map_eq_some_iff.mp hroom.symm
    rw [← heq, hsize s hs]

/-! ## Places -/

theorem flat_eq_route {b : Bus ε} (h : Laid b.windows) (address : Word) :
    b.flat address = (b.route address).bind fun place =>
      (b.device? place.1).bind (Device.cell? place.2.toNat) := by
  obtain hnone | ⟨w, hw, ha⟩ := unmapped_or_held b address
  · rw [flat_of_unheld hnone, (route_eq_none h).mpr hnone]
    rfl
  · rw [flat_of_holds h hw ha, route_of_holds h hw ha]
    rfl

theorem flat_of_route {b : Bus ε} (h : Laid b.windows) {address : Word} {slot : Nat} {offset : Word}
    {d : Device ε} (hroute : b.route address = some (slot, offset))
    (hd : b.device? slot = some d) : b.flat address = d.cell? offset.toNat := by
  rw [flat_eq_route h, hroute, Option.bind_some, hd, Option.bind_some]

/-- An aligned access leads to bytes of a memory. -/
structure Located (b : Bus ε) (width : Width) (address : Word) (slot : Nat) (offset : Word)
    (d : Device ε) (s : Storage) : Prop where
  aligned : width.Aligned address
  route : b.route address = some (slot, offset)
  device : b.device? slot = some d
  storage : d.storage? = some s
  inside : s.memory.InRange offset width.bytes

/-- An access to the byte of a memory is an access to the memory, all of it. -/
theorem Sound.located {b : Bus ε} (h : b.Sound) {width : Width} {address : Word}
    (haligned : width.Aligned address) {c : Cell} (hc : b.flat address = some c) :
    ∃ slot offset d s, b.Located width address slot offset d s
      ∧ d.cell? offset.toNat = some c := by
  obtain hnone | ⟨w, hw, ha⟩ := unmapped_or_held b address
  · rw [flat_of_unheld hnone] at hc
    cases hc
  · obtain ⟨d, hd, hsize⟩ := h.sized w hw
    rw [flat_of_holds h.laid hw ha, hd, Option.bind_some] at hc
    obtain ⟨s, hs⟩ := Device.storage?_of_cell? hc
    exact ⟨w.slot, address - w.base, d, s, ⟨haligned, route_of_holds h.laid hw ha, hd, hs,
      (h.laid.placed w hw).inRange ha haligned (hsize s hs)⟩, hc⟩

section Located

variable {b b' : Bus ε} {width : Width} {address : Word} {slot : Nat} {offset : Word}
  {d : Device ε} {s : Storage}

theorem Located.of_keepsMemories (h : b.Located width address slot offset d s)
    (hwindows : b'.windows = b.windows) (hkept : KeepsMemories b b') :
    b'.Located width address slot offset d s where
  aligned := h.aligned
  route := (route_of_windows hwindows address).trans h.route
  device := hkept slot d h.device (by rw [h.storage]; rfl)
  storage := h.storage
  inside := h.inside

theorem Located.valueAt (h : b.Located width address slot offset d s) (hlaid : Laid b.windows) :
    assemble s.memory.bytes offset.toNat width.bytes = b.flat.valueAt width address := by
  rw [assemble_eq_ofNat, FlatMemory.valueAt, FlatMemory.bytesAt]
  refine congrArg (fun bytes => BitVec.ofNat _ (littleEndian bytes)) (List.map_congr_left ?_)
  intro i hi
  obtain ⟨place, hroute, hplace⟩ := route_add h.route h.aligned (List.mem_range.mp hi)
  rw [flat_of_route hlaid hroute h.device, Device.byte_cell? h.storage, hplace, Option.getD_some]

/-- The places of an access, by the addresses that lead to them. -/
theorem Located.route_eq_iff (h : b.Located width address slot offset d s) {a place : Word}
    (ha : b.route a = some (slot, place)) {k : Nat} (hk : k < width.bytes) :
    b.route a = b.route (address + BitVec.ofNat 32 k) ↔ place.toNat = offset.toNat + k := by
  obtain ⟨spot, hroute, hspot⟩ := route_add h.route h.aligned hk
  rw [ha, hroute, Option.some_inj, Prod.mk.injEq, and_iff_right rfl, ← hspot, BitVec.toNat_inj]

variable [Peripheral ε]

theorem Located.load (h : b.Located width address slot offset d s) :
    Bus.load width address b = .ok (assemble s.memory.bytes offset.toNat width.bytes) b :=
  load_eq_ok.mpr ⟨h.aligned, slot, offset, d, d, h.route, h.device,
    Device.read_memory h.storage h.inside, (put_self h.device).symm⟩

end Located

/-! ## Bytes after an access -/

theorem flat_of_slots {b b' : Bus ε} (hwindows : b'.windows = b.windows)
    (hslots : b'.slots = b.slots) : b'.flat = b.flat := by
  funext a
  simp only [flat, device?, hwindows, hslots]

theorem flat_put {b : Bus ε} {slot : Nat} {d d' : Device ε} (hd : b.device? slot = some d)
    (hcells : ∀ place, Device.cell? place d' = Device.cell? place d) :
    (b.put slot d').flat = b.flat := by
  funext a
  refine congrArg (b.windows.find? _).bind (funext fun w => ?_)
  by_cases hslot : slot = w.slot
  · subst hslot
    rw [device?_put_self hd, hd]
    exact hcells _
  · rw [device?_put_of_ne b hslot]

/-- A load changes no byte, wherever it leads. -/
theorem flat_load [Peripheral ε] (width : Width) (address : Word) (b : Bus ε) :
    (stateAfter (Bus.load width address b)).flat = b.flat := by
  obtain hsame | ⟨slot, offset, d, hd, hput⟩ := load_leaves width address b
  · rw [hsame]
  · rw [hput]
    exact flat_put hd (Device.cell?_read width offset d)

/-- The bytes of a number are at an address and behind it, and all other bytes are as before. A
byte may have other addresses, too. -/
structure Overlaid (b : Bus ε) (width : Width) (address : Word) (value : BitVec width.bits)
    (b' : Bus ε) : Prop where
  windows : b'.windows = b.windows
  inside : ∀ a k, k < width.bytes → b.route a = b.route (address + BitVec.ofNat 32 k) →
    b'.flat a = some ⟨byteOf value k, true⟩
  outside : ∀ a, (∀ k, k < width.bytes → b.route a ≠ b.route (address + BitVec.ofNat 32 k)) →
    b'.flat a = b.flat a

/-- It does not matter what else has happened to the bus before the store. -/
theorem Overlaid.of_flat {b b₁ b' : Bus ε} {width : Width} {address : Word}
    {value : BitVec width.bits} (h : b₁.Overlaid width address value b')
    (hwindows : b₁.windows = b.windows) (hflat : b₁.flat = b.flat) :
    b.Overlaid width address value b' where
  windows := h.windows.trans hwindows
  inside a k hk ha := by
    simp only [← route_of_windows hwindows] at ha
    exact h.inside a k hk ha
  outside a houtside := by
    simp only [← route_of_windows hwindows] at houtside
    rw [h.outside a houtside, hflat]

theorem loseReservation_slots (b : Bus ε) (address : Word) :
    (b.loseReservation address).slots = b.slots := by
  unfold loseReservation
  split <;> rfl

theorem Located.overlaid {b : Bus ε} {width : Width} {address : Word} {slot : Nat}
    {offset : Word} {s : Storage} (h : b.Located width address slot offset (.ram s) s)
    (hlaid : Laid b.windows) (value : BitVec width.bits) :
    b.Overlaid width address value
      ((b.put slot (.ram (s.written width offset value))).loseReservation address) := by
  have hflat := flat_of_slots (loseReservation_windows
    (b.put slot (.ram (s.written width offset value))) address) (loseReservation_slots _ address)
  have hwritten := device?_put_self (e := .ram (s.written width offset value)) h.device
  have hlaid' : Laid (b.put slot (.ram (s.written width offset value))).windows := hlaid
  have hroutes : (b.put slot (.ram (s.written width offset value))).route = b.route := rfl
  refine ⟨loseReservation_windows _ address, ?_, ?_⟩
  · intro a k hk ha
    obtain ⟨place, hroute, hplace⟩ := route_add h.route h.aligned hk
    rw [hflat, flat_of_route hlaid' (ha.trans hroute) hwritten, Device.cell?_written h.inside,
      if_pos (by omega), hplace, Nat.add_sub_cancel_left]
  · intro a houtside
    rw [hflat, flat_eq_route hlaid', flat_eq_route hlaid, hroutes]
    cases hroute : b.route a with
    | none => rfl
    | some spot =>
        obtain ⟨other, place⟩ := spot
        by_cases hslot : slot = other
        · subst hslot
          rw [Option.bind_some, Option.bind_some, hwritten, h.device, Option.bind_some,
            Option.bind_some, Device.cell?_written h.inside, if_neg]
          rintro ⟨hfrom, hto⟩
          simp only [] at hfrom hto
          have hk : place.toNat - offset.toNat < width.bytes := by omega
          exact houtside _ hk ((h.route_eq_iff hroute hk).mpr (by omega))
        · rw [Option.bind_some, Option.bind_some, device?_put_of_ne b hslot]

/-- A RAM takes every store to it. -/
theorem Located.exists_store [Peripheral ε] {b : Bus ε} {width : Width} {address : Word}
    {slot : Nat} {offset : Word} {s : Storage}
    (h : b.Located width address slot offset (.ram s) s) (hlaid : Laid b.windows)
    (value : BitVec width.bits) :
    ∃ b', Bus.store width address value b = .ok () b' ∧ b.Overlaid width address value b' :=
  ⟨_, store_eq_ok.mpr ⟨h.aligned, slot, offset, .ram s, [], _, h.route, h.device,
    (Device.write_memory_eq_ok rfl).mpr ⟨s, rfl, h.inside, rfl, rfl⟩, rfl⟩,
    h.overlaid hlaid value⟩

/-! ## Values that stay -/

/-- None of the bytes of an access is one of the bytes at an address. -/
def Misses (b : Bus ε) (access : Width × Word) (width : Width) (address : Word) : Prop :=
  ∀ j, j < access.1.bytes → ∀ k, k < width.bytes →
    b.route (access.2 + BitVec.ofNat 32 j) ≠ b.route (address + BitVec.ofNat 32 k)

/-- A number is in the bytes of a memory that are at an address. -/
def Contains (b : Bus ε) (width : Width) (address : Word) (value : BitVec width.bits) : Prop :=
  ∃ slot offset d s, b.Located width address slot offset d s
    ∧ assemble s.memory.bytes offset.toNat width.bytes = value

section Contains

variable {b b' : Bus ε} {width : Width} {address : Word} {value : BitVec width.bits}

theorem Contains.of_keepsMemories (h : b.Contains width address value)
    (hwindows : b'.windows = b.windows) (hkept : KeepsMemories b b') :
    b'.Contains width address value := by
  obtain ⟨slot, offset, d, s, hlocated, hvalue⟩ := h
  exact ⟨slot, offset, d, s, hlocated.of_keepsMemories hwindows hkept, hvalue⟩

theorem Contains.of_confined (h : b.Contains width address value)
    {access? : Option (Width × Word)} (hconfined : Confined access? b b')
    (hmisses : ∀ access ∈ access?, b.Misses access width address) :
    b'.Contains width address value := by
  obtain ⟨slot, offset, d, s, hlocated, hvalue⟩ := h
  have hroute := (route_of_windows hconfined.windows address).trans hlocated.route
  cases d with
  | rom t =>
      cases hlocated.storage
      exact ⟨slot, offset, _, s, ⟨hlocated.aligned, hroute, hconfined.rom slot s hlocated.device,
        rfl, hlocated.inside⟩, hvalue⟩
  | ram t =>
      cases hlocated.storage
      obtain ⟨s', hs', -, hsize, hbytes⟩ := hconfined.ram slot s hlocated.device
      refine ⟨slot, offset, _, s', ⟨hlocated.aligned, hroute, hs', rfl, ?_⟩, ?_⟩
      · rw [Memory.InRange, hsize]
        exact hlocated.inside
      · rw [← hvalue]
        refine assemble_congr fun i hi => hbytes _ ?_
        rintro ⟨other, place, j, spot, haccess, hj, hspot, heq⟩
        refine hmisses _ haccess j hj i hi ?_
        exact (hlocated.route_eq_iff hspot hi).mpr heq
  | timer t | controller c | external e => cases hlocated.storage

variable [Peripheral ε]

theorem Contains.load (h : b.Contains width address value) :
    Bus.load width address b = .ok value b := by
  obtain ⟨slot, offset, d, s, hlocated, rfl⟩ := h
  exact hlocated.load

/-- A store to a memory has put its number there. -/
theorem contains_of_store (hstore : Bus.store width address value b = .ok () b')
    (hmemory : ∃ slot offset d s, b.Located width address slot offset d s) :
    b'.Contains width address value := by
  obtain ⟨slot, offset, d, s, hlocated⟩ := hmemory
  obtain ⟨other, place, hroute, hmemories⟩ := store_memories hstore
  rw [hlocated.route] at hroute
  cases hroute
  have hwritten := hmemories slot d hlocated.device (by rw [hlocated.storage]; rfl)
  rw [if_pos rfl] at hwritten
  obtain ⟨t, rfl, hinside, hwritten⟩ := hwritten
  have hroute := (route_of_windows (store_windows hstore) address).trans hlocated.route
  exact ⟨slot, offset, _, _, ⟨hlocated.aligned, hroute, hwritten, rfl,
    Storage.inRange_written.mpr hinside⟩, assemble_splice value hinside⟩

end Contains

/-- After some stores a value is still at its address, unless one of them was to a byte of it. -/
structure Retains (width : Width) (address : Word) (b : Bus ε) (stores : List (Width × Word))
    (b' : Bus ε) : Prop where
  windows : b'.windows = b.windows
  value : ∀ value, (∀ access ∈ stores, b.Misses access width address) →
    b.Contains width address value → b'.Contains width address value

section Retains

variable {width : Width} {address : Word} {b b₁ b₂ b₃ b' : Bus ε}

theorem misses_of_windows (h : b'.windows = b.windows) {access : Width × Word} :
    b'.Misses access width address ↔ b.Misses access width address := by
  simp only [Misses, route_of_windows h]

theorem retains_of_confined {access? : Option (Width × Word)} (h : Confined access? b b') :
    Retains width address b access?.toList b' :=
  ⟨h.windows, fun _ hmisses hcontains =>
    hcontains.of_confined h fun access haccess => hmisses access (Option.mem_toList.mpr haccess)⟩

theorem retains_of_kept (hwindows : b'.windows = b.windows) (hkept : KeepsMemories b b') :
    Retains width address b [] b' := by
  have hconfined : Confined none b b' := confined_of_kept hwindows hkept
  exact retains_of_confined hconfined

theorem Retains.append {xs ys : List (Width × Word)} (h₁ : Retains width address b₁ xs b₂)
    (h₂ : Retains width address b₂ ys b₃) : Retains width address b₁ (xs ++ ys) b₃ where
  windows := h₂.windows.trans h₁.windows
  value value hmisses hcontains := by
    refine h₂.value value (fun access haccess => ?_) (h₁.value value (fun access haccess => ?_)
      hcontains)
    · exact (misses_of_windows h₁.windows).mpr (hmisses access (List.mem_append_right xs haccess))
    · exact hmisses access (List.mem_append_left ys haccess)

end Retains

end Bus

end Rv32Soc
