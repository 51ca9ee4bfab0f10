import Mathlib.Data.List.Nodup
import Rv32Soc.Proofs.Accesses
import Rv32Soc.Proofs.AddressSpace

/-!
# The bus as one flat memory

With nothing but memories on it the bus is one partial map from addresses to
bytes. Of pages, windows, masks and offsets nothing is left to see: an access
is misaligned, or its address is in no window, or it is about the bytes at the
address and behind it. Bytes of a ROM cannot be stored to.

The flat memory is a program of its own, about addresses and bytes only, and
the bus is compared with it access by access.
-/

namespace Rv32Soc

/-! ## Flat memories -/

/-- A byte of a memory, and whether stores may change it. -/
structure Cell where
  byte : Byte
  writable : Bool

/-- The bytes at the addresses that are mapped. -/
abbrev FlatMemory := Word → Option Cell

/-- The number that some bytes make, the lowest first. -/
def littleEndian : List Byte → Nat
  | [] => 0
  | b :: rest => b.toNat + 256 * littleEndian rest

namespace FlatMemory

/-- The `n` bytes from an address on; where there is no cell the byte reads as zero. -/
def bytesAt (m : FlatMemory) (address : Word) (n : Nat) : List Byte :=
  (List.range n).map fun i => ((m (address + BitVec.ofNat 32 i)).map Cell.byte).getD 0

/-- Load a number. The cell at the address decides whether there is anything to load. -/
def load (w : Width) (address : Word) : EStateM AddressTrap FlatMemory (BitVec w.bits) := fun m =>
  if w.Aligned address then
    match m address with
    | none => .error ⟨.loadAccessFault, address⟩ m
    | some _ => .ok (BitVec.ofNat w.bits (littleEndian (m.bytesAt address w.bytes))) m
  else .error ⟨.loadMisaligned, address⟩ m

/-- Fetch an instruction word. This is a load with faults of its own. -/
def fetch (address : Word) : EStateM AddressTrap FlatMemory Word := fun m =>
  if Width.Aligned .word address then
    match m address with
    | none => .error ⟨.instructionAccessFault, address⟩ m
    | some _ => .ok (BitVec.ofNat 32 (littleEndian (m.bytesAt address 4))) m
  else .error ⟨.instructionMisaligned, address⟩ m

/-- The memory with the bytes of a number at an address and behind it. -/
def write (m : FlatMemory) (w : Width) (address : Word) (value : BitVec w.bits) : FlatMemory :=
  fun a =>
    if (a - address).toNat < w.bytes then
      (m a).map fun c => { c with byte := byteOf value (a - address).toNat }
    else m a

/-- Store a number. The cell at the address decides whether that is allowed. -/
def store (w : Width) (address : Word) (value : BitVec w.bits) :
    EStateM AddressTrap FlatMemory Unit := fun m =>
  if w.Aligned address then
    match m address with
    | none => .error ⟨.storeAccessFault, address⟩ m
    | some c =>
        if c.writable then .ok () (m.write w address value)
        else .error ⟨.storeAccessFault, address⟩ m
  else .error ⟨.storeMisaligned, address⟩ m

end FlatMemory

/-- The result with the state seen through a function. -/
def mapState {ε σ τ α : Type} (f : σ → τ) : EStateM.Result ε σ α → EStateM.Result ε τ α
  | .ok a s => .ok a (f s)
  | .error e s => .error e (f s)

theorem stateAfter_mapState {σ τ α ρ : Type} (f : σ → τ) (r : EStateM.Result ρ σ α) :
    stateAfter (mapState f r) = f (stateAfter r) := by
  cases r <;> rfl

theorem toNat_assemble (row : Array Byte) (start n : Nat) :
    (assemble row start n).toNat
      = littleEndian ((List.range n).map fun i => row.getD (start + i) 0) := by
  induction n generalizing start with
  | zero => rfl
  | succ n ih =>
      have hlow : (row.getD start 0).toNat < 2 ^ 8 := BitVec.isLt _
      rw [assemble, BitVec.toNat_append, ← Nat.shiftLeft_add_eq_or_of_lt hlow, ih,
        Nat.shiftLeft_eq, List.range_succ_eq_map, List.map_cons, littleEndian, List.map_map]
      have hplace : ∀ i, start + 1 + i = start + (i + 1) := fun i => by omega
      simp only [hplace, Function.comp_def, Nat.add_zero, Nat.succ_eq_add_one]
      omega

theorem assemble_eq_ofNat (row : Array Byte) (start n : Nat) :
    assemble row start n
      = BitVec.ofNat (8 * n) (littleEndian ((List.range n).map fun i => row.getD (start + i) 0)) := by
  rw [← toNat_assemble, BitVec.ofNat_toNat, BitVec.setWidth_eq]

theorem Window.Placed.access_le {w : Window} (h : w.Placed) {address : Word}
    (ha : w.Holds address) {width : Width} (haligned : width.Aligned address) :
    address.toNat + width.bytes ≤ w.base.toNat + w.bytes := by
  obtain ⟨pages, hbase⟩ := h.pageSize_dvd
  obtain ⟨hfrom, hto⟩ := ha
  simp only [Window.bytes, pageSize] at hbase hto ⊢
  cases width <;> simp only [Width.Aligned, Width.bytes] at haligned ⊢ <;> omega

/-- An aligned access does not reach beyond the memory behind the window. -/
theorem Window.Placed.inRange {w : Window} (h : w.Placed) {address : Word}
    (ha : w.Holds address) {width : Width} (haligned : width.Aligned address) {s : Storage}
    (hsize : s.memory.size = w.bytes) : s.memory.InRange (address - w.base) width.bytes := by
  have hend := h.access_le ha haligned
  have hfrom := ha.1
  rw [Memory.InRange, BitVec.toNat_sub_of_le hfrom, hsize]
  omega

theorem toNat_add_ofNat {address : Word} {i : Nat} (h : address.toNat + i < wordCount) :
    (address + BitVec.ofNat 32 i).toNat = address.toNat + i := by
  simp only [wordCount] at h
  rw [BitVec.toNat_add, BitVec.toNat_ofNat]
  omega

/-- An address is one of the `n` from another one on if it is less than `n` away. -/
theorem toNat_sub_lt_iff {a address : Word} {n : Nat} (h : address.toNat + n ≤ wordCount) :
    (a - address).toNat < n ↔ address.toNat ≤ a.toNat ∧ a.toNat < address.toNat + n := by
  have ha : a.toNat < 2 ^ 32 := a.isLt
  simp only [wordCount] at h
  rw [BitVec.toNat_sub]
  omega

variable {ε : Type}

/-! ## A bus seen as a flat memory -/

/-- The cell that the byte of a memory at a place makes. -/
def Device.cell? (place : Nat) : Device ε → Option Cell
  | ram s => some ⟨s.memory.bytes.getD place 0, true⟩
  | rom s => some ⟨s.memory.bytes.getD place 0, false⟩
  | _ => none

theorem Device.byte_cell? {d : Device ε} {s : Storage} (hd : d.storage? = some s) (place : Nat) :
    (d.cell? place).map Cell.byte = some (s.memory.bytes.getD place 0) := by
  cases d with
  | ram t | rom t =>
      cases hd
      rfl
  | timer t | controller c | external e => cases hd

theorem Device.cell?_written {s : Storage} {width : Width} {start : Word} {value : BitVec width.bits}
    (hinside : s.memory.InRange start width.bytes) (place : Nat) :
    Device.cell? place (.ram (s.written width start value) : Device ε)
      = if start.toNat ≤ place ∧ place < start.toNat + width.bytes then
          some ⟨byteOf value (place - start.toNat), true⟩
        else Device.cell? place (.ram s : Device ε) := by
  have hbyte := getElem?_splice_disassemble value hinside place
  simp only [Device.cell?, Storage.written, Array.getD_eq_getD_getElem?, hbyte]
  split <;> rfl

/-- The same by addresses: of an address in the window the store has written the byte if the
address is less than the width away. -/
theorem Device.cell?_written_at {w : Window} {s : Storage} {a address : Word} {width : Width}
    {value : BitVec width.bits} (ha : w.Holds address) (hwa : w.Holds a)
    (hnear : (a - address).toNat < width.bytes
      ↔ address.toNat ≤ a.toNat ∧ a.toNat < address.toNat + width.bytes)
    (hinside : s.memory.InRange (address - w.base) width.bytes) :
    Device.cell? (a - w.base).toNat
        (.ram (s.written width (address - w.base) value) : Device ε)
      = if (a - address).toNat < width.bytes then
          (Device.cell? (a - w.base).toNat (.ram s : Device ε)).map fun c =>
            { c with byte := byteOf value (a - address).toNat }
        else Device.cell? (a - w.base).toNat (.ram s : Device ε) := by
  have hplace : (a - w.base).toNat = a.toNat - w.base.toNat := BitVec.toNat_sub_of_le hwa.1
  have hstart : (address - w.base).toNat = address.toNat - w.base.toNat :=
    BitVec.toNat_sub_of_le ha.1
  have hfrom := hwa.1
  have hfrom' := ha.1
  rw [cell?_written hinside]
  by_cases hin : (a - address).toNat < width.bytes
  · have hdistance : (a - address).toNat = a.toNat - address.toNat :=
      BitVec.toNat_sub_of_le (hnear.mp hin).1
    have hindex : (a - w.base).toNat - (address - w.base).toNat = (a - address).toNat := by
      omega
    rw [if_pos hin, if_pos (by omega), hindex]
    rfl
  · rw [if_neg hin, if_neg (by omega)]

namespace Bus

/-- The bytes of the memories at their addresses. -/
def flat (b : Bus ε) : FlatMemory := fun address =>
  (b.windows.find? fun w => w.Holds address).bind fun w =>
    (b.device? w.slot).bind (Device.cell? (address - w.base).toNat)

/-- On the bus are memories only, each of the size of its window and in one window. -/
structure Furnished (b : Bus ε) : Prop where
  laid : Laid b.windows
  memory : ∀ w ∈ b.windows, ∃ d s, b.device? w.slot = some d ∧ d.storage? = some s
    ∧ s.memory.size = w.bytes
  once : ∀ v ∈ b.windows, ∀ w ∈ b.windows, v.slot = w.slot → v = w

section Flat

variable {b : Bus ε} {w : Window} {address : Word}

theorem flat_of_holds (h : Laid b.windows) (hw : w ∈ b.windows) (ha : w.Holds address) :
    b.flat address = (b.device? w.slot).bind (Device.cell? (address - w.base).toNat) := by
  have hfind : b.windows.find? (fun v => v.Holds address) = some w := by
    cases hfind : b.windows.find? (fun v => v.Holds address) with
    | none =>
        have hnot := List.find?_eq_none.mp hfind w hw
        exact absurd (decide_eq_true ha) hnot
    | some v =>
        have hv := List.mem_of_find?_eq_some hfind
        have hva := List.find?_some hfind
        rw [h.eq_of_holds hv hw (of_decide_eq_true hva) ha]
  rw [flat, hfind, Option.bind_some]

theorem flat_of_unheld (ha : ∀ w ∈ b.windows, ¬w.Holds address) : b.flat address = none := by
  have hfind : b.windows.find? (fun v => v.Holds address) = none := by
    apply List.find?_eq_none.mpr
    intro w hw hholds
    exact ha w hw (of_decide_eq_true hholds)
  rw [flat, hfind, Option.bind_none]

/-- The bytes behind an aligned address are consecutive bytes of one memory. -/
theorem Furnished.bytesAt (h : b.Furnished) (hw : w ∈ b.windows) (ha : w.Holds address)
    {width : Width} (haligned : width.Aligned address) {d : Device ε} {s : Storage}
    (hd : b.device? w.slot = some d) (hs : d.storage? = some s) :
    b.flat.bytesAt address width.bytes = (List.range width.bytes).map fun i =>
      s.memory.bytes.getD ((address - w.base).toNat + i) 0 := by
  apply List.map_congr_left
  intro i hi
  have hlt := List.mem_range.mp hi
  have hplaced := h.laid.placed w hw
  have hend := hplaced.access_le ha haligned
  have hinside := hplaced.inside
  have hsum : (address + BitVec.ofNat 32 i).toNat = address.toNat + i :=
    toNat_add_ofNat (by omega)
  have hfrom := ha.1
  have hholds : w.Holds (address + BitVec.ofNat 32 i) := by
    rw [Window.Holds, hsum]
    omega
  have hplace : (address + BitVec.ofNat 32 i - w.base).toNat = (address - w.base).toNat + i := by
    rw [BitVec.toNat_sub_of_le hholds.1, hsum, BitVec.toNat_sub_of_le hfrom]
    omega
  rw [flat_of_holds h.laid hw hholds, hd, Option.bind_some, hplace, Device.byte_cell? hs,
    Option.getD_some]

theorem Furnished.inRange (h : b.Furnished) (hw : w ∈ b.windows) (ha : w.Holds address)
    {width : Width} (haligned : width.Aligned address) {d : Device ε} {s : Storage}
    (hd : b.device? w.slot = some d) (hs : d.storage? = some s) :
    s.memory.InRange (address - w.base) width.bytes := by
  obtain ⟨e, t, he, ht, hsize⟩ := h.memory w hw
  rw [hd] at he
  cases he
  rw [hs] at ht
  cases ht
  exact (h.laid.placed w hw).inRange ha haligned hsize

theorem unmapped_or_held (b : Bus ε) (address : Word) :
    (∀ w ∈ b.windows, ¬w.Holds address) ∨ ∃ w ∈ b.windows, w.Holds address := by
  by_cases h : ∃ w ∈ b.windows, w.Holds address
  · exact .inr h
  · exact .inl fun w hw ha => h ⟨w, hw, ha⟩

theorem Furnished.flat_mapped (h : b.Furnished) (hw : w ∈ b.windows)
    (ha : w.Holds address) : ∃ c, b.flat address = some c := by
  obtain ⟨d, s, hd, hs, -⟩ := h.memory w hw
  obtain ⟨c, hc, -⟩ := Option.map_eq_some_iff.mp (Device.byte_cell? hs (address - w.base).toNat)
  refine ⟨c, ?_⟩
  rw [flat_of_holds h.laid hw ha, hd, Option.bind_some, hc]

variable [Peripheral ε]

/-! ## Single accesses

An access is compared with the flat one case by case: it is misaligned, or no
window holds the address, or one does, and then the memory behind the window
has all the bytes that are asked for.
-/

/-- A memory behind a window answers every aligned load from there. -/
theorem load_of_holds (h : Laid b.windows) (hw : w ∈ b.windows) (ha : w.Holds address)
    {width : Width} (haligned : width.Aligned address) {d : Device ε} {s : Storage}
    (hd : b.device? w.slot = some d) (hs : d.storage? = some s)
    (hsize : s.memory.size = w.bytes) :
    Bus.load width address b
      = .ok (assemble s.memory.bytes (address - w.base).toNat width.bytes) b := by
  have hinside := (h.placed w hw).inRange ha haligned hsize
  refine load_eq_ok.mpr ⟨haligned, w.slot, address - w.base, d, d, ?_, hd, ?_, ?_⟩
  · exact route_of_holds h hw ha
  · exact Device.read_memory hs hinside
  · rw [put_self hd]

theorem Furnished.load_mapped (h : b.Furnished) (hw : w ∈ b.windows) (ha : w.Holds address)
    {width : Width} (haligned : width.Aligned address) :
    Bus.load width address b
      = .ok (BitVec.ofNat _ (littleEndian (b.flat.bytesAt address width.bytes))) b := by
  obtain ⟨d, s, hd, hs, hsize⟩ := h.memory w hw
  rw [h.bytesAt hw ha haligned hd hs, ← assemble_eq_ofNat]
  exact load_of_holds h.laid hw ha haligned hd hs hsize

theorem load_unmapped (h : Laid b.windows) {address : Word}
    (hnone : ∀ w ∈ b.windows, ¬w.Holds address) {width : Width} (haligned : width.Aligned address) :
    Bus.load width address b = .error ⟨.loadAccessFault, address⟩ b := by
  rw [Bus.load, if_pos haligned, (route_eq_none h).mpr hnone]

theorem Furnished.load (h : b.Furnished) (width : Width) (address : Word) :
    mapState flat (Bus.load width address b) = FlatMemory.load width address b.flat := by
  unfold FlatMemory.load
  by_cases haligned : width.Aligned address
  · rw [if_pos haligned]
    obtain hnone | ⟨w, hw, ha⟩ := unmapped_or_held b address
    · rw [load_unmapped h.laid hnone haligned, flat_of_unheld hnone]
      rfl
    · obtain ⟨c, hc⟩ := h.flat_mapped hw ha
      rw [h.load_mapped hw ha haligned, hc]
      rfl
  · rw [if_neg haligned, Bus.load, if_neg haligned]
    rfl

theorem Furnished.fetch (h : b.Furnished) (address : Word) :
    mapState flat (Bus.fetch address b) = FlatMemory.fetch address b.flat := by
  unfold FlatMemory.fetch Bus.fetch
  by_cases haligned : Width.Aligned .word address
  · rw [if_pos haligned, if_pos haligned]
    obtain hnone | ⟨w, hw, ha⟩ := unmapped_or_held b address
    · rw [load_unmapped h.laid hnone haligned, flat_of_unheld hnone]
      rfl
    · obtain ⟨c, hc⟩ := h.flat_mapped hw ha
      rw [h.load_mapped hw ha haligned, hc]
      rfl
  · rw [if_neg haligned, if_neg haligned]
    rfl

/-- Where a store goes that is accepted, and that it leaves all other memories. -/
theorem Furnished.stored (h : b.Furnished) {width : Width} {address : Word}
    {value : BitVec width.bits} {b' : Bus ε}
    (hstore : Bus.store width address value b = .ok () b') :
    ∃ w ∈ b.windows, w.Holds address ∧ ∃ s, b.device? w.slot = some (.ram s)
      ∧ s.memory.size = w.bytes ∧ s.memory.InRange (address - w.base) width.bytes
      ∧ b'.device? w.slot = some (.ram (s.written width (address - w.base) value))
      ∧ ∀ v ∈ b.windows, v ≠ w → b'.device? v.slot = b.device? v.slot := by
  obtain ⟨slot, offset, hroute, hmemories⟩ := store_memories hstore
  obtain ⟨w, hw, ha, rfl, rfl⟩ := route_eq_some h.laid hroute
  obtain ⟨d, s, hd, hs, hsize⟩ := h.memory w hw
  have hwritten := hmemories w.slot d hd (by rw [hs]; rfl)
  rw [if_pos rfl] at hwritten
  obtain ⟨t, rfl, hrange, hwritten⟩ := hwritten
  cases hs
  refine ⟨w, hw, ha, s, hd, hsize, hrange, hwritten, ?_⟩
  intro v hv hne
  obtain ⟨e, t, he, ht, -⟩ := h.memory v hv
  have hkept := hmemories v.slot e he (by rw [ht]; rfl)
  rw [if_neg fun hslot => hne (h.once v hv w hw hslot)] at hkept
  rw [hkept, he]

theorem Furnished.of_store (h : b.Furnished) {width : Width} {address : Word}
    {value : BitVec width.bits} {b' : Bus ε}
    (hstore : Bus.store width address value b = .ok () b') : b'.Furnished := by
  obtain ⟨w, hw, ha, s, hd, hsize, hrange, hwritten, hother⟩ := h.stored hstore
  have hwindows := store_windows hstore
  constructor
  · rw [hwindows]
    exact h.laid
  · rw [hwindows]
    intro v hv
    by_cases hvw : v = w
    · subst hvw
      exact ⟨_, _, hwritten, rfl, (Storage.size_written _ _ _ _).trans hsize⟩
    · rw [hother v hv hvw]
      exact h.memory v hv
  · rw [hwindows]
    exact h.once

/-- A store that is accepted changes just the bytes that it addresses. -/
theorem Furnished.flat_store (h : b.Furnished) {width : Width} {address : Word}
    {value : BitVec width.bits} {b' : Bus ε}
    (hstore : Bus.store width address value b = .ok () b') :
    b'.flat = b.flat.write width address value := by
  obtain ⟨w, hw, ha, s, hd, hsize, hrange, hwritten, hother⟩ := h.stored hstore
  have hwindows := store_windows hstore
  have hlaid := (h.of_store hstore).laid
  have hplaced := h.laid.placed w hw
  have hend := hplaced.access_le ha (store_eq_ok.mp hstore).1
  have hinside := hplaced.inside
  funext a
  have hnear : (a - address).toNat < width.bytes
      ↔ address.toNat ≤ a.toNat ∧ a.toNat < address.toNat + width.bytes :=
    toNat_sub_lt_iff (by omega)
  rw [FlatMemory.write]
  obtain hnone | ⟨v, hv, hva⟩ := unmapped_or_held b a
  · rw [flat_of_unheld (by rw [hwindows]; exact hnone), flat_of_unheld hnone]
    split <;> rfl
  · rw [flat_of_holds hlaid (by rw [hwindows]; exact hv) hva, flat_of_holds h.laid hv hva]
    by_cases hvw : v = w
    · subst hvw
      rw [hwritten, hd, Option.bind_some, Option.bind_some,
        Device.cell?_written_at ha hva hnear hrange]
    · -- The addressed bytes are all in the window of the address, and so not in this one.
      rw [hother v hv hvw, if_neg]
      intro hin
      have hwa : w.Holds a := by
        obtain ⟨hfrom, hto⟩ := hnear.mp hin
        have hbase := ha.1
        exact ⟨by omega, by omega⟩
      exact hvw (h.laid.eq_of_holds hv hw hva hwa)

theorem Furnished.store_ram (h : b.Furnished) {w : Window} (hw : w ∈ b.windows) {address : Word}
    (ha : w.Holds address) {width : Width} (haligned : width.Aligned address) {s : Storage}
    (hd : b.device? w.slot = some (.ram s)) (value : BitVec width.bits) :
    ∃ b', Bus.store width address value b = .ok () b' := by
  have hinside := h.inRange hw ha haligned hd rfl
  exact ⟨_, store_eq_ok.mpr ⟨haligned, w.slot, _, _, _, _, route_of_holds h.laid hw ha, hd,
    (Device.write_memory_eq_ok rfl).mpr ⟨s, rfl, hinside, rfl, rfl⟩, rfl⟩⟩

theorem Furnished.store_rom (h : b.Furnished) {w : Window} (hw : w ∈ b.windows) {address : Word}
    (ha : w.Holds address) {width : Width} (haligned : width.Aligned address) {s : Storage}
    (hd : b.device? w.slot = some (.rom s)) (value : BitVec width.bits) :
    Bus.store width address value b = .error ⟨.storeAccessFault, address⟩ b := by
  have hwrite : Device.write width (address - w.base) value (.rom s : Device ε)
      = .error ⟨.storeAccessFault, address - w.base⟩ (.rom s) := rfl
  simp only [Bus.store, if_pos haligned, route_of_holds h.laid hw ha, storeInto,
    visit_error hd hwrite, put_self hd]

theorem Furnished.store (h : b.Furnished) (width : Width) (address : Word)
    (value : BitVec width.bits) :
    mapState flat (Bus.store width address value b)
      = FlatMemory.store width address value b.flat := by
  unfold FlatMemory.store
  by_cases haligned : width.Aligned address
  · rw [if_pos haligned]
    obtain hnone | ⟨w, hw, ha⟩ := unmapped_or_held b address
    · rw [flat_of_unheld hnone, Bus.store, if_pos haligned, (route_eq_none h.laid).mpr hnone]
      rfl
    · have hcell := flat_of_holds h.laid hw ha
      obtain ⟨d, s, hd, hs, -⟩ := h.memory w hw
      rw [hd, Option.bind_some] at hcell
      rw [hcell]
      cases d with
      | ram t =>
          obtain ⟨b', hstore⟩ := h.store_ram hw ha haligned hd value
          rw [hstore, ← h.flat_store hstore]
          rfl
      | rom t =>
          rw [h.store_rom hw ha haligned hd value]
          rfl
      | timer t | controller c | external e => cases hs
  · rw [if_neg haligned, Bus.store, if_neg haligned]
    rfl

theorem Furnished.stateAfter_load (h : b.Furnished) (width : Width) (address : Word) :
    stateAfter (Bus.load width address b) = b := by
  by_cases haligned : width.Aligned address
  · obtain hnone | ⟨w, hw, ha⟩ := unmapped_or_held b address
    · rw [load_unmapped h.laid hnone haligned]
      rfl
    · rw [h.load_mapped hw ha haligned]
      rfl
  · rw [Bus.load, if_neg haligned]
    rfl

theorem Furnished.store_error (h : b.Furnished) {width : Width} {address : Word}
    {value : BitVec width.bits} {trap : AddressTrap} {b' : Bus ε}
    (hstore : Bus.store width address value b = .error trap b') : b' = b := by
  obtain rfl | ⟨slot, offset, d, d', e, hroute, hd, hwrite, rfl⟩ := store_eq_error hstore
  · rfl
  · obtain ⟨w, hw, -, rfl, -⟩ := route_eq_some h.laid hroute
    obtain ⟨d₁, s, hd₁, hs, -⟩ := h.memory w hw
    rw [hd] at hd₁
    cases hd₁
    rw [Device.write_memory_eq_error (by rw [hs]; rfl) hwrite, put_self hd]

end Flat

end Bus

variable [Peripheral ε]

/-! ## Runs of accesses

Loads and fetches leave the bus as it was, and so does a store that is
refused; an accepted store leaves it furnished. So the comparison of single
accesses goes through any run.
-/

/-- A load, a store or the fetch of an instruction. -/
inductive Access where
  | load (w : Width) (address : Word)
  | store (w : Width) (address : Word) (value : BitVec w.bits)
  | fetch (address : Word)

namespace Access

/-- What an access answers when it succeeds. -/
def Answer : Access → Type
  | load w _ => BitVec w.bits
  | store .. => Unit
  | fetch _ => Word

/-- The access as the bus serves it. -/
def onBus : (a : Access) → EStateM AddressTrap (Bus ε) a.Answer
  | load w address => Bus.load w address
  | store w address value => Bus.store w address value
  | fetch address => Bus.fetch address

/-- The access as the flat memory serves it. -/
def onFlat : (a : Access) → EStateM AddressTrap FlatMemory a.Answer
  | load w address => FlatMemory.load w address
  | store w address value => FlatMemory.store w address value
  | fetch address => FlatMemory.fetch address

/-- The bus after a run of accesses, whether they succeed or fail. -/
def busAfter (b : Bus ε) (accesses : List Access) : Bus ε :=
  accesses.foldl (fun b a => stateAfter (a.onBus b)) b

/-- The flat memory after some accesses, of which some may have failed. -/
def flatAfter (m : FlatMemory) (accesses : List Access) : FlatMemory :=
  accesses.foldl (fun m a => stateAfter (a.onFlat m)) m

variable {b : Bus ε}

/-- The bus and the flat memory that it is seen as answer the same, and go the same way. -/
theorem onBus_flat (h : b.Furnished) (a : Access) :
    mapState Bus.flat (a.onBus b) = a.onFlat b.flat := by
  cases a with
  | load w address => exact h.load w address
  | store w address value => exact h.store w address value
  | fetch address => exact h.fetch address

theorem furnished_onBus (h : b.Furnished) (a : Access) : (stateAfter (a.onBus b)).Furnished := by
  cases a with
  | load w address =>
      have hstate : stateAfter (onBus (.load w address) b) = b := h.stateAfter_load w address
      rw [hstate]
      exact h
  | store w address value =>
      simp only [onBus]
      cases hstore : Bus.store w address value b with
      | ok u b' => exact h.of_store hstore
      | error trap b' =>
          rw [h.store_error hstore]
          exact h
  | fetch address =>
      have hstate : stateAfter (onBus (.fetch address) b) = b :=
        (Bus.stateAfter_fetch_eq address b).trans (h.stateAfter_load .word address)
      rw [hstate]
      exact h

theorem onBus_error (h : b.Furnished) {a : Access} {trap : AddressTrap} {b' : Bus ε}
    (hfail : a.onBus b = .error trap b') : b' = b := by
  cases a with
  | load w address =>
      have hstate := h.stateAfter_load w address
      rw [show Bus.load w address b = .error trap b' from hfail] at hstate
      exact hstate
  | store w address value => exact h.store_error hfail
  | fetch address =>
      have hstate := h.stateAfter_load .word address
      rw [← Bus.stateAfter_fetch_eq,
        show Bus.fetch address b = .error trap b' from hfail] at hstate
      exact hstate

theorem busAfter_flat (h : b.Furnished) (accesses : List Access) :
    (busAfter b accesses).Furnished
      ∧ (busAfter b accesses).flat = flatAfter b.flat accesses := by
  induction accesses generalizing b with
  | nil => exact ⟨h, rfl⟩
  | cons a rest ih =>
      have hstate : (stateAfter (a.onBus b)).flat = stateAfter (a.onFlat b.flat) := by
        rw [← onBus_flat h a, stateAfter_mapState]
      obtain ⟨hfurnished, hflat⟩ := ih (furnished_onBus h a)
      refine ⟨hfurnished, ?_⟩
      rw [flatAfter, List.foldl_cons, ← hstate]
      exact hflat

end Access

theorem Device.pages_of_storage? {d : Device ε} {s : Storage} (hs : d.storage? = some s) :
    d.pages = s.pages := by
  cases d with
  | ram t | rom t =>
      cases hs
      rfl
  | timer t | controller c | external e => cases hs

namespace Bus

theorem furnished_setUp {calls : List (Setup ε)}
    (hmemories : ∀ d, .install d ∈ calls →
      ∃ s, d.storage? = some s ∧ s.memory.size = s.pages.toNat * pageSize)
    (hdistinct : ((setUp calls).windows.map Window.slot).Nodup) : (setUp calls).Furnished where
  laid := laid_setUp calls
  memory w hw := by
    obtain ⟨d, hd, hpages⟩ := occupied_setUp calls w hw
    obtain ⟨s, hs, hsize⟩ := hmemories d (install_mem_of_device? hd)
    refine ⟨d, s, hd, hs, ?_⟩
    rw [hsize, Window.bytes, ← hpages, Device.pages_of_storage? hs]
  once v hv w hw hslot := List.inj_on_of_nodup_map hdistinct hv hw hslot

/-- A bus on which distinct memories have been attached is one flat memory. Its bytes are mapped
just in the windows, and may be stored to just in those of a RAM; and after any accesses, whether
they succeed or fail, any further one ends as on the flat memory, and changes nothing if it
fails. -/
theorem flat_memory {calls : List (Setup ε)}
    (hmemories : ∀ d, .install d ∈ calls →
      ∃ s, d.storage? = some s ∧ s.memory.size = s.pages.toNat * pageSize)
    (hdistinct : ((setUp calls).windows.map Window.slot).Nodup) :
    (∀ address, (setUp calls).flat address = none
        ↔ ∀ w ∈ (setUp calls).windows, ¬w.Holds address)
      ∧ (∀ w ∈ (setUp calls).windows, ∀ address, w.Holds address →
          ∃ c, (setUp calls).flat address = some c
            ∧ (c.writable = true ↔ ∃ s, (setUp calls).device? w.slot = some (.ram s)))
      ∧ ∀ accesses (access : Access),
          mapState flat (access.onBus (Access.busAfter (setUp calls) accesses))
              = access.onFlat (Access.flatAfter (setUp calls).flat accesses)
            ∧ ∀ trap b, access.onBus (Access.busAfter (setUp calls) accesses) = .error trap b →
                b = Access.busAfter (setUp calls) accesses := by
  have hfurnished := furnished_setUp hmemories hdistinct
  refine ⟨?_, ?_, ?_⟩
  · intro address
    refine ⟨fun hnone w hw ha => ?_, flat_of_unheld⟩
    obtain ⟨c, hc⟩ := hfurnished.flat_mapped hw ha
    rw [hnone] at hc
    cases hc
  · intro w hw address ha
    obtain ⟨d, s, hd, hs, -⟩ := hfurnished.memory w hw
    have hcell := flat_of_holds hfurnished.laid hw ha
    rw [hd, Option.bind_some] at hcell
    rw [hcell, hd]
    cases d with
    | ram t => exact ⟨_, rfl, fun _ => ⟨t, rfl⟩, fun _ => rfl⟩
    | rom t => exact ⟨_, rfl, nofun, nofun⟩
    | timer t | controller c | external e => cases hs
  · intro accesses access
    obtain ⟨hafter, hflat⟩ := Access.busAfter_flat hfurnished accesses
    rw [← hflat]
    exact ⟨Access.onBus_flat hafter access, fun _ _ => Access.onBus_error hafter⟩

/-- A RAM of three pages, and a ROM in the fourth page of the window that is rounded up for
it. -/
def tailCalls : List (Setup Empty) :=
  [.install (.ram (Storage.ofPages 3)), .install (.rom (Storage.ofPages 1)), .attach 0 0,
    .attach 1 0xc00]

/-- Stores at the end of the RAM and at the beginning of the ROM. -/
def tailAccesses : List Access :=
  [.store .word 0xbfc 0x11223344, .store .byte 0xc00 1]

theorem flat_memory_tail :
    (setUp tailCalls).windows = [⟨0, 3, 0⟩, ⟨0xc00, 1, 1⟩]
      ∧ mapState flat ((Access.load .halfword 0xbfe).onBus
          (Access.busAfter (setUp tailCalls) tailAccesses))
        = (Access.load .halfword 0xbfe).onFlat
          (Access.flatAfter (setUp tailCalls).flat tailAccesses) := by
  have hmemories : ∀ d : Device Empty, .install d ∈ tailCalls →
      ∃ s, d.storage? = some s ∧ s.memory.size = s.pages.toNat * pageSize := by
    intro d hd
    simp only [tailCalls, List.mem_cons, Setup.install.injEq, reduceCtorEq, List.not_mem_nil,
      or_false] at hd
    obtain rfl | rfl := hd
    · exact ⟨_, rfl, Array.size_replicate⟩
    · exact ⟨_, rfl, Array.size_replicate⟩
  obtain ⟨-, -, hruns⟩ := flat_memory hmemories (by decide +kernel)
  exact ⟨by decide +kernel, (hruns tailAccesses (.load .halfword 0xbfe)).1⟩

end Bus

end Rv32Soc
