import Rv32Soc.Proofs.FlatMemory
import Rv32Soc.Proofs.TrapHandlers

/-!
# What an instruction leaves alone

An instruction has a footprint: the register it names as its destination, the
bytes it stores, the control register it writes, the reservation it makes or
takes away, and the place it jumps to. All the rest of the machine is the same
after it as before. The footprint is read off the instruction and the hart
before it; nothing of it has to be known about the run.

Registers may coincide in every way, and the proof never asks whether they do:
the only question about a register is whether it is the destination.

The bytes of a store are named by their addresses. An access that suits its
width stays within one page, so all its addresses lead to the same device, and
to consecutive places there.
-/

namespace Rv32Soc

/-! ## Footprints of instructions -/

namespace Isa.Instr

/-- The register that an instruction names as its destination. -/
def dest? : Instr → Option Reg
  | .lui dest _ | .auipc dest _ | .jal dest _ | .jalr dest _ _ | .load _ dest _ _
  | .opImm _ dest _ _ | .shiftImm _ dest _ _ | .op _ dest _ _ | .loadReserved dest _
  | .storeConditional dest _ _ | .amo _ dest _ _ | .csr _ dest _ _ | .csrImm _ dest _ _ =>
      some dest
  | .branch .. | .store .. | .scall | .sbreak | .eret | .illegal _ => none

/-- The instruction is one of the two that are about the reservation. -/
def managesReservation : Instr → Bool
  | .loadReserved .. | .storeConditional .. => true
  | _ => false

end Isa.Instr

namespace Hart

open Isa

variable {ε : Type}

/-- Where an instruction jumps to, if it does: a branch only if its condition holds. -/
def jumpTarget? (h : Hart ε) : Instr → Option Word
  | .jal _ offset => some (h.pc + offset)
  | .jalr _ base offset => some ((h.x base + offset) &&& ~~~1#32)
  | .branch cond src1 src2 offset =>
      if cond.holds (h.x src1) (h.x src2) then some (h.pc + offset) else none
  | _ => none

/-- The width and the address of the store that is part of an instruction. -/
def storeTarget? (h : Hart ε) : Instr → Option (Width × Word)
  | .store width _ base offset => some (width, h.x base + offset)
  | .storeConditional _ base _ | .amo _ _ base _ => some (.word, h.x base)
  | _ => none

/-- The instruction is a store-conditional whose word is not reserved: it stores nothing. -/
def withholds (h : Hart ε) : Instr → Bool
  | .storeConditional _ base _ => !h.bus.isReserved (h.x base)
  | _ => false

/-- The width and the address of the store that an instruction makes if it succeeds. -/
def written? (h : Hart ε) (i : Instr) : Option (Width × Word) :=
  if h.withholds i then none else h.storeTarget? i

end Hart

/-! ## The addresses of an access -/

theorem Width.Aligned.add_lt {width : Width} {address : Word} (h : width.Aligned address) {k : Nat}
    (hk : k < width.bytes) : address.toNat + k < wordCount := by
  have hlt : address.toNat < 2 ^ 32 := address.isLt
  cases width <;> simp only [Width.Aligned, Width.bytes, wordCount] at h hk ⊢ <;> omega

theorem Width.Aligned.pageOf_add {width : Width} {address : Word} (h : width.Aligned address)
    {k : Nat} (hk : k < width.bytes) : pageOf (address + BitVec.ofNat 32 k) = pageOf address := by
  rw [pageOf, pageOf, toNat_add_ofNat (h.add_lt hk), pageSize]
  cases width <;> simp only [Width.Aligned, Width.bytes] at h hk <;> omega

/-- Whatever the number of pages, the mask is all ones below some place, and that place is not
within a page. -/
theorem windowMask_eq_ones {pages : Word} (h : 0 < pages.toNat) :
    ∃ n, 10 ≤ n ∧ (windowMask pages).toNat = 2 ^ n - 1 := by
  have hlog : 9 < Nat.clog 2 (pages.toNat * pageSize) := by
    apply (Nat.lt_clog_iff_pow_lt (by decide)).mpr
    simp only [pageSize]
    omega
  rw [windowMask, roundUp_eq, BitVec.toNat_ofNat]
  generalize Nat.clog 2 (pages.toNat * pageSize) = c at hlog
  by_cases hc : c ≤ 32
  · have hle : 2 ^ c ≤ 2 ^ 32 := Nat.pow_le_pow_right (by decide) hc
    have hpos : 0 < 2 ^ c := Nat.two_pow_pos c
    exact ⟨c, hlog, Nat.mod_eq_of_lt (by omega)⟩
  · -- Beyond the address space the mask is cut to 32 ones.
    have hsplit : 2 ^ c = 2 ^ 32 * 2 ^ (c - 32) := by
      rw [← Nat.pow_add, Nat.add_sub_cancel' (by omega)]
    have hpos : 0 < 2 ^ (c - 32) := Nat.two_pow_pos _
    refine ⟨32, by decide, ?_⟩
    rw [hsplit]
    omega

theorem Window.offset_add {w : Window} (hpages : 0 < w.pages.toNat) {width : Width}
    {address : Word} (haligned : width.Aligned address) {k : Nat} (hk : k < width.bytes) :
    (w.offset (address + BitVec.ofNat 32 k)).toNat = (w.offset address).toNat + k := by
  obtain ⟨n, hn, hmask⟩ := windowMask_eq_ones hpages
  have hdvd : 4 ∣ 2 ^ n := Nat.pow_dvd_pow 2 (show 2 ≤ n by omega)
  have hlt : address.toNat % 2 ^ n < 2 ^ n := Nat.mod_lt _ (Nat.two_pow_pos n)
  have hrest : address.toNat % 2 ^ n % 4 = address.toNat % 4 := Nat.mod_mod_of_dvd _ hdvd
  rw [offset, offset, BitVec.toNat_and, BitVec.toNat_and, hmask, Nat.and_two_pow_sub_one_eq_mod,
    Nat.and_two_pow_sub_one_eq_mod, toNat_add_ofNat (haligned.add_lt hk), ← Nat.mod_add_mod]
  apply Nat.mod_eq_of_lt
  obtain ⟨q, hq⟩ := hdvd
  cases width <;> simp only [Width.Aligned, Width.bytes] at haligned hk <;> omega

namespace Bus

variable {ε : Type}

theorem route_of_windows {b b' : Bus ε} (h : b'.windows = b.windows) (address : Word) :
    b'.route address = b.route address := by
  rw [route, route, window?, window?, h]

/-- All bytes of an access are in one device, one behind the other. -/
theorem route_add {b : Bus ε} {width : Width} {address : Word} {slot : Nat} {offset : Word}
    (hroute : b.route address = some (slot, offset)) (haligned : width.Aligned address) {k : Nat}
    (hk : k < width.bytes) : ∃ place, b.route (address + BitVec.ofNat 32 k) = some (slot, place)
      ∧ place.toNat = offset.toNat + k := by
  obtain ⟨w, hfind, hplace⟩ := Option.map_eq_some_iff.mp hroute
  cases hplace
  have hcovers : w.covers (pageOf address) = true := (mem_of_window? hfind).2
  have hpages : 0 < w.pages.toNat := by
    rw [Window.covers_iff, Window.endPage] at hcovers
    omega
  refine ⟨w.offset (address + BitVec.ofNat 32 k), ?_, Window.offset_add hpages haligned hk⟩
  rw [route, haligned.pageOf_add hk, hfind]
  rfl

/-! ## What an access leaves of the memories -/

/-- The byte of the device in a slot that is at one of the addresses of an access. -/
def InAccess (b : Bus ε) (access? : Option (Width × Word)) (slot place : Nat) : Prop :=
  ∃ width address k offset, access? = some (width, address) ∧ k < width.bytes
    ∧ b.route (address + BitVec.ofNat 32 k) = some (slot, offset) ∧ offset.toNat = place

/-- Nothing has happened to the memories but that the bytes of a RAM at the addresses of one
access may be others. -/
structure Confined (access? : Option (Width × Word)) (b b' : Bus ε) : Prop where
  windows : b'.windows = b.windows
  rom : ∀ slot s, b.device? slot = some (.rom s) → b'.device? slot = some (.rom s)
  ram : ∀ slot s, b.device? slot = some (.ram s) → ∃ s', b'.device? slot = some (.ram s')
    ∧ s'.pages = s.pages ∧ s'.memory.size = s.memory.size
    ∧ ∀ place, ¬b.InAccess access? slot place → s'.memory.bytes[place]? = s.memory.bytes[place]?

theorem confined_of_kept {access? : Option (Width × Word)} {b b' : Bus ε}
    (hwindows : b'.windows = b.windows) (hkept : KeepsMemories b b') : Confined access? b b' where
  windows := hwindows
  rom _ _ hs := hkept _ _ hs rfl
  ram slot s hs := ⟨s, hkept slot _ hs rfl, rfl, rfl, fun _ _ => rfl⟩

theorem Noted.confined {access? : Option (Width × Word)} {b b' : Bus ε} (h : Noted b b') :
    Confined access? b b' := by
  obtain ⟨journal, rfl⟩ := h
  exact confined_of_kept rfl (keepsMemories_of_slots rfl)

theorem inAccess_iff_of_windows {b b' : Bus ε} (h : b'.windows = b.windows)
    {access? : Option (Width × Word)} {slot place : Nat} :
    b'.InAccess access? slot place ↔ b.InAccess access? slot place := by
  simp only [InAccess, route, window?, h]

theorem Confined.trans {access? : Option (Width × Word)} {b₁ b₂ b₃ : Bus ε}
    (h₁ : Confined access? b₁ b₂) (h₂ : Confined access? b₂ b₃) : Confined access? b₁ b₃ where
  windows := h₂.windows.trans h₁.windows
  rom slot s hs := h₂.rom slot s (h₁.rom slot s hs)
  ram slot s hs := by
    obtain ⟨s₁, hs₁, hpages₁, hsize₁, hbytes₁⟩ := h₁.ram slot s hs
    obtain ⟨s₂, hs₂, hpages₂, hsize₂, hbytes₂⟩ := h₂.ram slot s₁ hs₁
    refine ⟨s₂, hs₂, hpages₂.trans hpages₁, hsize₂.trans hsize₁, fun place houtside => ?_⟩
    rw [hbytes₂ place fun h => houtside ((inAccess_iff_of_windows h₁.windows).mp h),
      hbytes₁ place houtside]

variable [Peripheral ε]

theorem load_confined (access? : Option (Width × Word)) (width : Width) (address : Word)
    (b : Bus ε) : Confined access? b (stateAfter (load width address b)) :=
  confined_of_kept (load_steady width address b).windows (load_keepsMemories width address b)

theorem store_reservation_of_free {width : Width} {address : Word} {value : BitVec width.bits}
    {b b' : Bus ε} (h : store width address value b = .ok () b')
    (hfree : b.isReserved address = false) : b'.reservation = b.reservation := by
  rw [store_reservation h, if_neg]
  exact fun hreserved => Bool.eq_false_iff.mp hfree (isReserved_iff.mpr hreserved)

theorem store_confined {width : Width} {address : Word} {value : BitVec width.bits} {b b' : Bus ε}
    (h : store width address value b = .ok () b') : Confined (some (width, address)) b b' := by
  obtain ⟨slot, offset, hroute, hmemories⟩ := store_memories h
  have haligned : width.Aligned address := (store_eq_ok.mp h).1
  refine ⟨store_windows h, ?_, ?_⟩
  · intro other s hs
    have hafter := hmemories other _ hs rfl
    split at hafter
    · -- A store that is accepted has not gone to a ROM.
      obtain ⟨t, hram, -⟩ := hafter
      cases hram
    · exact hafter
  · intro other s hs
    have hafter := hmemories other _ hs rfl
    split at hafter
    · next hslot =>
        obtain ⟨t, hram, hinside, hwritten⟩ := hafter
        cases hram
        refine ⟨_, hwritten, rfl, s.size_written width offset value, fun place houtside => ?_⟩
        show (splice s.memory.bytes offset.toNat (disassemble value))[place]? = _
        rw [getElem?_splice_disassemble value hinside, if_neg]
        rintro ⟨hfrom, hto⟩
        have hk : place - offset.toNat < width.bytes := by omega
        obtain ⟨spot, hspot, heq⟩ := route_add hroute haligned hk
        subst hslot
        exact houtside ⟨width, address, _, spot, rfl, hk, hspot, by omega⟩
    · exact ⟨s, hafter, rfl, rfl, fun _ _ => rfl⟩

end Bus

/-! ## What an instruction leaves of the hart -/

theorem Registers.get_set_of_ne (registers : Registers) {dest r : Isa.Reg} (h : dest ≠ r)
    (value : Word) : (registers.set dest value).get r = registers.get r := by
  by_cases hdest : dest = 0
  · rw [set, if_pos hdest]
  · have hplace : dest.toFin ≠ r.toFin := fun heq => h (BitVec.eq_of_toFin_eq heq)
    rw [set, if_neg hdest]
    exact Vector.getElem_set_ne dest.toFin.isLt r.toFin.isLt fun heq => hplace (Fin.ext heq)

theorem Registers.get_zero_set (registers : Registers) (dest : Isa.Reg) (value : Word) :
    (registers.set dest value).get 0 = registers.get 0 := by
  by_cases hdest : dest = 0
  · rw [set, if_pos hdest]
  · exact registers.get_set_of_ne hdest value

theorem Csr.read_of_write {c c' : Csr} {number other : BitVec 16} {value : Word}
    (hwrite : c.write number value = .ok c') (hother : other ≠ number) :
    c'.read other = c.read other := by
  unfold write at hwrite
  split at hwrite
  · next hnumber =>
      cases hwrite
      rw [hnumber] at hother
      simp only [read, if_neg hother]
  · -- The five others hold no part of mstatus.
    repeat'
      split at hwrite <;> try
        next hnumber =>
          cases hwrite
          rw [hnumber] at hother
          simp only [read, mstatus, if_neg hother]
    all_goals cases hwrite

namespace Hart

open Isa

variable {ε : Type}

/-- After the instruction all is as before that is not in its footprint. -/
structure Framed (i : Instr) (h h' : Hart ε) : Prop where
  zero : h'.x 0 = 0
  registers : ∀ r, i.dest? ≠ some r → h'.x r = h.x r
  memories : Bus.Confined (h.written? i) h.bus h'.bus
  csr : i ≠ .eret → i.writtenCsr? = none → h'.csr = h.csr
  otherCsrs : ∀ number, i.writtenCsr? = some number → ∀ other, other ≠ number.setWidth 16 →
    h'.csr.read other = h.csr.read other
  reservation : i.managesReservation = false →
    (∀ width address, h.storeTarget? i = some (width, address) →
      h.bus.isReserved address = false) →
    h'.bus.reservation = h.bus.reservation
  pending : h'.pending = h.pending
  pc : i ≠ .eret → h.jumpTarget? i = none → h'.pc = h.pc + 4

/-- What can be said of registers and pc after an instruction of any kind. -/
structure Retired (i : Instr) (h h' : Hart ε) : Prop where
  registers : ∃ value, h'.registers = i.dest?.elim h.registers (h.registers.set · value)
  pc : i ≠ .eret → h.jumpTarget? i = none → h'.pc = h.pc + 4

theorem retired_finished {i : Instr} {dest : Reg} (hdest : i.dest? = some dest) (h : Hart ε)
    (b : Bus ε) (csr : Csr) (value : Word) :
    Retired i h ({ h with bus := b, csr }.finished dest value) :=
  ⟨⟨value, by rw [hdest]; rfl⟩, fun _ _ => rfl⟩

theorem jumpAndLink_retired {i : Instr} {dest : Reg} {target : Word} {h h' : Hart ε}
    (hdest : i.dest? = some dest) (htarget : h.jumpTarget? i = some target)
    (hok : jumpAndLink dest target h = .ok () h') : Retired i h h' := by
  rw [jumpAndLink_apply] at hok
  split at hok <;> cases hok
  refine ⟨⟨h.pc + 4, by rw [hdest]; rfl⟩, fun _ hnone => ?_⟩
  rw [htarget] at hnone
  cases hnone

theorem executeCsr_retired {i : Instr} {word : Word} {op : CsrOp} {dest : Reg}
    {number : BitVec 12} {source : Word} {writes : Bool} {h h' : Hart ε}
    (hdest : i.dest? = some dest)
    (hok : executeCsr word op dest number source writes h = .ok () h') : Retired i h h' := by
  rw [executeCsr_apply] at hok
  split at hok
  · cases hok
  · split at hok <;> cases hok
    exact retired_finished hdest h h.bus _ _

theorem executeCsr_read {word : Word} {op : CsrOp} {dest : Reg} {number : BitVec 12}
    {source : Word} {h h' : Hart ε} {writes : Bool}
    (hok : executeCsr word op dest number source writes h = .ok () h') :
    if writes then ∀ other, other ≠ number.setWidth 16 → h'.csr.read other = h.csr.read other
    else h'.csr = h.csr := by
  rw [executeCsr_apply] at hok
  split at hok
  · cases hok
  · cases writes with
    | false =>
        cases hok
        rfl
    | true =>
        simp only [if_true] at hok ⊢
        split at hok <;> cases hok
        next csr hwrite =>
          intro other hother
          exact Csr.read_of_write hwrite hother

variable [Peripheral ε]

theorem tryStore_eq_ok {base src : Reg} {h h' : Hart ε} {status : Word}
    (hok : tryStore base src h = .ok status h') :
    h.bus.isReserved (h.x base) = false ∧ h' = { h with bus := h.bus.unreserve }
      ∨ h.bus.isReserved (h.x base) = true ∧ ∃ b,
        Bus.store .word (h.x base) (h.x src) h.bus = .ok () b
          ∧ h' = { h with bus := b.unreserve } := by
  by_cases haligned : Width.Aligned .word (h.x base)
  · cases hreserved : h.bus.isReserved (h.x base) with
    | false =>
        rw [tryStore_unreserved haligned hreserved] at hok
        cases hok
        exact .inl ⟨rfl, rfl⟩
    | true =>
        rw [tryStore_reserved haligned hreserved] at hok
        split at hok <;> cases hok
        next b hstore => exact .inr ⟨rfl, b, hstore, rfl⟩
  · simp only [tryStore, if_neg haligned] at hok
    cases hok

theorem execute_retired {i : Instr} {word : Word} {h h' : Hart ε}
    (hok : execute i word h = .ok () h') : Retired i h h' := by
  cases i with
  | lui | auipc | opImm | shiftImm | op =>
      cases hok
      exact retired_finished rfl h h.bus h.csr _
  | jal | jalr => exact jumpAndLink_retired rfl rfl hok
  | branch cond src1 src2 offset =>
      rw [execute, executeBranch_apply] at hok
      split at hok
      · next htaken =>
          rw [jumpTo] at hok
          split at hok <;> cases hok
          refine ⟨⟨0, rfl⟩, fun _ hnone => ?_⟩
          rw [jumpTarget?, if_pos htaken] at hnone
          cases hnone
      · cases hok
        exact ⟨⟨0, rfl⟩, fun _ _ => rfl⟩
  | load kind dest base offset =>
      rw [execute, executeLoad_apply] at hok
      split at hok <;> cases hok
      exact retired_finished rfl h _ h.csr _
  | store width src base offset =>
      rw [execute, executeStore_apply] at hok
      split at hok <;> cases hok
      exact ⟨⟨0, rfl⟩, fun _ _ => rfl⟩
  | loadReserved dest base =>
      rw [execute, executeLoadReserved_apply] at hok
      split at hok <;> cases hok
      exact retired_finished rfl h _ h.csr _
  | storeConditional dest base src =>
      rw [execute, executeStoreConditional_apply] at hok
      split at hok <;> cases hok
      next status h₁ htry =>
        obtain ⟨-, rfl⟩ | ⟨-, b, -, rfl⟩ := tryStore_eq_ok htry <;>
          exact retired_finished rfl h (Bus.note _ _) h.csr status
  | amo op dest base src =>
      rw [execute, executeAmo_apply] at hok
      split at hok
      · split at hok
        · cases hok
        · split at hok <;> cases hok
          exact retired_finished rfl h _ h.csr _
      · cases hok
  | scall | sbreak | illegal => cases hok
  | eret =>
      cases hok
      exact ⟨⟨0, rfl⟩, fun hreturn => absurd rfl hreturn⟩
  | csr | csrImm => exact executeCsr_retired rfl hok

theorem execute_csrs {i : Instr} {word : Word} {h h' : Hart ε}
    (hok : execute i word h = .ok () h') :
    match i.writtenCsr? with
    | some number => ∀ other, other ≠ number.setWidth 16 → h'.csr.read other = h.csr.read other
    | none => i ≠ .eret → h'.csr = h.csr := by
  cases huses : i.usesCsr with
  | false =>
      have hnone : i.writtenCsr? = none := by cases i <;> first | rfl | cases huses
      have hcsr := execute_csr huses word h
      rw [hok] at hcsr
      rw [hnone]
      exact fun _ => hcsr
  | true =>
      cases i with
      | eret => exact fun hreturn => absurd rfl hreturn
      | csr op dest src number =>
          have hread := executeCsr_read hok
          rw [Instr.writtenCsr?]
          cases hwrites : csrWrites op src with
          | false => rw [hwrites] at hread; exact fun _ => hread
          | true => rw [hwrites] at hread; exact hread
      | csrImm op dest value number =>
          have hread := executeCsr_read hok
          rw [Instr.writtenCsr?]
          cases hwrites : csrWrites op value with
          | false => rw [hwrites] at hread; exact fun _ => hread
          | true => rw [hwrites] at hread; exact hread
      | _ => cases huses

theorem execute_confined {i : Instr} {word : Word} {h h' : Hart ε}
    (hok : execute i word h = .ok () h') : Bus.Confined (h.written? i) h.bus h'.bus := by
  cases hbus : i.usesBus with
  | false =>
      have hnoted := execute_noted hbus word h
      rw [hok] at hnoted
      exact hnoted.confined
  | true =>
      cases i with
      | load kind dest base offset =>
          have hload := Bus.load_confined (h.written? (.load kind dest base offset)) kind.width
            (h.x base + offset) h.bus
          rw [execute, executeLoad_apply] at hok
          split at hok <;> cases hok
          next heq => rw [heq] at hload; exact hload
      | loadReserved dest base =>
          have hload := Bus.load_confined (h.written? (.loadReserved dest base)) .word (h.x base)
            h.bus
          rw [execute, executeLoadReserved_apply] at hok
          split at hok <;> cases hok
          next heq =>
            rw [heq] at hload
            exact hload.trans (Bus.confined_of_kept rfl (Bus.keepsMemories_of_slots rfl))
      | store width src base offset =>
          rw [execute, executeStore_apply] at hok
          split at hok <;> cases hok
          next hstore => exact Bus.store_confined hstore
      | storeConditional dest base src =>
          have hdrop : ∀ (b : Bus ε) record access?,
              Bus.Confined access? b (b.unreserve.note record) :=
            fun b record access? => Bus.confined_of_kept rfl (Bus.keepsMemories_of_slots rfl)
          rw [execute, executeStoreConditional_apply] at hok
          split at hok <;> cases hok
          next status h₁ htry =>
            obtain ⟨-, rfl⟩ | ⟨hreserved, b, hstore, rfl⟩ := tryStore_eq_ok htry
            · exact hdrop h.bus _ _
            -- Only with its word reserved does it have a footprint in memory.
            · have hwritten : h.written? (.storeConditional dest base src)
                  = some (.word, h.x base) := by
                rw [written?, withholds, hreserved]
                rfl
              rw [hwritten]
              exact (Bus.store_confined hstore).trans (hdrop b _ _)
      | amo op dest base src =>
          have hload := Bus.load_confined (h.written? (.amo op dest base src)) .word (h.x base)
            h.bus
          rw [execute, executeAmo_apply] at hok
          split at hok
          · split at hok
            · cases hok
            · next heq =>
                split at hok <;> cases hok
                next hstore =>
                  rw [heq] at hload
                  exact hload.trans (Bus.store_confined hstore)
          · cases hok
      | _ => cases hbus

theorem execute_reservation {i : Instr} {word : Word} {h h' : Hart ε}
    (hok : execute i word h = .ok () h') (hi : i.managesReservation = false)
    (hfree : ∀ width address, h.storeTarget? i = some (width, address) →
      h.bus.isReserved address = false) : h'.bus.reservation = h.bus.reservation := by
  cases hbus : i.usesBus with
  | false =>
      obtain ⟨journal, hnoted⟩ := execute_noted hbus word h
      rw [hok] at hnoted
      rw [show h'.bus = _ from hnoted]
  | true =>
      cases i with
      | load kind dest base offset =>
          have hload := (Bus.load_steady kind.width (h.x base + offset) h.bus).reservation
          rw [execute, executeLoad_apply] at hok
          split at hok <;> cases hok
          next heq => rw [heq] at hload; exact hload
      | store width src base offset =>
          rw [execute, executeStore_apply] at hok
          split at hok <;> cases hok
          next hstore => exact Bus.store_reservation_of_free hstore (hfree width _ rfl)
      | amo op dest base src =>
          have hload := (Bus.load_steady .word (h.x base) h.bus).reservation
          rw [execute, executeAmo_apply] at hok
          split at hok
          · split at hok
            · cases hok
            · next b heq =>
                rw [heq] at hload
                have hfree' : b.isReserved (h.x base) = false := by
                  rw [Bus.isReserved, show b.reservation = _ from hload]
                  exact hfree .word _ rfl
                split at hok <;> cases hok
                next hstore => exact (Bus.store_reservation_of_free hstore hfree').trans hload
          · cases hok
      | loadReserved | storeConditional => cases hi
      | _ => cases hbus

/-! ## What a step leaves -/

theorem beginning_confined {h h₁ : Hart ε} {word : Word} (hb : h.beginning? = some (word, h₁))
    (access? : Option (Width × Word)) : Bus.Confined access? h.bus h₁.bus := by
  obtain ⟨b, hfetch, rfl⟩ := beginning?_eq_some hb
  have hload := Bus.load_confined access? .word h.pc h.bus
  rw [← Bus.stateAfter_fetch_eq, hfetch] at hload
  exact hload.trans (Bus.confined_of_kept rfl (Bus.keepsMemories_of_slots rfl))

section Fetched

variable {h h₁ : Hart ε} {word : Word}

theorem beginning_pc (hb : h.beginning? = some (word, h₁)) : h₁.pc = h.pc := by
  obtain ⟨b, -, rfl⟩ := beginning?_eq_some hb
  rfl

theorem beginning_pending (hb : h.beginning? = some (word, h₁)) : h₁.pending = h.pending := by
  obtain ⟨b, -, rfl⟩ := beginning?_eq_some hb
  rfl

theorem beginning_jumpTarget? (hb : h.beginning? = some (word, h₁)) (i : Instr) :
    h₁.jumpTarget? i = h.jumpTarget? i := by
  cases i <;> simp only [jumpTarget?, beginning_x hb, beginning_pc hb]

theorem beginning_storeTarget? (hb : h.beginning? = some (word, h₁)) (i : Instr) :
    h₁.storeTarget? i = h.storeTarget? i := by
  cases i <;> simp only [storeTarget?, beginning_x hb]

theorem beginning_withholds (hb : h.beginning? = some (word, h₁)) (i : Instr) :
    h₁.withholds i = h.withholds i := by
  cases i <;> simp only [withholds, beginning_isReserved hb, beginning_x hb]

theorem beginning_written? (hb : h.beginning? = some (word, h₁)) (i : Instr) :
    h₁.written? i = h.written? i := by
  rw [written?, written?, beginning_withholds hb, beginning_storeTarget? hb]

/-- The fetch comes before the instruction and changes nothing that a footprint is about. -/
theorem Framed.of_beginning {i : Instr} {h' : Hart ε} (hb : h.beginning? = some (word, h₁))
    (hframed : Framed i h₁ h') : Framed i h h' where
  zero := hframed.zero
  registers r hr := (hframed.registers r hr).trans (beginning_x hb r)
  memories := by
    have hmemories := hframed.memories
    rw [beginning_written? hb] at hmemories
    exact (beginning_confined hb _).trans hmemories
  csr hreturn hnone := (hframed.csr hreturn hnone).trans (beginning_csr hb)
  otherCsrs number hwritten other hother := by
    rw [hframed.otherCsrs number hwritten other hother, beginning_csr hb]
  reservation hi hfree := by
    refine (hframed.reservation hi fun width address htarget => ?_).trans (beginning_reservation hb)
    rw [beginning_storeTarget? hb] at htarget
    rw [beginning_isReserved hb]
    exact hfree width address htarget
  pending := hframed.pending.trans (beginning_pending hb)
  pc hreturn hnone := by
    rw [hframed.pc hreturn ((beginning_jumpTarget? hb i).trans hnone), beginning_pc hb]

end Fetched

theorem execute_framed {i : Instr} {word : Word} {h h' : Hart ε} (hzero : h.x 0 = 0)
    (hok : execute i word h = .ok () h') : Framed i h h' := by
  obtain ⟨⟨value, hregisters⟩, hpc⟩ := execute_retired hok
  have hx : ∀ r, h'.x r = (i.dest?.elim h.registers (h.registers.set · value)).get r :=
    fun r => by rw [x, hregisters]
  have hcsrs := execute_csrs hok
  -- No instruction looks at the flag, so nothing has to be known of the bus.
  have hany : Bus.Traffic fun _ _ : Bus ε => True := by constructor <;> intros <;> trivial
  refine ⟨?_, ?_, execute_confined hok, ?_, ?_, execute_reservation hok,
    ((execute_moves hany i word).ok hok).pending, hpc⟩
  · rw [hx]
    cases i.dest? with
    | none => exact hzero
    | some dest => exact (h.registers.get_zero_set dest value).trans hzero
  · intro r hr
    rw [hx]
    cases hdest : i.dest? with
    | none => rfl
    | some dest =>
        rw [hdest] at hr
        exact h.registers.get_set_of_ne (fun heq => hr (congrArg some heq)) value
  · intro hreturn hnone
    rw [hnone] at hcsrs
    exact hcsrs hreturn
  · intro number hwritten
    rw [hwritten] at hcsrs
    exact hcsrs

/-- A step that takes no trap has executed an instruction, and leaves alone what is not in the
footprint of it. -/
theorem step_framed {h : Hart ε} (hzero : h.x 0 = 0) (hok : h.step.1 = none) :
    ∃ i, h.executed? = some i ∧ Framed i h h.step.2 := by
  cases hb : h.beginning? with
  | none =>
      -- Where no instruction is begun, the step is a trap.
      obtain ⟨trap, h₁, hstep, -⟩ := step_of_unbegun hb
      rw [hstep] at hok
      cases hok
  | some start =>
      obtain ⟨word, h₁⟩ := start
      refine ⟨Instr.decode word, by rw [executed?, hb]; rfl, ?_⟩
      rw [step_of_beginning hb] at hok ⊢
      cases hrun : execute (Instr.decode word) word h₁ with
      | error e h' => rw [hrun] at hok; cases hok
      | ok u h' =>
          have hframed := execute_framed ((beginning_x hb 0).trans hzero) hrun
          exact hframed.of_beginning hb

/-- A hart in front of `amoadd.w x5, x6, (x5)` in a ROM, where `x5` points into a RAM behind it. -/
def beforeAmo : Hart Empty where
  pc := 0
  registers := (Registers.set {} 5 0x408).set 6 1
  bus :=
    { slots := #[
        some (.rom ⟨1, ⟨splice (Memory.zero pageSize).bytes 0 [0xaf, 0xa2, 0x62, 0x00]⟩⟩),
        some (.ram (Storage.ofPages 1))]
      windows := [⟨0, 1, 0⟩, ⟨0x400, 1, 1⟩]
      reservation := some 0x408 }

theorem step_framed_amo : beforeAmo.x 0 = 0 ∧ beforeAmo.step.1 = none
    ∧ Framed (.amo .add 5 5 6) beforeAmo beforeAmo.step.2 := by
  have hzero : beforeAmo.x 0 = 0 := by decide
  have hok : beforeAmo.step.1 = none := by decide +kernel
  have hexecuted : beforeAmo.executed? = some (.amo .add 5 5 6) := by decide +kernel
  obtain ⟨i, hi, hframed⟩ := step_framed hzero hok
  rw [hexecuted] at hi
  cases hi
  exact ⟨hzero, hok, hframed⟩

end Hart

end Rv32Soc
