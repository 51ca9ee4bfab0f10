import Mathlib.Data.Nat.Log
import Rv32Soc.Proofs.ByteRows
import Rv32Soc.Proofs.Reservations

/-!
# No update is lost

A program updates a word by loading it reserved and storing it conditionally.
If that store succeeds, nobody has stored to the word in between: the word is
in a RAM, and every store that reaches it there, of whatever width and from
whomever, takes the reservation away.

Two things come together. A history that leaves a word reserved consists, from
the last load-reserved on, of stores to other words only. And a store to
another word does not write into this one: it stays within its own word, in
another memory or in other bytes of the same.
-/

namespace Rv32Soc

/-! ## Words -/

theorem wordAddress_toNat (address : Word) :
    (wordAddress address).toNat = address.toNat / 4 * 4 :=
  toNat_and_not_lowBits address 2

theorem wordAddress_eq_iff {a b : Word} :
    wordAddress a = wordAddress b ↔ a.toNat / 4 = b.toNat / 4 := by
  rw [← BitVec.toNat_inj, wordAddress_toNat, wordAddress_toNat]
  omega

theorem eq_of_wordAddress {a b : Word} (ha : Width.Aligned .word a) (hb : Width.Aligned .word b)
    (h : wordAddress a = wordAddress b) : a = b := by
  rw [wordAddress_eq_iff] at h
  simp only [Width.Aligned, Width.bytes] at ha hb
  apply BitVec.eq_of_toNat_eq
  omega

/-- An aligned access stays within its word. -/
theorem apart_of_wordAddress {w : Width} {a b : Word} (ha : w.Aligned a)
    (hb : Width.Aligned .word b) (h : wordAddress a ≠ wordAddress b) :
    b.toNat + 4 ≤ a.toNat ∨ a.toNat + w.bytes ≤ b.toNat := by
  rw [Ne, wordAddress_eq_iff] at h
  cases w <;> simp only [Width.Aligned, Width.bytes] at ha hb ⊢ <;> omega

variable {ε : Type} [Peripheral ε]

/-! ## A word in a memory -/

namespace Bus

/-- The window is one of those of a bus, and the only one on its slot. -/
structure Sole (w : Window) (windows : List Window) : Prop where
  laid : Laid windows
  mem : w ∈ windows
  alone : ∀ v ∈ windows, v.slot = w.slot → v = w

/-- The word at an address is in a RAM that shows in one window only. -/
structure Home (w : Window) (address : Word) (b : Bus ε) (s : Storage) : Prop where
  sole : Sole w b.windows
  holds : w.Holds address
  ram : b.device? w.slot = some (.ram s)

/-- The word at an address that is in a storage. -/
def wordIn (w : Window) (address : Word) (s : Storage) : Except MemoryError Word :=
  s.memory.read .word (address - w.base)

/-- The bus answers a load of the word at an address, and is left as it was. -/
def Answers (b : Bus ε) (address value : Word) : Prop :=
  Bus.load .word address b = .ok value b

section Homes

variable {w : Window} {address : Word} {b b' : Bus ε} {s : Storage}

omit [Peripheral ε] in
theorem Home.of_keepsMemories (h : Home w address b s) (hwindows : b'.windows = b.windows)
    (hkept : KeepsMemories b b') : Home w address b' s :=
  ⟨hwindows ▸ h.sole, h.holds, hkept w.slot (.ram s) h.ram rfl⟩

omit [Peripheral ε] in
theorem Home.route (h : Home w address b s) :
    b.route address = some (w.slot, address - w.base) :=
  route_of_holds h.sole.laid h.sole.mem h.holds

theorem Home.answers (h : Home w address b s) (haligned : Width.Aligned .word address)
    {value : Word} (hvalue : wordIn w address s = .ok value) : b.Answers address value := by
  have hread : Device.read .word (address - w.base) (.ram s : Device ε)
      = .ok value (.ram s) := by
    simp only [wordIn] at hvalue
    simp only [Device.read, Storage.read, hvalue]
    rfl
  exact load_eq_ok.mpr ⟨haligned, w.slot, address - w.base, .ram s, .ram s, h.route, h.ram, hread,
    (put_self h.ram).symm⟩

theorem Home.of_load (h : Home w address b s) {value : Word}
    (hload : Bus.load .word address b = .ok value b') : wordIn w address s = .ok value := by
  obtain ⟨-, slot, offset, d, d', hroute, hd, hread, rfl⟩ := load_eq_ok.mp hload
  rw [h.route] at hroute
  cases hroute
  rw [h.ram] at hd
  cases hd
  simp only [Device.read, Storage.read] at hread
  cases hvalue : s.memory.read .word (address - w.base) with
  | ok v =>
      rw [hvalue] at hread
      cases hread
      exact hvalue
  | error e =>
      rw [hvalue] at hread
      cases hread

/-- A store to the window writes the memory behind it, and no other store does. -/
theorem Home.store (h : Home w address b s) {width : Width} {other : Word}
    {value : BitVec width.bits} (hstore : Bus.store width other value b = .ok () b') :
    ∃ s', Home w address b' s' ∧ ((¬w.Holds other ∧ s' = s) ∨ (w.Holds other
      ∧ s.memory.InRange (other - w.base) width.bytes
      ∧ s' = s.written width (other - w.base) value)) := by
  obtain ⟨slot, offset, hroute, hmemories⟩ := store_memories hstore
  have hwindows := store_windows hstore
  have hram := hmemories w.slot (.ram s) h.ram rfl
  have hhome : ∀ s', b'.device? w.slot = some (.ram s') → Home w address b' s' :=
    fun s' hs' => ⟨hwindows ▸ h.sole, h.holds, hs'⟩
  split at hram
  · next hslot =>
      obtain ⟨t, ht, hinside, hwritten⟩ := hram
      cases ht
      obtain ⟨v, hv, hholds, hv', hoffset⟩ := route_eq_some h.sole.laid hroute
      obtain rfl : v = w := h.sole.alone v hv (hv'.symm.trans hslot.symm)
      subst hoffset
      exact ⟨_, hhome _ hwritten, .inr ⟨hholds, hinside, rfl⟩⟩
  · next hslot =>
      refine ⟨s, hhome s hram, .inl ⟨fun hholds => hslot ?_, rfl⟩⟩
      rw [route_of_holds h.sole.laid h.sole.mem hholds] at hroute
      cases hroute
      rfl

theorem Home.store_elsewhere (h : Home w address b s) (haligned : Width.Aligned .word address)
    {width : Width} {other : Word} {value : BitVec width.bits}
    (hstore : Bus.store width other value b = .ok () b')
    (hother : wordAddress other ≠ wordAddress address) :
    ∃ s', Home w address b' s' ∧ wordIn w address s' = wordIn w address s := by
  obtain ⟨s', hhome, ⟨-, rfl⟩ | ⟨hholds, hinside, rfl⟩⟩ := h.store hstore
  · exact ⟨s', hhome, rfl⟩
  · refine ⟨_, hhome, ?_⟩
    have hapart := apart_of_wordAddress (store_eq_ok.mp hstore).1 haligned hother
    have hplace : (address - w.base).toNat = address.toNat - w.base.toNat :=
      BitVec.toNat_sub_of_le h.holds.1
    have hstart : (other - w.base).toNat = other.toNat - w.base.toNat :=
      BitVec.toNat_sub_of_le hholds.1
    have hfrom := h.holds.1
    have hfrom' := hholds.1
    refine Storage.read_written_of_apart value hinside ?_
    simp only [Width.bytes] at hapart ⊢
    omega

theorem Home.store_here (h : Home w address b s) {value : Word}
    (hstore : Bus.store .word address value b = .ok () b') :
    ∃ s', Home w address b' s' ∧ wordIn w address s' = .ok value := by
  obtain ⟨s', hhome, ⟨hnot, -⟩ | ⟨-, hinside, rfl⟩⟩ := h.store hstore
  · exact absurd h.holds hnot
  · exact ⟨_, hhome, Storage.read_written (w := .word) value hinside⟩

end Homes

end Bus

/-! ## The word over a run -/

/-- The mark is no write to the word of an address. -/
def Mark.Leaves (address : Word) : Mark → Prop
  | reserved _ | restarted => True
  | conditional => False
  | stored other => wordAddress other ≠ wordAddress address

namespace Bus

/-- A word in a RAM stays there, and is the same unless a mark tells of a write to it. -/
def KeepsWord (w : Window) (address : Word) (b : Bus ε) (marks : List Mark) (b' : Bus ε) : Prop :=
  ∀ s, Home w address b s → ∃ s', Home w address b' s'
    ∧ ((∀ m ∈ marks, m.Leaves address) → wordIn w address s' = wordIn w address s)

omit [Peripheral ε] in
theorem keepsWord_of_keepsMemories {w : Window} {address : Word} {b b' : Bus ε}
    {marks : List Mark} (hwindows : b'.windows = b.windows) (hkept : KeepsMemories b b') :
    KeepsWord w address b marks b' :=
  fun s h => ⟨s, h.of_keepsMemories hwindows hkept, fun _ => rfl⟩

theorem word_chronicle (w : Window) {address : Word} (haligned : Width.Aligned .word address) :
    Chronicle (@KeepsWord ε w address) where
  noted := by
    rintro b b' ⟨journal, rfl⟩
    exact keepsWord_of_keepsMemories rfl (keepsMemories_of_slots rfl)
  append := by
    intro b₁ xs b₂ ys b₃ h₁ h₂ s h
    obtain ⟨s₁, hhome₁, hsame₁⟩ := h₁ s h
    obtain ⟨s₂, hhome₂, hsame₂⟩ := h₂ s₁ hhome₁
    refine ⟨s₂, hhome₂, fun hleaves => ?_⟩
    rw [hsame₂ fun m hm => hleaves m (List.mem_append_right _ hm),
      hsame₁ fun m hm => hleaves m (List.mem_append_left _ hm)]
  load width other b :=
    keepsWord_of_keepsMemories (load_steady width other b).windows
      (load_keepsMemories width other b)
  store := by
    intro width other value b b' hstore s h
    by_cases hword : wordAddress other = wordAddress address
    · obtain ⟨s', hhome, -⟩ := h.store hstore
      refine ⟨s', hhome, fun hleaves => ?_⟩
      exact absurd hword (hleaves (.stored other) (List.mem_singleton.mpr rfl))
    · obtain ⟨s', hhome, hsame⟩ := h.store_elsewhere haligned hstore hword
      exact ⟨s', hhome, fun _ => hsame⟩
  refused hstore :=
    keepsWord_of_keepsMemories (store_error_steady hstore).windows
      (store_error_keepsMemories hstore)
  reserve _ _ := keepsWord_of_keepsMemories rfl (keepsMemories_of_slots rfl)
  conditional _ := keepsWord_of_keepsMemories rfl (keepsMemories_of_slots rfl)
  conditionalStore := by
    intro other value b b' hstore s h
    obtain ⟨s', hhome, -⟩ := h.store hstore
    refine ⟨s', hhome.of_keepsMemories rfl (keepsMemories_of_slots rfl), fun hleaves => ?_⟩
    exact absurd (hleaves .conditional (List.mem_singleton.mpr rfl)) id
  restart _ := keepsWord_of_keepsMemories rfl (keepsMemories_of_slots rfl)
  put := by
    intro b slot d d' hd hnone
    refine keepsWord_of_keepsMemories rfl (keepsMemories_put hd fun hmemory => ?_)
    rw [hnone] at hmemory
    cases hmemory
  turn := by
    -- The bus master is in a slot of its own, which is neither left nor taken by the RAM.
    intro b slot e marks b' e' hd hturn s h
    have hslot : slot ≠ w.slot := by
      rintro rfl
      have hram := h.ram
      rw [hd] at hram
      cases hram
    have haway : Home w address (b.vacate slot) s :=
      ⟨h.sole, h.holds, (device?_vacate_of_ne b hslot).trans h.ram⟩
    obtain ⟨s', hhome, hsame⟩ := hturn s haway
    have hback : Home w address (b'.put slot (.external e')) s' :=
      ⟨hhome.sole, hhome.holds, (device?_put_of_ne b' hslot _).trans hhome.ram⟩
    exact ⟨s', hback, hsame⟩

end Bus

/-! ## The last load-reserved

A reservation that is there has come from a load-reserved, and only steps of
the hart can be one. From the last one on a mark can keep the reservation only
by being a store to another word.
-/

/-- The mark is a store to another word. -/
def Mark.Misses (address : Word) (m : Mark) : Prop :=
  ∃ other, m = .stored other ∧ wordAddress other ≠ wordAddress address

theorem Mark.Misses.leaves {address : Word} {m : Mark} (h : m.Misses address) :
    m.Leaves address := by
  obtain ⟨other, rfl, hother⟩ := h
  exact hother

/-- Marks that reserve nothing keep a reservation only if all of them are stores to other
words. -/
theorem misses_of_foldl_effect {marks : List Mark} {reservation : Option Word} {address : Word}
    (hnot : ∀ other, .reserved other ∉ marks)
    (h : marks.foldl Mark.effect reservation = some (wordAddress address)) :
    reservation = some (wordAddress address) ∧ ∀ m ∈ marks, m.Misses address := by
  induction marks generalizing reservation with
  | nil => exact ⟨h, nofun⟩
  | cons m rest ih =>
      have hrest : ∀ other, .reserved other ∉ rest :=
        fun other hmem => hnot other (List.mem_cons_of_mem m hmem)
      obtain ⟨heffect, hmisses⟩ := ih hrest h
      obtain ⟨other, rfl, -⟩ | ⟨hspares, hreserved⟩ := Mark.effect_eq_some.mp heffect
      · exact absurd List.mem_cons_self (hnot other)
      · refine ⟨hreserved, ?_⟩
        intro m' hm'
        obtain rfl | hm' := List.mem_cons.mp hm'
        · cases m' with
          | reserved other => exact absurd List.mem_cons_self (hnot other)
          | conditional | restarted => exact absurd hspares id
          | stored other => exact ⟨other, rfl, hspares⟩
        · exact hmisses m' hm'

namespace Hart

open Isa

theorem reserved_notMem_requestMarks (b : Bus ε) (request : Request) (address : Word) :
    .reserved address ∉ b.requestMarks request := by
  cases request with
  | load width other => exact List.not_mem_nil
  | store width other value =>
      simp only [Bus.requestMarks]
      split <;> simp

theorem reserved_notMem_scriptMarks {α : Type} (script : Script α) (b : Bus ε) (address : Word) :
    .reserved address ∉ Bus.scriptMarks script b := by
  induction script generalizing b with
  | done result => exact List.not_mem_nil
  | ask request next ih =>
      rw [Bus.scriptMarks, List.mem_append, not_or]
      exact ⟨reserved_notMem_requestMarks b request address, ih _ _⟩

theorem reserved_notMem_turnMarks (b : Bus ε) (slot : Nat) (turn : ε → Script ε)
    (address : Word) : .reserved address ∉ b.turnMarks slot turn := by
  unfold Bus.turnMarks
  split
  · exact reserved_notMem_scriptMarks _ _ _
  · exact List.not_mem_nil

theorem stepMarks_of_reserved {h : Hart ε} {address : Word}
    (hmem : .reserved address ∈ h.stepMarks) :
    h.stepMarks = [.reserved address] ∧ h.step.1 = none
      ∧ ∃ dest base, h.executed? = some (.loadReserved dest base) ∧ h.x base = address := by
  unfold stepMarks at hmem ⊢
  split at hmem
  · exact absurd hmem List.not_mem_nil
  · next i hexecuted =>
      split at hmem
      · exact absurd (List.mem_singleton.mp hmem) nofun
      · split at hmem
        · next hretired =>
            have hnone := Option.isNone_iff_eq_none.mp hretired
            cases i with
            | loadReserved dest base =>
                obtain rfl := Mark.reserved.inj (List.mem_singleton.mp hmem)
                refine ⟨?_, hnone, dest, base, hexecuted, rfl⟩
                simp [hnone, Instr.isStoreConditional, instrMarks]
            | _ => simp [instrMarks] at hmem
        · exact absurd hmem List.not_mem_nil

theorem eq_step_of_reserved {h : Hart ε} {e : Event} {address : Word}
    (hmem : .reserved address ∈ e.marks h) : e = .step := by
  cases e with
  | step => rfl
  | access request => exact absurd hmem (reserved_notMem_requestMarks h.bus request address)
  | cycle slot => exact absurd hmem (reserved_notMem_turnMarks _ _ _ _)
  | timestep slot => exact absurd hmem (reserved_notMem_turnMarks _ _ _ _)
  | raise => exact absurd hmem List.not_mem_nil
  | reset => exact absurd (List.mem_singleton.mp hmem) nofun

/-- Behind a reservation is a load-reserved, and from there on all marks are stores to other
words. -/
theorem loadReserved_of_reservation {h : Hart ε} (hnone : h.bus.reservation = none)
    {events : List Event} {address : Word}
    (hreserved : (h.run events).bus.reservation = some (wordAddress address)) :
    ∃ before after other, events = before ++ .step :: after
      ∧ .reserved other ∈ (h.run before).stepMarks ∧ wordAddress other = wordAddress address
      ∧ ∀ m ∈ (h.run (before ++ [.step])).history after, m.Misses address := by
  induction events using List.reverseRecOn with
  | nil =>
      rw [show h.run [] = h from rfl, hnone] at hreserved
      cases hreserved
  | append_singleton events e ih =>
      have hlast := event_chronicled Bus.reservation_chronicle (h.run events) e
      rw [run_append] at hreserved
      rw [show (h.run events).run [e] = e.apply (h.run events) from rfl, hlast] at hreserved
      -- Either the last event is the load-reserved, or the reservation was there before it.
      by_cases hload : ∃ other, .reserved other ∈ e.marks (h.run events)
      · obtain ⟨other, hmem⟩ := hload
        obtain rfl := eq_step_of_reserved hmem
        have hmarks : Event.marks (h.run events) .step = [.reserved other] :=
          (stepMarks_of_reserved hmem).1
        rw [hmarks] at hreserved
        exact ⟨events, [], other, rfl, hmem, Option.some.inj hreserved, nofun⟩
      · obtain ⟨hbefore, hmisses⟩ := misses_of_foldl_effect (not_exists.mp hload) hreserved
        obtain ⟨before, after, other, rfl, hmem, hword, hafter⟩ := ih hbefore
        refine ⟨before, after ++ [e], other, by simp, hmem, hword, ?_⟩
        rw [history_append, ← run_append, List.append_assoc, List.singleton_append]
        intro m hm
        obtain hm | hm := List.mem_append.mp hm
        · exact hafter m hm
        · rw [history, history, List.append_nil] at hm
          exact hmisses m hm

/-! ## Reading and storing the word -/

/-- The address of the load-reserved that the next step executes and the value that it reads, if
it retires. -/
def reservedLoad? (h : Hart ε) : Option (Word × Word) :=
  match h.beginning? with
  | none => none
  | some (word, h₁) =>
      match Instr.decode word with
      | .loadReserved _ base =>
          match Bus.load .word (h.x base) h₁.bus with
          | .ok value _ => some (h.x base, value)
          | .error .. => none
      | _ => none

/-- The address of the store-conditional that the next step executes and the value that it stores,
if it retires with status 0. -/
def conditionalStore? (h : Hart ε) : Option (Word × Word) :=
  match h.beginning? with
  | none => none
  | some (word, h₁) =>
      match Instr.decode word with
      | .storeConditional _ base src =>
          match tryStore base src h₁ with
          | .ok status _ => if status = 0 then some (h.x base, h.x src) else none
          | .error .. => none
      | _ => none

theorem reservedLoad?_eq_some {h : Hart ε} {address value : Word}
    (hloads : h.reservedLoad? = some (address, value)) :
    ∃ word h₁ dest base b, h.beginning? = some (word, h₁)
      ∧ Instr.decode word = .loadReserved dest base ∧ h.x base = address
      ∧ Bus.load .word address h₁.bus = .ok value b
      ∧ h.step = (none, { h₁ with bus := b.reserve address }.finished dest value) := by
  unfold reservedLoad? at hloads
  split at hloads
  · cases hloads
  · next word h₁ hb =>
      split at hloads
      · next dest base hdecode =>
          split at hloads
          · next read b hload =>
              cases hloads
              refine ⟨word, h₁, dest, base, b, hb, hdecode, rfl, hload, ?_⟩
              rw [step_of_beginning hb, hdecode, execute, executeLoadReserved_apply,
                beginning_x hb base, hload]
          · cases hloads
      · cases hloads

theorem conditionalStore?_eq_some {h : Hart ε} {address value : Word}
    (hstores : h.conditionalStore? = some (address, value)) :
    ∃ word h₁ dest base src h₂, h.beginning? = some (word, h₁)
      ∧ Instr.decode word = .storeConditional dest base src
      ∧ h.x base = address ∧ h.x src = value ∧ tryStore base src h₁ = .ok 0 h₂
      ∧ h.step = (none, (h₂.note (.storedConditionally address 0)).finished dest 0) := by
  unfold conditionalStore? at hstores
  split at hstores
  · cases hstores
  · next word h₁ hb =>
      split at hstores
      · next dest base src hdecode =>
          split at hstores
          · next status h₂ htry =>
              split at hstores
              · next hzero =>
                  subst hzero
                  cases hstores
                  refine ⟨word, h₁, dest, base, src, h₂, hb, hdecode, rfl, rfl, htry, ?_⟩
                  rw [step_of_conditional hb hdecode, htry, beginning_x hb base]
              · cases hstores
          · cases hstores
      · cases hstores

theorem reservedLoad?_of_mem {h : Hart ε} {address : Word}
    (hmem : .reserved address ∈ h.stepMarks) :
    ∃ value, h.reservedLoad? = some (address, value) := by
  obtain ⟨-, hretired, dest, base, hexecuted, rfl⟩ := stepMarks_of_reserved hmem
  obtain ⟨⟨word, h₁⟩, hb, hdecode⟩ := Option.map_eq_some_iff.mp hexecuted
  have hdecode : Instr.decode word = .loadReserved dest base := hdecode
  cases hload : Bus.load .word (h.x base) h₁.bus with
  | ok value b =>
      refine ⟨value, ?_⟩
      simp only [reservedLoad?, hb, hdecode, hload]
  | error trap b =>
      rw [step_of_beginning hb, hdecode, execute, executeLoadReserved_apply, beginning_x hb base,
        hload] at hretired
      cases hretired

section Word

variable {h : Hart ε} {w : Window} {s : Storage} {address value : Word}

theorem reservedLoad_aligned (hloads : h.reservedLoad? = some (address, value)) :
    Width.Aligned .word address := by
  obtain ⟨word, h₁, dest, base, b, -, -, -, hload, -⟩ := reservedLoad?_eq_some hloads
  exact (Bus.load_eq_ok.mp hload).1

/-- A load-reserved reads the word as it is before the step. -/
theorem wordIn_of_reservedLoad (hhome : Bus.Home w address h.bus s)
    (hloads : h.reservedLoad? = some (address, value)) : Bus.wordIn w address s = .ok value := by
  obtain ⟨word, h₁, dest, base, b, hb, -, -, hload, -⟩ := reservedLoad?_eq_some hloads
  obtain ⟨s₁, hhome₁, hsame⟩ :=
    beginning_chronicled (Bus.word_chronicle w (reservedLoad_aligned hloads)) hb s hhome
  rw [← hsame nofun]
  exact hhome₁.of_load hload

/-- The word is the same as long as the marks tell of no write to it. -/
theorem run_answers (hhome : Bus.Home w address h.bus s) (haligned : Width.Aligned .word address)
    (hvalue : Bus.wordIn w address s = .ok value) {events : List Event}
    (hleaves : ∀ m ∈ h.history events, m.Leaves address) :
    (h.run events).bus.Answers address value := by
  obtain ⟨s₁, hhome₁, hsame⟩ := run_chronicled (Bus.word_chronicle w haligned) h events s hhome
  exact hhome₁.answers haligned ((hsame hleaves).trans hvalue)

theorem conditionalStore_reserved (hstores : h.conditionalStore? = some (address, value)) :
    Width.Aligned .word address ∧ h.bus.reservation = some (wordAddress address) := by
  obtain ⟨word, h₁, dest, base, src, h₂, hb, -, hbase, -, hzero, -⟩ :=
    conditionalStore?_eq_some hstores
  obtain ⟨haligned, hreserved, -⟩ := tryStore_eq_zero hzero
  rw [beginning_x hb base, hbase] at haligned hreserved
  rw [beginning_isReserved hb] at hreserved
  exact ⟨haligned, Bus.isReserved_iff.mp hreserved⟩

/-- A store-conditional that succeeds leaves what it has stored. -/
theorem step_answers (hhome : Bus.Home w address h.bus s)
    (hstores : h.conditionalStore? = some (address, value)) :
    h.step.2.bus.Answers address value := by
  obtain ⟨haligned, -⟩ := conditionalStore_reserved hstores
  obtain ⟨word, h₁, dest, base, src, h₂, hb, -, hbase, hsrc, hzero, hstep⟩ :=
    conditionalStore?_eq_some hstores
  obtain ⟨-, -, b, hstore, rfl⟩ := tryStore_eq_zero hzero
  rw [beginning_x hb base, hbase, beginning_x hb src, hsrc] at hstore
  obtain ⟨s₁, hhome₁, -⟩ := beginning_chronicled (Bus.word_chronicle w haligned) hb s hhome
  obtain ⟨s₂, hhome₂, hvalue⟩ := hhome₁.store_here hstore
  have hleft : Bus.Home w address (b.unreserve.note (.storedConditionally address 0)) s₂ :=
    hhome₂.of_keepsMemories rfl (Bus.keepsMemories_of_slots rfl)
  rw [hstep]
  exact hleft.answers haligned hvalue

end Word

/-- A word in a RAM that is attached once loses no update. If a store-conditional on it retires
with status 0, the last load-reserved was on it and nobody has stored to it since then: it has
been all the time what that load-reserved read, and is now what has been stored. -/
theorem no_update_lost {calls : List (Bus.Setup ε)} {events : List Event} {w : Window}
    {s : Storage} {address value : Word} (hw : w ∈ (Bus.setUp calls).windows)
    (hram : (Bus.setUp calls).device? w.slot = some (.ram s))
    (halone : ∀ v ∈ (Bus.setUp calls).windows, v.slot = w.slot → v = w)
    (hholds : w.Holds address)
    (hstores : ((fresh calls).run events).conditionalStore? = some (address, value)) :
    ∃ before after read, events = before ++ .step :: after
      ∧ ((fresh calls).run before).reservedLoad? = some (address, read)
      ∧ (∀ m ∈ ((fresh calls).run (before ++ [.step])).history after, m.Misses address)
      ∧ (∀ earlier later, after = earlier ++ later →
          ((fresh calls).run (before ++ .step :: earlier)).bus.Answers address read)
      ∧ ((fresh calls).run (events ++ [.step])).bus.Answers address value := by
  obtain ⟨haligned, hreservation⟩ := conditionalStore_reserved hstores
  have hhome : Bus.Home w address (fresh calls).bus s :=
    ⟨⟨Bus.laid_setUp calls, hw, halone⟩, hholds, hram⟩
  have hhomes := run_chronicled (Bus.word_chronicle w haligned) (fresh calls)
  obtain ⟨before, after, other, hevents, hmem, hword, hmisses⟩ :=
    loadReserved_of_reservation (Bus.setUp_reservation calls) hreservation
  obtain ⟨read, hloads⟩ := reservedLoad?_of_mem hmem
  obtain rfl : other = address :=
    eq_of_wordAddress (reservedLoad_aligned hloads) haligned hword
  refine ⟨before, after, read, hevents, hloads, hmisses, ?_, ?_⟩
  · rintro earlier later rfl
    obtain ⟨s₁, hhome₁, -⟩ := hhomes before s hhome
    rw [run_append]
    refine run_answers hhome₁ haligned (wordIn_of_reservedLoad hhome₁ hloads) fun m hm => ?_
    obtain hm | hm := List.mem_append.mp hm
    · have hmarks : Event.marks ((fresh calls).run before) .step = [.reserved other] :=
        (stepMarks_of_reserved hmem).1
      rw [hmarks] at hm
      rw [List.mem_singleton.mp hm]
      exact trivial
    · refine (hmisses m ?_).leaves
      rw [history_append, run_append]
      exact List.mem_append_left _ hm
  · obtain ⟨s₁, hhome₁, -⟩ := hhomes events s hhome
    rw [run_append]
    exact step_answers hhome₁ hstores

theorem no_update_lost_pair :
    ((fresh pairCalls).run pairEvents).conditionalStore? = some (0, 42)
      ∧ ((fresh pairCalls).run (pairEvents ++ [.step])).bus.Answers 0 42
      ∧ ∃ before after read, pairEvents = before ++ .step :: after
        ∧ ((fresh pairCalls).run before).reservedLoad? = some (0, read) := by
  have hstores : ((fresh pairCalls).run pairEvents).conditionalStore? = some (0, 42) := by
    decide +kernel
  have hwindows : (Bus.setUp pairCalls).windows = [⟨0, 1, 0⟩] := by
    decide +kernel
  have halone : ∀ v ∈ (Bus.setUp pairCalls).windows, v.slot = 0 → v = ⟨0, 1, 0⟩ := by
    rw [hwindows]
    exact fun v hv _ => List.mem_singleton.mp hv
  obtain ⟨before, after, read, hevents, hloads, -, -, hanswers⟩ :=
    no_update_lost (w := ⟨0, 1, 0⟩) (s := pairMemory) (by rw [hwindows]; exact List.mem_singleton_self _)
      rfl halone (by decide) hstores
  exact ⟨hstores, hanswers, before, after, read, hevents, hloads⟩

end Hart

end Rv32Soc
