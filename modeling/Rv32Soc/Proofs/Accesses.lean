import Rv32Soc.Proofs.ByteRows
import Rv32Soc.Proofs.Slots

/-!
# What an access does to the bus

Every access ends in one of few ways, and what it leaves can be said for each
of them in one equation. A load that is answered has put the device back that
answered. A store that is accepted has, besides, told the sources of what it
acknowledged and taken the reservation of its word. Neither moves a window,
and a load that arrives at a memory leaves no trace.
-/

namespace Rv32Soc

variable {ε : Type}

/-- The storage with a number laid over its bytes. -/
def Storage.written (s : Storage) (w : Width) (offset : Word) (value : BitVec w.bits) : Storage :=
  { s with memory := ⟨splice s.memory.bytes offset.toNat (disassemble value)⟩ }

theorem Storage.size_written (s : Storage) (w : Width) (offset : Word) (value : BitVec w.bits) :
    (s.written w offset value).memory.size = s.memory.size :=
  size_splice _ _ _

theorem Storage.inRange_written {s : Storage} {w : Width} {offset : Word} {value : BitVec w.bits}
    {place : Word} {length : Nat} : (s.written w offset value).memory.InRange place length
      ↔ s.memory.InRange place length := by
  rw [Memory.InRange, Memory.InRange, size_written]

theorem Storage.read_written {s : Storage} {w : Width} {offset : Word} (value : BitVec w.bits)
    (hinside : s.memory.InRange offset w.bytes) :
    (s.written w offset value).memory.read w offset = .ok value := by
  rw [Memory.read, if_pos (inRange_written.mpr hinside)]
  exact congrArg Except.ok (assemble_splice value hinside)

theorem Storage.read_written_of_apart {s : Storage} {v w : Width} {place offset : Word}
    (value : BitVec w.bits) (hinside : s.memory.InRange offset w.bytes)
    (hapart : place.toNat + v.bytes ≤ offset.toNat ∨ offset.toNat + w.bytes ≤ place.toNat) :
    (s.written w offset value).memory.read v place = s.memory.read v place := by
  by_cases hplace : s.memory.InRange place v.bytes
  · rw [Memory.read, if_pos (inRange_written.mpr hplace), Memory.read, if_pos hplace]
    exact congrArg Except.ok (assemble_splice_of_apart value hinside hapart)
  · rw [Memory.read, if_neg (fun h => hplace (inRange_written.mp h)), size_written, Memory.read,
      if_neg hplace]

namespace Bus

/-! ## What stays -/

/-- The bus is the same but for the journal. -/
def Noted (b b' : Bus ε) : Prop :=
  ∃ journal, b' = { b with journal }

theorem noted_of_eq {b b' : Bus ε} (h : b' = b) : Noted b b' :=
  ⟨b.journal, h⟩

/-- The windows and the reservation are the same. -/
structure Steady (b b' : Bus ε) : Prop where
  windows : b'.windows = b.windows
  reservation : b'.reservation = b.reservation

theorem Steady.refl (b : Bus ε) : Steady b b :=
  ⟨rfl, rfl⟩

theorem Steady.trans {b₁ b₂ b₃ : Bus ε} (h₁ : Steady b₁ b₂) (h₂ : Steady b₂ b₃) :
    Steady b₁ b₃ :=
  ⟨h₂.windows.trans h₁.windows, h₂.reservation.trans h₁.reservation⟩

theorem foldl_steady {α : Type} {f : Bus ε → α → Bus ε} (hf : ∀ b a, Steady b (f b a))
    (as : List α) (b : Bus ε) : Steady b (as.foldl f b) :=
  as.foldlRecOn f (.refl b) fun b' h a _ => h.trans (hf b' a)

theorem update_steady (b : Bus ε) (slot : Nat) (f : Device ε → Device ε) :
    Steady b (b.update slot f) := by
  unfold update
  split
  · exact .refl b
  · exact ⟨rfl, rfl⟩

/-- Every memory is the same as before. -/
def KeepsMemories (b b' : Bus ε) : Prop :=
  ∀ slot d, b.device? slot = some d → d.storage?.isSome → b'.device? slot = some d

theorem keepsMemories_of_slots {b b' : Bus ε} (h : b'.slots = b.slots) : KeepsMemories b b' := by
  intro slot d hd hmemory
  rw [← hd, device?, device?, h]

theorem KeepsMemories.trans {b₁ b₂ b₃ : Bus ε} (h₁ : KeepsMemories b₁ b₂)
    (h₂ : KeepsMemories b₂ b₃) : KeepsMemories b₁ b₃ :=
  fun slot d hd hmemory => h₂ slot d (h₁ slot d hd hmemory) hmemory

theorem keepsMemories_put {b : Bus ε} {slot : Nat} {d d' : Device ε}
    (hd : b.device? slot = some d) (hkept : d.storage?.isSome → d' = d) :
    KeepsMemories b (b.put slot d') := by
  intro other e he hmemory
  by_cases hslot : slot = other
  · subst hslot
    rw [hd] at he
    cases he
    rw [device?_put_self hd, hkept hmemory]
  · rw [device?_put_of_ne b hslot, he]

/-- A bus master is no memory. -/
theorem ne_of_external {b : Bus ε} {slot other : Nat} {e : ε} {d : Device ε}
    (he : b.device? slot = some (.external e)) (hd : b.device? other = some d)
    (hmemory : d.storage?.isSome) : slot ≠ other := by
  rintro rfl
  rw [he] at hd
  cases hd
  cases hmemory

theorem keepsMemories_vacate {b : Bus ε} {slot : Nat} {e : ε}
    (he : b.device? slot = some (.external e)) : KeepsMemories b (b.vacate slot) :=
  fun _ _ hd hmemory => (device?_vacate_of_ne b (ne_of_external he hd hmemory)).trans hd

/-- Memories that are kept while a bus master is away are kept when it is back. -/
theorem KeepsMemories.put_external {b b' : Bus ε} {slot : Nat} {e : ε}
    (h : KeepsMemories (b.vacate slot) b') (he : b.device? slot = some (.external e)) (e' : ε) :
    KeepsMemories b (b'.put slot (.external e')) := by
  intro other d hd hmemory
  have haway := h other d (keepsMemories_vacate he other d hd hmemory) hmemory
  exact (device?_put_of_ne b' (ne_of_external he hd hmemory) _).trans haway

theorem foldl_keepsMemories {α : Type} {f : Bus ε → α → Bus ε}
    (hf : ∀ b a, KeepsMemories b (f b a)) (as : List α) (b : Bus ε) :
    KeepsMemories b (as.foldl f b) :=
  as.foldlRecOn f (keepsMemories_of_slots rfl) fun b' h a _ => h.trans (hf b' a)

theorem isReserved_iff {b : Bus ε} {address : Word} :
    b.isReserved address = true ↔ b.reservation = some (wordAddress address) :=
  beq_iff_eq

theorem loseReservation_windows (b : Bus ε) (address : Word) :
    (b.loseReservation address).windows = b.windows := by
  unfold loseReservation
  split <;> rfl

theorem loseReservation_reservation (b : Bus ε) (address : Word) :
    (b.loseReservation address).reservation
      = if b.reservation = some (wordAddress address) then none else b.reservation := by
  unfold loseReservation
  by_cases h : b.reservation = some (wordAddress address)
  · rw [if_pos (isReserved_iff.mpr h), if_pos h]
    rfl
  · rw [if_neg (fun hreserved => h (isReserved_iff.mp hreserved)), if_neg h]

end Bus

variable [Peripheral ε]

/-! ## Memories as devices -/

/-- Of the memories only a RAM takes a store, and only inside. -/
theorem Device.write_memory_eq_ok {d d' : Device ε} (hd : d.storage?.isSome) {w : Width}
    {offset : Word} {value : BitVec w.bits} {told : List Acknowledgement} :
    Device.write w offset value d = .ok told d' ↔ ∃ s, d = .ram s
      ∧ s.memory.InRange offset w.bytes ∧ told = [] ∧ d' = .ram (s.written w offset value) := by
  cases d with
  | ram s =>
      simp only [Device.write, Storage.write, Memory.write]
      by_cases hinside : s.memory.InRange offset w.bytes
      · rw [if_pos hinside]
        constructor
        · intro h
          cases h
          exact ⟨s, rfl, hinside, rfl, rfl⟩
        · rintro ⟨t, ht, -, rfl, rfl⟩
          cases ht
          rfl
      · rw [if_neg hinside]
        constructor
        · intro h
          cases h
        · rintro ⟨t, ht, hinside', -⟩
          cases ht
          exact absurd hinside' hinside
  | rom s => simp [Device.write]
  | timer t | controller c | external e => cases hd

theorem Device.write_memory_eq_error {d d' : Device ε} (hd : d.storage?.isSome) {w : Width}
    {offset : Word} {value : BitVec w.bits} {e : AddressTrap}
    (h : Device.write w offset value d = .error e d') : d' = d := by
  cases d with
  | ram s =>
      simp only [Device.write, Storage.write, Memory.write] at h
      by_cases hinside : s.memory.InRange offset w.bytes
      · rw [if_pos hinside] at h
        cases h
      · rw [if_neg hinside] at h
        cases h
        rfl
  | rom s =>
      cases h
      rfl
  | timer t | controller c | external e => cases hd

theorem Device.read_memory {d : Device ε} {s : Storage} (hd : d.storage? = some s) {w : Width}
    {offset : Word} (hinside : s.memory.InRange offset w.bytes) :
    Device.read w offset d = .ok (assemble s.memory.bytes offset.toNat w.bytes) d := by
  cases d with
  | ram t | rom t =>
      cases hd
      simp only [Device.read, Storage.read, Memory.read]
      rw [if_pos hinside]
      rfl
  | timer t | controller c | external e => cases hd

theorem Device.stateAfter_read_memory {d : Device ε} (hd : d.storage?.isSome) (w : Width)
    (offset : Word) : stateAfter (Device.read w offset d) = d := by
  obtain hsame | ⟨e, e', rfl, -⟩ := read_leaves w offset d
  · exact hsame
  · cases hd

namespace Bus

/-! ## Ways to end -/

theorem load_eq_ok {w : Width} {address : Word} {value : BitVec w.bits} {b b' : Bus ε} :
    load w address b = .ok value b' ↔ w.Aligned address ∧ ∃ slot offset d d',
      b.route address = some (slot, offset) ∧ b.device? slot = some d
        ∧ Device.read w offset d = .ok value d' ∧ b' = b.put slot d' := by
  unfold load
  split
  · next haligned =>
      cases hroute : b.route address with
      | none => simp
      | some place =>
          obtain ⟨slot, offset⟩ := place
          unfold loadFrom
          cases hd : b.device? slot with
          | none => simp [visit_vacant hd, hd]
          | some d =>
              cases hread : Device.read w offset d with
              | error e d' => simp [visit_error hd hread, hd, hread]
              | ok v d' =>
                  simp only [visit_ok hd hread]
                  constructor
                  · intro h
                    cases h
                    exact ⟨haligned, slot, offset, d, d', rfl, hd, hread, rfl⟩
                  · rintro ⟨-, slot', offset', e, e', hplace, he, hvalue, rfl⟩
                    cases hplace
                    rw [hd] at he
                    cases he
                    rw [hread] at hvalue
                    cases hvalue
                    rfl
  · next hmisaligned => simp [hmisaligned]

/-- However a load ends, the bus is as it was, but for what the device has changed that has been
read. -/
theorem load_leaves (w : Width) (address : Word) (b : Bus ε) :
    stateAfter (load w address b) = b ∨ ∃ slot offset d, b.device? slot = some d
      ∧ stateAfter (load w address b) = b.put slot (stateAfter (Device.read w offset d)) := by
  unfold load
  split
  · split
    · exact .inl rfl
    · next slot offset hroute =>
        unfold loadFrom
        cases hd : b.device? slot with
        | none =>
            simp only [visit_vacant hd]
            exact .inl rfl
        | some d =>
            refine .inr ⟨slot, offset, d, hd, ?_⟩
            cases hread : Device.read w offset d with
            | ok value d' => simp only [visit_ok hd hread, stateAfter_ok]
            | error e d' => simp only [visit_error hd hread, stateAfter_error]
  · exact .inl rfl

theorem store_eq_ok {w : Width} {address : Word} {value : BitVec w.bits} {b b' : Bus ε} :
    store w address value b = .ok () b' ↔ w.Aligned address ∧ ∃ slot offset d told d',
      b.route address = some (slot, offset) ∧ b.device? slot = some d
        ∧ Device.write w offset value d = .ok told d'
        ∧ b' = ((b.put slot d').announce told).loseReservation address := by
  unfold store
  split
  · next haligned =>
      cases hroute : b.route address with
      | none => simp
      | some place =>
          obtain ⟨slot, offset⟩ := place
          unfold storeInto
          cases hd : b.device? slot with
          | none => simp [visit_vacant hd, hd]
          | some d =>
              cases hwrite : Device.write w offset value d with
              | error e d' => simp [visit_error hd hwrite, hd, hwrite]
              | ok told d' =>
                  simp only [visit_ok hd hwrite]
                  constructor
                  · intro h
                    cases h
                    exact ⟨haligned, slot, offset, d, told, d', rfl, hd, hwrite, rfl⟩
                  · rintro ⟨-, slot', offset', e, told', e', hplace, he, hstored, rfl⟩
                    cases hplace
                    rw [hd] at he
                    cases he
                    rw [hwrite] at hstored
                    cases hstored
                    rfl
  · next hmisaligned => simp [hmisaligned]

/-- A refused store leaves the bus as it was, but for what the device has changed that refused
it. -/
theorem store_eq_error {w : Width} {address : Word} {value : BitVec w.bits} {b b' : Bus ε}
    {trap : AddressTrap} (h : store w address value b = .error trap b') :
    b' = b ∨ ∃ slot offset d d' e, b.route address = some (slot, offset)
      ∧ b.device? slot = some d ∧ Device.write w offset value d = .error e d'
      ∧ b' = b.put slot d' := by
  unfold store at h
  split at h
  · cases hroute : b.route address with
    | none =>
        simp only [hroute] at h
        cases h
        exact .inl rfl
    | some place =>
        obtain ⟨slot, offset⟩ := place
        simp only [hroute, storeInto] at h
        cases hd : b.device? slot with
        | none =>
            simp only [visit_vacant hd] at h
            cases h
            exact .inl rfl
        | some d =>
            cases hwrite : Device.write w offset value d with
            | ok told d' =>
                simp only [visit_ok hd hwrite] at h
                cases h
            | error e d' =>
                simp only [visit_error hd hwrite] at h
                cases h
                exact .inr ⟨slot, offset, d, d', e, rfl, hd, hwrite, rfl⟩
  · cases h
    exact .inl rfl

theorem stateAfter_fetch_eq (address : Word) (b : Bus ε) :
    stateAfter (fetch address b) = stateAfter (load .word address b) := by
  unfold fetch
  split
  · split <;> next hload => rw [hload]; rfl
  · next hmisaligned =>
      rw [load, if_neg hmisaligned]
      rfl

/-! ## Windows and the reservation -/

theorem announce_steady (b : Bus ε) (told : List Acknowledgement) :
    Steady b (b.announce told) := by
  refine foldl_steady (fun b a => ?_) told b
  have htold : Steady b (a.sources.foldl tell b) :=
    foldl_steady (fun b slot => update_steady b slot Device.acknowledge) a.sources b
  exact ⟨htold.windows, htold.reservation⟩

theorem load_steady (w : Width) (address : Word) (b : Bus ε) :
    Steady b (stateAfter (load w address b)) := by
  obtain hsame | ⟨slot, offset, d, -, hput⟩ := load_leaves w address b
  · rw [hsame]
    exact .refl b
  · rw [hput]
    exact ⟨rfl, rfl⟩

theorem store_error_steady {w : Width} {address : Word} {value : BitVec w.bits} {b b' : Bus ε}
    {trap : AddressTrap} (h : store w address value b = .error trap b') : Steady b b' := by
  obtain rfl | ⟨slot, offset, d, d', e, -, -, -, rfl⟩ := store_eq_error h
  · exact .refl b'
  · exact ⟨rfl, rfl⟩

theorem store_windows {w : Width} {address : Word} {value : BitVec w.bits} {b b' : Bus ε}
    (h : store w address value b = .ok () b') : b'.windows = b.windows := by
  obtain ⟨-, slot, offset, d, told, d', -, -, -, rfl⟩ := store_eq_ok.mp h
  rw [loseReservation_windows]
  exact (announce_steady (b.put slot d') told).windows

/-- A store takes the reservation of its own word, and no other. -/
theorem store_reservation {w : Width} {address : Word} {value : BitVec w.bits} {b b' : Bus ε}
    (h : store w address value b = .ok () b') :
    b'.reservation
      = if b.reservation = some (wordAddress address) then none else b.reservation := by
  obtain ⟨-, slot, offset, d, told, d', -, -, -, rfl⟩ := store_eq_ok.mp h
  have hsteady := announce_steady (b.put slot d') told
  rw [loseReservation_reservation, hsteady.reservation]
  rfl

/-! ## Memories -/

theorem load_keepsMemories (w : Width) (address : Word) (b : Bus ε) :
    KeepsMemories b (stateAfter (load w address b)) := by
  obtain hsame | ⟨slot, offset, d, hd, hput⟩ := load_leaves w address b
  · rw [hsame]
    exact keepsMemories_of_slots rfl
  · rw [hput]
    exact keepsMemories_put hd fun hmemory => Device.stateAfter_read_memory hmemory w offset

theorem fetch_keepsMemories (address : Word) (b : Bus ε) :
    KeepsMemories b (stateAfter (fetch address b)) := by
  rw [stateAfter_fetch_eq]
  exact load_keepsMemories .word address b

theorem tell_keepsMemories (b : Bus ε) (slot : Nat) : KeepsMemories b (b.tell slot) := by
  unfold tell update
  split
  · exact keepsMemories_of_slots rfl
  · next d hd =>
      rw [put_vacate]
      refine keepsMemories_put hd fun hmemory => ?_
      cases d with
      | ram s | rom s => rfl
      | timer t | controller c | external e => cases hmemory

theorem announce_keepsMemories (b : Bus ε) (told : List Acknowledgement) :
    KeepsMemories b (b.announce told) := by
  refine foldl_keepsMemories (fun b a => ?_) told b
  have htold : KeepsMemories b (a.sources.foldl tell b) :=
    foldl_keepsMemories tell_keepsMemories a.sources b
  exact htold.trans (keepsMemories_of_slots rfl)

theorem store_error_keepsMemories {w : Width} {address : Word} {value : BitVec w.bits}
    {b b' : Bus ε} {trap : AddressTrap} (h : store w address value b = .error trap b') :
    KeepsMemories b b' := by
  obtain rfl | ⟨slot, offset, d, d', e, -, hd, hwrite, rfl⟩ := store_eq_error h
  · exact keepsMemories_of_slots rfl
  · exact keepsMemories_put hd fun hmemory => Device.write_memory_eq_error hmemory hwrite

/-- A store that is accepted writes the memory that its address leads to, and no other. -/
theorem store_memories {w : Width} {address : Word} {value : BitVec w.bits} {b b' : Bus ε}
    (h : store w address value b = .ok () b') :
    ∃ slot offset, b.route address = some (slot, offset)
      ∧ ∀ other d, b.device? other = some d → d.storage?.isSome →
        if other = slot then ∃ s, d = .ram s ∧ s.memory.InRange offset w.bytes
          ∧ b'.device? other = some (.ram (s.written w offset value))
        else b'.device? other = some d := by
  obtain ⟨-, slot, offset, d, told, d', hroute, hd, hwrite, rfl⟩ := store_eq_ok.mp h
  refine ⟨slot, offset, hroute, ?_⟩
  have hafter : KeepsMemories (b.put slot d')
      (((b.put slot d').announce told).loseReservation address) := by
    refine (announce_keepsMemories _ told).trans (keepsMemories_of_slots ?_)
    unfold loseReservation
    split <;> rfl
  intro other e he hmemory
  split
  · next hslot =>
      subst hslot
      rw [hd] at he
      cases he
      obtain ⟨s, rfl, hinside, -, rfl⟩ := (Device.write_memory_eq_ok hmemory).mp hwrite
      exact ⟨s, rfl, hinside, hafter _ _ (device?_put_self hd) rfl⟩
  · next hslot =>
      apply hafter other e _ hmemory
      rw [device?_put_of_ne b (Ne.symm hslot), he]

end Bus

end Rv32Soc
