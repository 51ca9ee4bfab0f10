import Rv32Soc.Bus.Access

/-!
# What a visit to a slot does

A device acts only while its slot is vacant, and is put back when it is done.
So the bus after a visit is the bus before it with one slot rewritten, and a
device that comes back as it went leaves no trace at all. The four kinds of
this library come back as they went from every load and from every store they
refuse; where there are no others, such an access is as good as none.
-/

namespace Rv32Soc

/-- The state that a step leaves, whether it succeeded or failed. -/
def stateAfter {ε σ α : Type} : EStateM.Result ε σ α → σ
  | .ok _ s => s
  | .error _ s => s

@[simp]
theorem stateAfter_ok {ε σ α : Type} (a : α) (s : σ) :
    stateAfter (.ok a s : EStateM.Result ε σ α) = s := rfl

@[simp]
theorem stateAfter_error {ε σ α : Type} (e : ε) (s : σ) :
    stateAfter (.error e s : EStateM.Result ε σ α) = s := rfl

namespace Bus

variable {ε : Type}

/-! ## Slots -/

theorem slots_of_device? {b : Bus ε} {slot : Nat} {d : Device ε}
    (h : b.device? slot = some d) : b.slots[slot]? = some (some d) :=
  Option.join_eq_some_iff.mp h

theorem lt_size_of_device? {b : Bus ε} {slot : Nat} {d : Device ε}
    (h : b.device? slot = some d) : slot < b.slots.size :=
  (Array.getElem?_eq_some_iff.mp (slots_of_device? h)).1

/-- Vacating a slot on the way leaves no trace once a device is put there. -/
@[simp]
theorem put_vacate (b : Bus ε) (slot : Nat) (d : Device ε) :
    (b.vacate slot).put slot d = b.put slot d := by
  simp [put, vacate, Array.setIfInBounds_setIfInBounds]

theorem put_self {b : Bus ε} {slot : Nat} {d : Device ε}
    (h : b.device? slot = some d) : b.put slot d = b := by
  obtain ⟨hlt, heq⟩ := Array.getElem?_eq_some_iff.mp (slots_of_device? h)
  have hset : b.slots.setIfInBounds slot (some d) = b.slots := by
    rw [Array.setIfInBounds, dif_pos hlt, ← heq, Array.set_getElem_self]
  rw [put, hset]

theorem device?_put (b : Bus ε) (slot other : Nat) (d : Device ε) :
    (b.put slot d).device? other
      = if slot = other ∧ slot < b.slots.size then some d else b.device? other := by
  simp only [device?, put, Array.getElem?_setIfInBounds]
  by_cases hs : slot = other
  · by_cases hlt : slot < b.slots.size
    · simp [← hs, hlt]
    · simp [← hs, hlt]
  · simp [hs]

theorem device?_put_self {b : Bus ε} {slot : Nat} {d e : Device ε}
    (h : b.device? slot = some d) : (b.put slot e).device? slot = some e := by
  rw [device?_put, if_pos ⟨rfl, lt_size_of_device? h⟩]

theorem device?_put_of_ne (b : Bus ε) {slot other : Nat} (h : slot ≠ other)
    (d : Device ε) : (b.put slot d).device? other = b.device? other := by
  rw [device?_put, if_neg fun hs => h hs.1]

theorem device?_vacate_of_ne (b : Bus ε) {slot other : Nat} (h : slot ≠ other) :
    (b.vacate slot).device? other = b.device? other := by
  simp [device?, vacate, h]

theorem update_eq_put {b : Bus ε} {slot : Nat} {d : Device ε} (h : b.device? slot = some d)
    (f : Device ε → Device ε) : b.update slot f = b.put slot (f d) := by
  rw [update, h]
  exact put_vacate b slot (f d)

theorem device?_update_of_ne (b : Bus ε) {slot other : Nat} (h : slot ≠ other)
    (f : Device ε → Device ε) : (b.update slot f).device? other = b.device? other := by
  cases hd : b.device? slot with
  | none => rw [update, hd]
  | some d => rw [update_eq_put hd, device?_put_of_ne b h]

/-- A new device disturbs none that is there. -/
theorem device?_install {b : Bus ε} {slot : Nat} {d : Device ε} (h : b.device? slot = some d)
    (e : Device ε) : (b.install e).2.device? slot = some d := by
  have hlt := lt_size_of_device? h
  rw [← h, device?, device?, install, Array.getElem?_push_lt hlt, Array.getElem?_eq_getElem hlt]

@[simp]
theorem device?_note (b : Bus ε) (r : Record) (slot : Nat) :
    (b.note r).device? slot = b.device? slot := rfl

/-! ## Visits -/

variable {σ α : Type}

theorem visit_vacant {b : Bus ε} {slot : Nat} {f : EStateM σ (Device ε) α} {absent : σ}
    (h : b.device? slot = none) : visit slot f absent b = .error absent b := by
  simp [visit, h]

theorem visit_ok {b : Bus ε} {slot : Nat} {f : EStateM σ (Device ε) α} {absent : σ}
    {d d' : Device ε} {a : α} (h : b.device? slot = some d) (hf : f d = .ok a d') :
    visit slot f absent b = .ok a (b.put slot d') := by
  simp [visit, h, hf]

theorem visit_error {b : Bus ε} {slot : Nat} {f : EStateM σ (Device ε) α} {absent e : σ}
    {d d' : Device ε} (h : b.device? slot = some d) (hf : f d = .error e d') :
    visit slot f absent b = .error e (b.put slot d') := by
  simp [visit, h, hf]

/-- A device that comes back as it went leaves the bus as it was. -/
theorem stateAfter_visit_of_unchanged {b : Bus ε} {slot : Nat}
    {f : EStateM σ (Device ε) α} {absent : σ}
    (hf : ∀ d, stateAfter (f d) = d) : stateAfter (visit slot f absent b) = b := by
  cases hd : b.device? slot with
  | none => rw [visit_vacant hd, stateAfter_error]
  | some d =>
      have hstate := hf d
      cases hfd : f d with
      | ok a d' =>
          rw [hfd, stateAfter_ok] at hstate
          rw [visit_ok hd hfd, stateAfter_ok, hstate, put_self hd]
      | error e d' =>
          rw [hfd, stateAfter_error] at hstate
          rw [visit_error hd hfd, stateAfter_error, hstate, put_self hd]

/-- A visit that fails leaves the bus as it was, if the device does so. -/
theorem visit_error_bus {b b' : Bus ε} {slot : Nat} {f : EStateM σ (Device ε) α}
    {absent e : σ} (hf : ∀ {d e d'}, f d = .error e d' → d' = d)
    (h : visit slot f absent b = .error e b') : b' = b := by
  cases hd : b.device? slot with
  | none => rw [visit_vacant hd] at h; cases h; rfl
  | some d =>
      cases hfd : f d with
      | ok a d' => rw [visit_ok hd hfd] at h; cases h
      | error e' d' =>
          rw [visit_error hd hfd] at h
          cases h
          rw [hf hfd, put_self hd]

end Bus

/-! ## The devices of this library

Each of them looks at a store before it changes anything, so what it refuses
has not happened. -/

theorem Memory.write_error {w : Width} {offset : Word} {value : BitVec w.bits}
    {m m' : Memory} {e : MemoryError} (h : Memory.write w offset value m = .error e m') :
    m' = m := by
  unfold Memory.write at h
  split at h
  · cases h
  · cases h; rfl

theorem Storage.write_error {w : Width} {offset : Word} {value : BitVec w.bits}
    {s s' : Storage} {trap : AddressTrap}
    (h : Storage.write w offset value s = .error trap s') : s' = s := by
  obtain ⟨pages, memory⟩ := s
  simp only [Storage.write] at h
  split at h
  · cases h
  · next hm => cases h; rw [Memory.write_error hm]

theorem Timer.writeWord_error {offset value : Word} {t t' : Timer} {trap : AddressTrap}
    (h : Timer.writeWord offset value t = .error trap t') : t' = t := by
  unfold Timer.writeWord at h
  split at h <;> cases h
  rfl

theorem InterruptController.writeWord_error {offset value : Word}
    {c c' : InterruptController} {trap : AddressTrap}
    (h : InterruptController.writeWord offset value c = .error trap c') : c' = c := by
  unfold InterruptController.writeWord at h
  split at h
  · cases h
  · cases h
  · cases h
  · split at h <;> cases h
    rfl

namespace Device

theorem stateAfter_answer {ε α : Type} (d : Device ε) (result : Except AddressTrap α) :
    stateAfter (answer d result) = d := by
  cases result <;> rfl

/-- A load changes no device but a bus master, whether it is answered or refused. -/
theorem read_leaves {ε : Type} [Peripheral ε] (w : Width) (offset : Word) (d : Device ε) :
    stateAfter (read w offset d) = d
      ∨ ∃ e e', d = external e ∧ stateAfter (read w offset d) = external e' := by
  cases d with
  | ram s | rom s => exact .inl (stateAfter_answer _ _)
  | timer t | controller c =>
      cases w with
      | byte | halfword => exact .inl rfl
      | word => exact .inl (stateAfter_answer _ _)
  | external e =>
      refine .inr ?_
      simp only [read]
      split <;> exact ⟨e, _, rfl, rfl⟩

theorem stateAfter_read (w : Width) (offset : Word) (d : Device Empty) :
    stateAfter (read w offset d) = d := by
  obtain hsame | ⟨e, -⟩ := read_leaves w offset d
  · exact hsame
  · exact e.elim

/-- A store that is refused leaves the device as it was. -/
theorem write_error {w : Width} {offset : Word} {value : BitVec w.bits}
    {d d' : Device Empty} {trap : AddressTrap}
    (h : write w offset value d = .error trap d') : d' = d := by
  cases d with
  | ram s =>
      simp only [write] at h
      split at h
      · cases h
      · next hs => cases h; rw [Storage.write_error hs]
  | rom s => cases h; rfl
  | timer t =>
      cases w with
      | byte | halfword => cases h; rfl
      | word =>
          simp only [write] at h
          split at h
          · cases h
          · next ht => cases h; rw [Timer.writeWord_error ht]
  | controller c =>
      cases w with
      | byte | halfword => cases h; rfl
      | word =>
          simp only [write] at h
          split at h
          · cases h
          · next hc => cases h; rw [InterruptController.writeWord_error hc]
  | external e => exact e.elim

end Device

/-! ## Accesses -/

namespace Bus

/-- A load leaves the bus as it was. -/
theorem stateAfter_load (w : Width) (address : Word) (b : Bus Empty) :
    stateAfter (load w address b) = b := by
  unfold load
  split
  · cases hroute : b.route address with
    | none => rfl
    | some place =>
        obtain ⟨slot, offset⟩ := place
        have hstate :
            stateAfter (loadFrom slot w offset ⟨.loadAccessFault, address⟩ b) = b :=
          stateAfter_visit_of_unchanged (Device.stateAfter_read w offset)
        dsimp only
        split <;> next hvisit => rw [hvisit] at hstate; exact hstate
  · rfl

/-- A fetch leaves the bus as it was. -/
theorem stateAfter_fetch (address : Word) (b : Bus Empty) :
    stateAfter (fetch address b) = b := by
  have hstate := stateAfter_load .word address b
  unfold fetch
  split
  · split <;> next hload => rw [hload] at hstate; exact hstate
  · rfl

/-- A store that is refused leaves the bus as it was. -/
theorem store_error {w : Width} {address : Word} {value : BitVec w.bits} {b b' : Bus Empty}
    {trap : AddressTrap} (h : store w address value b = .error trap b') : b' = b := by
  unfold store at h
  split at h
  · split at h
    · cases h; rfl
    · split at h
      · cases h
      · next hstore =>
          cases h
          unfold storeInto at hstore
          split at hstore
          · cases hstore
          · next hvisit => cases hstore; exact visit_error_bus Device.write_error hvisit
  · cases h; rfl

end Bus

end Rv32Soc
