import Rv32Soc.Proofs.Slots

/-!
# How devices evolve on the bus

A device on the bus is changed by what is done to it: it is read, written or
told of an acknowledgement, and when its cycle comes a timer ticks, a
controller polls and a bus master takes its turn. So if a relation between
states of a device is a preorder and includes each of these steps, it holds
between the states before and after anything that happens on the bus, however
many devices take part and whatever the bus masters ask for. Such a relation
is lawful, and one that the bus keeps slot by slot evolves the bus.

Only a bus master's own slot needs care. While it takes its turn the slot is
vacant, and so nothing is claimed of it until the device is back.
-/

namespace Rv32Soc

variable {ε : Type} [Peripheral ε]

/-- A preorder of device states that includes every step a device can be made to take. -/
structure Device.Lawful (D : Device ε → Device ε → Prop) : Prop where
  refl : ∀ d, D d d
  trans : ∀ {d₁ d₂ d₃}, D d₁ d₂ → D d₂ d₃ → D d₁ d₃
  read : ∀ w offset d, D d (stateAfter (Device.read w offset d))
  write : ∀ w offset value d, D d (stateAfter (Device.write w offset value d))
  acknowledge : ∀ d, D d d.acknowledge
  tick : ∀ t, D (.timer t) (.timer t.tick)
  poll : ∀ c asserting, D (.controller c) (.controller (c.poll asserting))
  turn : ∀ e e', D (.external e) (.external e')

namespace Bus

/-- Every device is still in its slot, and its state is related to the one before. -/
structure Evolves (D : Device ε → Device ε → Prop) (b b' : Bus ε) : Prop where
  size : b.slots.size ≤ b'.slots.size
  device : ∀ {slot d}, b.device? slot = some d → ∃ d', b'.device? slot = some d' ∧ D d d'

variable {D : Device ε → Device ε → Prop}

/-! ## Slots -/

theorem evolves_of_slots (hD : Device.Lawful D) {b b' : Bus ε} (h : b'.slots = b.slots) :
    Evolves D b b' := by
  refine ⟨Nat.le_of_eq (by rw [h]), ?_⟩
  intro slot d hd
  have hsame : b'.device? slot = b.device? slot := by rw [device?, device?, h]
  exact ⟨d, hsame.trans hd, hD.refl d⟩

theorem Evolves.refl (hD : Device.Lawful D) (b : Bus ε) : Evolves D b b :=
  evolves_of_slots hD rfl

theorem Evolves.trans (hD : Device.Lawful D) {b₁ b₂ b₃ : Bus ε} (h₁ : Evolves D b₁ b₂)
    (h₂ : Evolves D b₂ b₃) : Evolves D b₁ b₃ := by
  refine ⟨Nat.le_trans h₁.size h₂.size, ?_⟩
  intro slot d hd
  obtain ⟨d', hd', hfirst⟩ := h₁.device hd
  obtain ⟨d'', hd'', hsecond⟩ := h₂.device hd'
  exact ⟨d'', hd'', hD.trans hfirst hsecond⟩

/-- A run of steps over a list evolves the bus if each step does. -/
theorem evolves_foldl (hD : Device.Lawful D) {α : Type} {f : Bus ε → α → Bus ε}
    (hf : ∀ b a, Evolves D b (f b a)) (as : List α) (b : Bus ε) :
    Evolves D b (as.foldl f b) :=
  as.foldlRecOn f (.refl hD b) fun b' h a _ => h.trans hD (hf b' a)

theorem evolves_put (hD : Device.Lawful D) {b : Bus ε} {slot : Nat} {d d' : Device ε}
    (h : b.device? slot = some d) (hd : D d d') : Evolves D b (b.put slot d') := by
  refine ⟨by simp [put], ?_⟩
  intro other e he
  by_cases hslot : slot = other
  · subst hslot
    rw [h] at he
    cases he
    exact ⟨d', device?_put_self h, hd⟩
  · exact ⟨e, (device?_put_of_ne b hslot d').trans he, hD.refl e⟩

theorem evolves_visit (hD : Device.Lawful D) {σ α : Type} {f : EStateM σ (Device ε) α}
    (hf : ∀ d, D d (stateAfter (f d))) (slot : Nat) (absent : σ) (b : Bus ε) :
    Evolves D b (stateAfter (visit slot f absent b)) := by
  cases hd : b.device? slot with
  | none =>
      rw [visit_vacant hd]
      exact .refl hD b
  | some d =>
      have hstep := hf d
      cases hfd : f d with
      | ok a d' =>
          rw [hfd] at hstep
          rw [visit_ok hd hfd]
          exact evolves_put hD hd hstep
      | error e d' =>
          rw [hfd] at hstep
          rw [visit_error hd hfd]
          exact evolves_put hD hd hstep

theorem evolves_update (hD : Device.Lawful D) {f : Device ε → Device ε} (hf : ∀ d, D d (f d))
    (b : Bus ε) (slot : Nat) : Evolves D b (b.update slot f) := by
  unfold update
  split
  · exact .refl hD b
  · next d hd =>
      rw [put_vacate]
      exact evolves_put hD hd (hf d)

theorem evolves_install (hD : Device.Lawful D) (b : Bus ε) (d : Device ε) :
    Evolves D b (b.install d).2 := by
  refine ⟨by simp [install], ?_⟩
  intro slot e he
  exact ⟨e, device?_install he d, hD.refl e⟩

/-! ## Accesses -/

theorem evolves_announce (hD : Device.Lawful D) (b : Bus ε) (told : List Acknowledgement) :
    Evolves D b (b.announce told) := by
  refine evolves_foldl hD ?_ told b
  intro b a
  have htold : Evolves D b (a.sources.foldl tell b) :=
    evolves_foldl hD (fun b slot => evolves_update hD hD.acknowledge b slot) a.sources b
  exact htold.trans hD (evolves_of_slots hD rfl)

theorem evolves_load (hD : Device.Lawful D) (w : Width) (address : Word) (b : Bus ε) :
    Evolves D b (stateAfter (load w address b)) := by
  unfold load
  split
  · split
    · exact .refl hD b
    · next slot offset hroute =>
        have hvisit := evolves_visit hD (hD.read w offset) slot ⟨.loadAccessFault, address⟩ b
        unfold loadFrom
        split <;> next hload => rw [hload] at hvisit; exact hvisit
  · exact .refl hD b

theorem evolves_loseReservation (hD : Device.Lawful D) (b : Bus ε) (address : Word) :
    Evolves D b (b.loseReservation address) := by
  unfold loseReservation
  split
  · exact evolves_of_slots hD rfl
  · exact .refl hD b

theorem evolves_storeInto (hD : Device.Lawful D) (slot : Nat) (w : Width) (offset : Word)
    (value : BitVec w.bits) (absent : AddressTrap) (b : Bus ε) :
    Evolves D b (stateAfter (storeInto slot w offset value absent b)) := by
  have hvisit := evolves_visit hD (hD.write w offset value) slot absent b
  unfold storeInto
  cases hstore : visit slot (Device.write w offset value) absent b with
  | ok told b' =>
      rw [hstore] at hvisit
      exact hvisit.trans hD (evolves_announce hD b' told)
  | error trap b' =>
      rw [hstore] at hvisit
      exact hvisit

theorem evolves_store (hD : Device.Lawful D) (w : Width) (address : Word)
    (value : BitVec w.bits) (b : Bus ε) :
    Evolves D b (stateAfter (store w address value b)) := by
  unfold store
  split
  · split
    · exact .refl hD b
    · next slot offset hroute =>
        have hinto :=
          evolves_storeInto hD slot w offset value ⟨.storeAccessFault, address⟩ b
        split
        · next b' hstore =>
            rw [hstore] at hinto
            exact hinto.trans hD (evolves_loseReservation hD b' address)
        · next trap b' hstore =>
            rw [hstore] at hinto
            exact hinto
  · exact .refl hD b

/-! ## Turns -/

theorem evolves_answer (hD : Device.Lawful D) (request : Request) (b : Bus ε) :
    Evolves D b (b.answer request).2 := by
  cases request with
  | load w address =>
      have hload := evolves_load hD w address b
      simp only [answer]
      split <;> next heq => rw [heq] at hload; exact hload
  | store w address value =>
      have hstore := evolves_store hD w address (value.setWidth w.bits) b
      simp only [answer]
      split <;> next heq => rw [heq] at hstore; exact hstore

theorem evolves_perform (hD : Device.Lawful D) {α : Type} (script : Script α) (b : Bus ε) :
    Evolves D b (perform script b).2.2 := by
  induction script generalizing b with
  | done result => exact .refl hD b
  | ask request next ih => exact (evolves_answer hD request b).trans hD (ih _ _)

theorem evolves_turn (hD : Device.Lawful D) {b : Bus ε} {slot : Nat} {e : ε}
    (h : b.device? slot = some (.external e)) (phase : Phase) (script : Script ε) :
    Evolves D b (b.turn slot phase script) := by
  have hperform := evolves_perform hD script (b.vacate slot)
  have hsize : b.slots.size ≤ (perform script (b.vacate slot)).2.2.slots.size := by
    have hvacated := hperform.size
    simp only [vacate, Array.size_setIfInBounds] at hvacated
    exact hvacated
  refine ⟨by simpa [turn, note, put] using hsize, ?_⟩
  intro other d hd
  simp only [turn, device?_note]
  by_cases hslot : slot = other
  · subst hslot
    rw [h] at hd
    cases hd
    refine ⟨_, ?_, hD.turn e (perform script (b.vacate slot)).1⟩
    rw [device?_put, if_pos ⟨rfl, Nat.lt_of_lt_of_le (lt_size_of_device? h) hsize⟩]
  · rw [device?_put_of_ne _ hslot]
    exact hperform.device ((device?_vacate_of_ne b hslot).trans hd)

theorem evolves_cycle (hD : Device.Lawful D) (b : Bus ε) (slot : Nat) :
    Evolves D b (b.cycle slot) := by
  unfold cycle
  split
  · next t h => exact evolves_put hD h (hD.tick t)
  · next c h => exact evolves_put hD h (hD.poll c b.asserting)
  · next e h => exact evolves_turn hD h .cycle (Peripheral.cycle e)
  · exact .refl hD b

theorem evolves_timestep (hD : Device.Lawful D) (b : Bus ε) (slot : Nat) :
    Evolves D b (b.timestep slot) := by
  unfold timestep
  split
  · next e h => exact evolves_turn hD h .timestep (Peripheral.timestep e)
  · exact .refl hD b

/-! ## The controller from outside -/

theorem evolves_updateController (hD : Device.Lawful D)
    {f : InterruptController → InterruptController}
    (hf : ∀ c, D (.controller c) (.controller (f c))) (b : Bus ε) (slot : Nat) :
    Evolves D b (b.updateController slot f) := by
  refine evolves_update hD ?_ b slot
  intro d
  cases d with
  | controller c => exact hf c
  | ram s | rom s | timer t | external e => exact hD.refl _

end Bus

end Rv32Soc
