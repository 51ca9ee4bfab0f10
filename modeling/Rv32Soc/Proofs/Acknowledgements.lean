import Mathlib
import Rv32Soc.Device.Probe
import Rv32Soc.Proofs.Reloading

/-!
# Requests are latched and acknowledgements announced

A line is pending from a request until it is acknowledged, and its sources are
told when it is: each as often as it is registered on the line, and no other
device ever. What is announced does not depend on how the acknowledgement
came about. A line that is named twice in one register write is found no
longer pending the second time, so that nothing is announced twice.

A cycle ends with a poll. Whatever was acknowledged in the cycle, by the hart
or by a bus master, a source that still requests an interrupt at its end finds
its line pending. After the poll there is only the delivery, and that touches
neither the flags nor the devices.
-/

namespace Rv32Soc

namespace InterruptController

/-! ## How often a source is told -/

instance (l : Line) : (op : Operation) → Decidable (op.Acknowledges l)
  | .acknowledge line => inferInstanceAs (Decidable (line = l))
  | .writeWord offset value =>
      inferInstanceAs (Decidable (registerIndex offset = 3 ∧ value.getLsbD l = true))
  | .setMasterEnable _ | .setEnabled _ _ | .setPriority _ _ | .assert _ | .register _ _ | .poll _
  | .dispatch _ | .reset | .readWord _ => inferInstanceAs (Decidable False)

/-- How often the operation tells the device in a slot: once for each registration of it on a line
that is pending and that the operation acknowledges. -/
def tellings (c : InterruptController) (op : Operation) (slot : Nat) : Nat :=
  c.sources.countP fun source =>
    source.1 = slot ∧ op.Acknowledges source.2 ∧ c.pending source.2 = true

theorem count_acknowledge (c : InterruptController) (l : Line) (slot : Nat) :
    ((c.acknowledge l).2.toList.flatMap Acknowledgement.sources).count slot
      = c.sources.countP fun source =>
          source.1 = slot ∧ source.2 = l ∧ c.pending source.2 = true := by
  unfold acknowledge
  split
  · next h =>
      simp only [Option.toList_some, List.flatMap_cons, List.flatMap_nil, List.append_nil, sourcesOf]
      rw [List.count_eq_countP, List.countP_map, List.countP_filter]
      refine List.countP_congr ?_
      rintro ⟨slot', l'⟩ -
      simp only [Function.comp_apply, Bool.and_eq_true, beq_iff_eq, decide_eq_true_eq]
      constructor
      · rintro ⟨rfl, rfl⟩
        exact ⟨rfl, rfl, h⟩
      · rintro ⟨rfl, rfl, -⟩
        exact ⟨rfl, rfl⟩
  · next h =>
      symm
      rw [Option.toList_none, List.flatMap_nil, List.count_nil, List.countP_eq_zero]
      rintro ⟨slot', l'⟩ -
      rw [decide_eq_true_eq]
      rintro ⟨-, rfl, hpending⟩
      exact h hpending

/-- Of lines that are acknowledged one after the other each counts once. -/
theorem count_acknowledgeAll (c : InterruptController) (lines : List Line) (slot : Nat) :
    ((c.acknowledgeAll lines).2.flatMap Acknowledgement.sources).count slot
      = c.sources.countP fun source =>
          source.1 = slot ∧ source.2 ∈ lines ∧ c.pending source.2 = true := by
  induction lines generalizing c with
  | nil => simp [acknowledgeAll]
  | cons l rest ih =>
      have hsplit : (c.acknowledgeAll (l :: rest)).2
          = (c.acknowledge l).2.toList ++ ((c.acknowledge l).1.acknowledgeAll rest).2 := rfl
      rw [hsplit, List.flatMap_append, List.count_append, count_acknowledge, ih,
        sources_acknowledge]
      symm
      refine (List.countP_eq_countP_filter_add _ _ fun source => source.2 = l).trans ?_
      rw [List.countP_filter, List.countP_filter]
      congr 1
      · refine List.countP_congr fun source _ => ?_
        simp only [Bool.and_eq_true, decide_eq_true_eq, List.mem_cons]
        tauto
      · refine List.countP_congr fun source _ => ?_
        simp only [Bool.and_eq_true, Bool.not_eq_true', decide_eq_true_eq, decide_eq_false_iff_not,
          List.mem_cons, pending_acknowledge, ne_comm (a := l)]
        tauto

theorem writeWord_told {c c' : InterruptController} {offset value : Word}
    {told : List Acknowledgement} (h : writeWord offset value c = .ok told c') (slot : Nat) :
    (told.flatMap Acknowledgement.sources).count slot
      = c.tellings (.writeWord offset value) slot := by
  -- A write to another register tells nobody.
  have hother : registerIndex offset ≠ 3 → c.tellings (.writeWord offset value) slot = 0 := by
    intro hindex
    rw [tellings, List.countP_eq_zero]
    intro source _
    simp [Operation.Acknowledges, hindex]
  unfold writeWord at h
  split at h
  · next hindex =>
      cases h
      exact (hother (by omega)).symm
  · next hindex =>
      cases h
      exact (hother (by omega)).symm
  · next hindex =>
      cases h
      rw [count_acknowledgeAll, tellings]
      refine List.countP_congr fun source _ => ?_
      simp [Operation.Acknowledges, hindex]
  · next hindex =>
      split at h <;> cases h
      exact (hother hindex).symm

end InterruptController

variable {ε : Type} [Peripheral ε]

namespace Bus

/-! ## Announcements -/

theorem device?_tell (b : Bus ε) (slot other : Nat) :
    (b.tell slot).device? other
      = if slot = other then (b.device? other).map Device.acknowledge else b.device? other := by
  split
  · next h =>
      subst h
      cases hd : b.device? slot with
      | none => rw [tell, update, hd, Option.map_none, hd]
      | some d => rw [tell, update_eq_put hd, device?_put_self hd, Option.map_some]
  · next h => exact device?_update_of_ne b h _

theorem device?_foldl_tell (b : Bus ε) (slots : List Nat) (other : Nat) :
    (slots.foldl tell b).device? other
      = (b.device? other).map Device.acknowledge^[slots.count other] := by
  induction slots generalizing b with
  | nil => simp
  | cons slot rest ih =>
      rw [List.foldl_cons, ih, device?_tell, List.count_cons]
      by_cases h : slot = other
      · simp [h, Function.iterate_succ]
      · simp [h]

theorem device?_announce (b : Bus ε) (told : List Acknowledgement) (other : Nat) :
    (b.announce told).device? other = (b.device? other).map
      Device.acknowledge^[(told.flatMap Acknowledgement.sources).count other] := by
  induction told generalizing b with
  | nil => simp [announce]
  | cons a rest ih =>
      have hstep : b.announce (a :: rest)
          = ((a.sources.foldl tell b).note (.acknowledged a.line)).announce rest := rfl
      rw [hstep, ih, device?_note, device?_foldl_tell, Option.map_map, ← Function.iterate_add,
        List.flatMap_cons, List.count_append, Nat.add_comm]

omit [Peripheral ε] in
theorem device?_loseReservation (b : Bus ε) (address : Word) (slot : Nat) :
    (b.loseReservation address).device? slot = b.device? slot := by
  unfold loseReservation
  split <;> rfl

/-- The operation has been done to the controller in a slot, and each device has been told of
acknowledgements as often as it has to be. Otherwise no device has changed. -/
def Announced (b : Bus ε) (slot : Nat) (op : InterruptController.Operation) (b' : Bus ε) : Prop :=
  ∀ c, b.controller? slot = some c → ∀ other,
    b'.device? other = ((b.put slot (.controller (op.apply c))).device? other).map
      Device.acknowledge^[c.tellings op other]

theorem announced_acknowledge (b : Bus ε) (slot : Nat) (l : Line) :
    b.Announced slot (.acknowledge l) (b.acknowledge slot l) := by
  intro c hc other
  have happly : InterruptController.Operation.apply c (.acknowledge l) = (c.acknowledge l).1 := by
    rw [InterruptController.Operation.apply, InterruptController.onLine,
      InterruptController.lineOfNat_eq_ok.mpr rfl]
  rw [Bus.acknowledge, hc, happly, InterruptController.tellings]
  dsimp only
  rw [device?_announce, InterruptController.count_acknowledge]
  simp only [InterruptController.Operation.Acknowledges, Fin.val_inj, eq_comm (a := l)]

theorem announced_write {b : Bus ε} {slot : Nat} {offset value : Word}
    {told : List Acknowledgement} {d d' : Device ε} (hd : b.device? slot = some d)
    (h : Device.write .word offset value d = .ok told d') :
    b.Announced slot (.writeWord offset value) ((b.put slot d').announce told) := by
  intro c hc other
  rw [controller?_eq_some.mp hc] at hd
  cases hd
  simp only [Device.write] at h
  split at h
  · next told' c' hwrite =>
      cases h
      have happly : InterruptController.Operation.apply c (.writeWord offset value) = c' := by
        rw [InterruptController.Operation.apply, hwrite, stateAfter_ok]
      rw [device?_announce, InterruptController.writeWord_told hwrite, happly]
  · cases h

theorem announced_storeInto {b b' : Bus ε} {slot : Nat} {offset value : Word}
    {absent : AddressTrap} (h : storeInto slot .word offset value absent b = .ok () b') :
    b.Announced slot (.writeWord offset value) b' := by
  unfold storeInto at h
  cases hd : b.device? slot with
  | none =>
      rw [visit_vacant hd] at h
      cases h
  | some d =>
      cases hwrite : Device.write .word offset value d with
      | error e d' =>
          rw [visit_error hd hwrite] at h
          cases h
      | ok told d' =>
          rw [visit_ok hd hwrite] at h
          cases h
          exact announced_write hd hwrite

theorem announced_store {b b' : Bus ε} {slot : Nat} {address offset value : Word}
    (hroute : b.route address = some (slot, offset))
    (h : store .word address value b = .ok () b') :
    b.Announced slot (.writeWord offset value) b' := by
  obtain ⟨-, slot', offset', d, told, d', hroute', hd, hwrite, rfl⟩ := store_eq_ok.mp h
  rw [hroute] at hroute'
  cases hroute'
  intro c hc other
  rw [device?_loseReservation]
  exact announced_write hd hwrite c hc other

/-- Whoever acknowledges lines at the controller in a slot, the sources are told. -/
structure Announces (b : Bus ε) (slot : Nat) : Prop where
  called : ∀ l : Line, b.Announced slot (.acknowledge l) (b.acknowledge slot l)
  written : ∀ offset value absent b', storeInto slot .word offset value absent b = .ok () b' →
    b.Announced slot (.writeWord offset value) b'
  stored : ∀ address offset value b', b.route address = some (slot, offset) →
    store .word address value b = .ok () b' → b.Announced slot (.writeWord offset value) b'

/-! ## The poll -/

/-- A controller requests no interrupt, so it does not matter which one there is. -/
theorem asserting_put_controller {b : Bus ε} {slot : Nat} {c : InterruptController}
    (h : b.controller? slot = some c) (c' : InterruptController) :
    (b.put slot (.controller c')).asserting = b.asserting := by
  have hd := controller?_eq_some.mp h
  funext other
  by_cases hslot : slot = other
  · subst hslot
    simp only [asserting, device?_put_self hd, hd, Device.asserting]
  · simp only [asserting, device?_put_of_ne b hslot]

theorem asserting_dispatch (b : Bus ε) (slot : Nat) (listening : Bool) :
    (b.dispatch slot listening).2.asserting = b.asserting := by
  unfold dispatch
  split
  · rfl
  · next c hc =>
      dsimp only
      split <;> exact asserting_put_controller hc _

theorem cycle_controller {b : Bus ε} {slot : Nat} {c : InterruptController}
    (h : b.controller? slot = some c) :
    b.cycle slot = b.put slot (.controller (c.poll b.asserting)) := by
  rw [cycle, controller?_eq_some.mp h]

end Bus

namespace Microcontroller

/-- The controller has these sources, and the line of each that requests an interrupt is
pending. -/
def Polled (m : Microcontroller ε) (sources : List (Nat × Line)) : Prop :=
  ∃ c, m.bus.controller? controllerSlot = some c ∧ c.sources = sources
    ∧ ∀ source ∈ sources, m.bus.asserting source.1 = true → c.pending source.2 = true

theorem polled_cycle {m : Microcontroller ε} {config : Config} {sources : List (Nat × Line)}
    (h : m.Made config sources) : m.cycle.2.Polled sources := by
  let b := m.attached.foldl Bus.cycle m.hart.step.2.bus
  -- Up to the poll the controller is one of the devices.
  have hlawful := (Device.inclusive_sameMake (ε := ε)).toLawful
  have hturns : Bus.Evolves Device.SameMake m.bus b :=
    (Hart.step_bus (Bus.traffic_evolves hlawful) m.hart).trans hlawful
      (Bus.evolves_foldl hlawful (Bus.evolves_cycle hlawful) m.attached _)
  obtain ⟨d, hd, hmake⟩ := Option.map_eq_some_iff.mp h.controller
  obtain ⟨d', hd', hsame⟩ := hturns.device hd
  obtain ⟨c, rfl, hsources⟩ := Device.make_eq_controller (hsame.trans hmake)
  have hc : b.controller? controllerSlot = some c := Bus.controller?_eq_some.mpr hd'
  have hpolled : m.arbitrating.bus = b.put controllerSlot (.controller (c.poll b.asserting)) :=
    Bus.cycle_controller hc
  have hpoll : m.arbitrating.bus.controller? controllerSlot = some (c.poll b.asserting) := by
    rw [hpolled]
    exact Bus.controller?_eq_some.mpr (Bus.device?_put_self hd')
  have hasserting : m.cycle.2.bus.asserting = b.asserting := by
    refine (m.arbitrating.bus.asserting_dispatch controllerSlot _).trans ?_
    rw [hpolled, Bus.asserting_put_controller hc]
  refine ⟨_, Bus.controller?_dispatch hpoll m.arbitrating.hart.listening, ?_, ?_⟩
  · rw [InterruptController.sources_dispatch, InterruptController.sources_poll, hsources]
  · intro source hsource hrequests
    rw [hasserting] at hrequests
    rw [InterruptController.pending_dispatch, InterruptController.pending_poll]
    exact .inl ⟨source.1, hsources.symm ▸ hsource, hrequests⟩

open InterruptController (Requested perform) in
/-- Pending lines are an exact latch of requests. Whatever has been done to a controller, a line is
pending just if it has been requested since it was last acknowledged and since the last reset.
Whoever acknowledges lines, each device is told as often as it is registered on such of them as are
pending. And whatever has been done to a machine, after its next cycle the line of every source
that requests an interrupt is pending. -/
theorem requests_latched {config : Config} {m : Microcontroller ε} (hnew : new config = .ok m) :
    (∀ ops l, (perform {} ops).pending l = true ↔ Requested l ops)
      ∧ (∀ (b : Bus ε) slot, b.Announces slot)
      ∧ ∀ history, (m.after history).cycle.2.Polled (registrations history) :=
  ⟨InterruptController.pending_perform,
    fun b slot => ⟨b.announced_acknowledge slot, fun _ _ _ _ => Bus.announced_storeInto,
      fun _ _ _ _ => Bus.announced_store⟩,
    fun history => polled_cycle (made_after hnew history)⟩

/-- Acknowledges line 5 in every cycle. -/
def quencher : Probe where
  onCycle := [.store .word 0xea00100c (.constant 0x20)]

/-- A probe that requests interrupts on line 5, where it is registered twice, beside one that
acknowledges the line before it has its turn. -/
def quenchedHistory : List (Action Probe) :=
  [.call (.install (.external quencher)), .call (.attach 3 0x40000000),
    .call (.install (.external { assertEvery := some 1 })), .call (.attach 4 0x40000400),
    .call (.register 4 5), .call (.register 4 5), .call .cycle]

/-- The probe in a slot, if there is one. -/
def probeAt? (m : Microcontroller Probe) (slot : Nat) : Option Probe :=
  match m.bus.device? slot with
  | some (.external p) => some p
  | _ => none

/-- The line is acknowledged in the second cycle, and pending again after it. -/
theorem requests_latched_quenched :
    ∃ m : Microcontroller Probe, new ⟨1, 1⟩ = .ok m
      ∧ (m.after quenchedHistory).cycle.2.Polled [(4, 5), (4, 5)]
      ∧ (m.after quenchedHistory).cycle.2.probeAt? 4 = some
          { assertEvery := some 1, cycles := 2, asserting := true, acknowledgements := 2 } := by
  have hprobe : ((new ⟨1, 1⟩).toOption.map fun m : Microcontroller Probe =>
      (m.after quenchedHistory).cycle.2.probeAt? 4) = some (some
        { assertEvery := some 1, cycles := 2, asserting := true, acknowledgements := 2 }) := by
    decide +kernel
  cases hnew : (new ⟨1, 1⟩ : Except ConfigError (Microcontroller Probe)) with
  | error e =>
      rw [hnew] at hprobe
      cases hprobe
  | ok m =>
      rw [hnew] at hprobe
      exact ⟨m, rfl, (requests_latched hnew).2.2 quenchedHistory, Option.some.inj hprobe⟩

end Microcontroller

end Rv32Soc
