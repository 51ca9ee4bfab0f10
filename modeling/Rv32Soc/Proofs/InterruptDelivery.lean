import Rv32Soc.Device.Probe
import Rv32Soc.Proofs.Histories
import Rv32Soc.Proofs.Runs

/-!
# Every delivered interrupt is taken once

A cycle ends with arbitration. A line that it delivers raises the interrupt of
a hart that listens, and the first thing in the next cycle is that the hart
takes it. Between the two the owner may attach, register, load and let
timesteps pass, but none of this reaches the hart; and within a cycle, before
arbitration, nothing is pending any more, so that nothing is left over from
cycles further back. Hence the interrupt is taken exactly in the cycle that
follows a delivery, unless a reset comes between.

That a delivery is not missed in turn rests on the controller: whenever the
hart listens after a cycle, its arbitration has just decided, and by the
invariant of the controller the most urgent line is the current one.
-/

namespace Rv32Soc.Microcontroller

variable {ε : Type}

/-! ## The last cycle of a run -/

/-- The last cycle of a run, with the calls before and since. -/
structure LastCycle (calls before after : List (Call ε)) : Prop where
  split : calls = before ++ .cycle :: after
  since : .cycle ∉ after

theorem lastCycle_snoc_cycle {calls before after : List (Call ε)} :
    LastCycle (calls ++ [.cycle]) before after ↔ before = calls ∧ after = [] := by
  constructor
  · intro h
    obtain ⟨rfl, -, rfl⟩ | ⟨rest, -, rfl⟩ := snoc_eq_append_cons.mp h.split
    · exact ⟨rfl, rfl⟩
    · exact absurd (List.mem_append_right rest (List.mem_singleton.mpr rfl)) h.since
  · rintro ⟨rfl, rfl⟩
    exact ⟨rfl, nofun⟩

theorem lastCycle_snoc {calls before after : List (Call ε)} {call : Call ε}
    (hcall : call ≠ .cycle) :
    LastCycle (calls ++ [call]) before after
      ↔ ∃ front, after = front ++ [call] ∧ LastCycle calls before front := by
  constructor
  · intro h
    obtain ⟨-, heq, -⟩ | ⟨front, hsplit, rfl⟩ := snoc_eq_append_cons.mp h.split
    · exact absurd heq hcall
    · exact ⟨front, rfl, hsplit, fun hmem => h.since (List.mem_append_left _ hmem)⟩
  · rintro ⟨front, rfl, h⟩
    refine ⟨snoc_eq_append_cons.mpr (.inr ⟨front, h.split, rfl⟩), ?_⟩
    rw [List.mem_append, List.mem_singleton]
    rintro (hmem | heq)
    · exact h.since hmem
    · exact hcall heq.symm

/-! ## A cycle and its arbitration -/

/-- Only to a hart that listens is a line delivered. -/
theorem listening_of_dispatch {b : Bus ε} {slot : Nat} {listening : Bool}
    (h : (b.dispatch slot listening).1.isSome) : listening = true := by
  unfold Bus.dispatch at h
  split at h
  · cases h
  · next c hc =>
      obtain ⟨l, hlistening, -⟩ | ⟨hnothing, -⟩ := c.dispatch_cases listening
      · exact hlistening
      · simp only [hnothing] at h
        cases h

variable [Peripheral ε]

/-- After a cycle the interrupt is pending that its arbitration raised, or that the hart did
not listen to. -/
theorem cycle_pending (m : Microcontroller ε) :
    m.cycle.2.hart.pending
      = ((m.hart.pending && !m.hart.listening) || m.delivery.isSome) := by
  rw [← m.hart.step_pending]
  rfl

theorem listening_of_delivery {m : Microcontroller ε} (h : m.delivery.isSome) :
    m.cycle.2.hart.listening = true :=
  listening_of_dispatch h

/-! ## Calls that leave the hart alone -/

/-- All but a cycle and a reset change nothing of the hart but its bus. -/
theorem apply_hart {call : Call ε} (hcycle : call ≠ .cycle) (hreset : call ≠ .reset)
    (m : Microcontroller ε) :
    (call.apply m).hart = { m.hart with bus := (call.apply m).hart.bus } := by
  cases call with
  | install d => rfl
  | attach slot base =>
      simp only [Call.apply, attach]
      cases m.bus.attach slot base <;> rfl
  | register slot line =>
      simp only [Call.apply]
      cases lineOfNat line <;> rfl
  | load image =>
      obtain ⟨b, heq, -⟩ :=
        load_bus Device.lawful_operated Device.operated_program Device.operated_cleared image m
      rw [Call.apply, heq]
  | reset => exact absurd rfl hreset
  | cycle => exact absurd rfl hcycle
  | timestep => rfl

theorem run_pc {calls : List (Call ε)} (hcycle : .cycle ∉ calls) (hreset : .reset ∉ calls)
    (m : Microcontroller ε) : (m.run calls).hart.pc = m.hart.pc := by
  induction calls using List.reverseRecOn with
  | nil => rfl
  | append_singleton calls call ih =>
      rw [List.mem_append, List.mem_singleton, not_or] at hcycle hreset
      rw [run_snoc, apply_hart (Ne.symm hcycle.2) (Ne.symm hreset.2)]
      exact ih hcycle.1 hreset.1

/-! ## The flag in a run -/

/-- The hart listens whenever an interrupt is pending. -/
def Owed (m : Microcontroller ε) : Prop :=
  m.hart.pending = true → m.hart.listening = true

theorem owed_apply {m : Microcontroller ε} (h : Owed m) (call : Call ε) :
    Owed (call.apply m) := by
  by_cases hcycle : call = .cycle
  · subst hcycle
    intro hpending
    rw [Call.apply, cycle_pending, Bool.or_eq_true] at hpending
    obtain hleft | hdelivered := hpending
    · rw [Bool.and_eq_true, Bool.not_eq_true'] at hleft
      rw [h hleft.1] at hleft
      cases hleft.2
    · exact listening_of_delivery hdelivered
  · by_cases hreset : call = .reset
    · subst hreset
      intro hpending
      cases hpending
    · unfold Owed
      rw [apply_hart hcycle hreset]
      exact h

theorem owed_run {config : Config} {m : Microcontroller ε} (hnew : new config = .ok m)
    (calls : List (Call ε)) : Owed (m.run calls) := by
  induction calls using List.reverseRecOn with
  | nil =>
      intro hpending
      rw [run, List.foldl_nil, (new_ok hnew).2] at hpending
      cases hpending
  | append_singleton calls call ih =>
      rw [run_snoc]
      exact owed_apply ih call

/-- Where the hart listens to what is pending, nothing but a new delivery is pending after a
cycle. -/
theorem cycle_pending_of_owed {m : Microcontroller ε} (h : Owed m) :
    m.cycle.2.hart.pending = m.delivery.isSome := by
  rw [cycle_pending]
  cases hpending : m.hart.pending with
  | false => rfl
  | true =>
      rw [h hpending]
      rfl

/-- An interrupt is pending exactly if the last cycle delivered a line and there was no reset
since. -/
theorem pending_run {config : Config} {m : Microcontroller ε} (hnew : new config = .ok m)
    (calls : List (Call ε)) :
    (m.run calls).hart.pending = true
      ↔ ∃ before after, LastCycle calls before after ∧ .reset ∉ after
          ∧ (m.run before).delivery.isSome := by
  induction calls using List.reverseRecOn with
  | nil =>
      constructor
      · intro hpending
        rw [run, List.foldl_nil, (new_ok hnew).2] at hpending
        cases hpending
      · rintro ⟨before, after, hlast, -⟩
        exact absurd hlast.split.symm (by simp)
  | append_singleton calls call ih =>
      rw [run_snoc]
      by_cases hcycle : call = .cycle
      · subst hcycle
        rw [Call.apply, cycle_pending_of_owed (owed_run hnew calls)]
        constructor
        · intro hdelivered
          exact ⟨calls, [], lastCycle_snoc_cycle.mpr ⟨rfl, rfl⟩, List.not_mem_nil, hdelivered⟩
        · rintro ⟨before, after, hlast, -, hdelivered⟩
          obtain ⟨rfl, -⟩ := lastCycle_snoc_cycle.mp hlast
          exact hdelivered
      · by_cases hreset : call = .reset
        · subst hreset
          constructor
          · intro hpending
            cases hpending
          · rintro ⟨before, after, hlast, hnone, -⟩
            obtain ⟨front, rfl, -⟩ := (lastCycle_snoc hcycle).mp hlast
            exact absurd (List.mem_append_right front (List.mem_singleton.mpr rfl)) hnone
        · rw [apply_hart hcycle hreset]
          refine ih.trans ?_
          constructor
          · rintro ⟨before, after, hlast, hnone, hdelivered⟩
            refine ⟨before, after ++ [call], ?_, ?_, hdelivered⟩
            · exact (lastCycle_snoc hcycle).mpr ⟨after, rfl, hlast⟩
            · rw [List.mem_append, List.mem_singleton]
              rintro (hmem | heq)
              · exact hnone hmem
              · exact hreset heq.symm
          · rintro ⟨before, after, hlast, hnone, hdelivered⟩
            obtain ⟨front, rfl, hfront⟩ := (lastCycle_snoc hcycle).mp hlast
            exact ⟨before, front, hfront, fun hmem => hnone (List.mem_append_left _ hmem),
              hdelivered⟩

/-! ## What the next cycle does -/

theorem cycle_mepc {m : Microcontroller ε} (h : m.cycle.1 = some (.interrupt .external)) :
    m.cycle.2.hart.csr.mepc = m.hart.pc := by
  obtain ⟨hpending, hlistening⟩ := Hart.step_fst_interrupt.mp h
  show m.hart.step.2.csr.mepc = m.hart.pc
  rw [Hart.step_interrupt hpending hlistening]
  rfl

/-- After a cycle the controller has decided, if the hart listens. -/
theorem decided_run {config : Config} {m : Microcontroller ε} (hnew : new config = .ok m)
    (calls : List (Call ε)) :
    ∃ c, (m.run calls).cycle.2.bus.controller? controllerSlot = some c
      ∧ ((m.run calls).cycle.2.hart.listening = true → c.next? = none ∨ c.next? = c.current) := by
  obtain ⟨ops, hops⟩ := controller?_run hnew calls
  obtain ⟨more, hmore⟩ :=
    (arbitrating_evolves Device.lawful_operated (m.run calls)).controller? hops
  rw [← InterruptController.perform_append] at hmore
  have hsettled :=
    InterruptController.settled_perform InterruptController.settled_new (ops ++ more)
  have hdecided := Bus.controller?_dispatch hmore (m.run calls).arbitrating.hart.listening
  refine ⟨_, hdecided, ?_⟩
  intro hlistening
  rw [show (m.run calls).arbitrating.hart.listening = true from hlistening]
  exact InterruptController.next?_dispatch hsettled

/-- What is certain about interrupts after a run. -/
structure InterruptsKept (m : Microcontroller ε) (calls : List (Call ε)) : Prop where
  /-- The hart listens to an interrupt that is pending. -/
  listening : (m.run calls).hart.pending = true → (m.run calls).hart.listening = true
  /-- The next cycle takes the interrupt exactly if the last one delivered a line and there was
  no reset since. -/
  taken : (m.run calls).cycle.1 = some (.interrupt .external)
    ↔ ∃ before after, LastCycle calls before after ∧ .reset ∉ after
        ∧ (m.run before).delivery.isSome
  /-- The handler returns to where that last cycle ended. -/
  mepc : ∀ before after, LastCycle calls before after → .reset ∉ after →
    (m.run calls).cycle.1 = some (.interrupt .external) →
    (m.run calls).cycle.2.hart.csr.mepc = (m.run before).cycle.2.hart.pc
  /-- After the next cycle, a hart that listens has been told of the most urgent line. -/
  decided : ∃ c, (m.run calls).cycle.2.bus.controller? controllerSlot = some c
    ∧ ((m.run calls).cycle.2.hart.listening = true → c.next? = none ∨ c.next? = c.current)

/-- Every delivered interrupt is taken exactly once and one cycle later, in every run of every
microcontroller, whatever its program and its devices do. -/
theorem interrupts_kept {config : Config} {m : Microcontroller ε} (hnew : new config = .ok m)
    (calls : List (Call ε)) : InterruptsKept m calls where
  listening := owed_run hnew calls
  taken := by
    have howed := owed_run hnew calls
    rw [← pending_run hnew calls]
    refine Hart.step_fst_interrupt.trans ?_
    exact ⟨fun h => h.1, fun h => ⟨h, howed h⟩⟩
  mepc := by
    intro before after hlast hreset htaken
    rw [cycle_mepc htaken, hlast.split, run_append]
    exact run_pc hlast.since hreset _
  decided := decided_run hnew calls

/-- A program of one instruction at the reset vector, `csrrsi x0, mstatus, 1`. -/
def wakeImage : Elf.Image where
  entry := resetVector
  segments := [⟨1, resetVector, 4, #[0x73, 0xe0, 0x00, 0x30]⟩]

/-- A bus master that turns the controller and its line 0 on, and requests interrupts. -/
def wakeProbe : Probe where
  onCycle :=
    [.store .word 0xea001000 (.constant 0x80000000), .store .word 0xea001004 (.constant 1)]
  assertEvery := some 1

/-- A run whose one cycle ends with a delivery, to be taken in the next. -/
def wakeCalls : List (Call Probe) :=
  [.install (.external wakeProbe), .attach 3 0x40000000, .register 3 0, .load wakeImage, .cycle,
    .timestep]

theorem interrupts_kept_wake :
    ∃ m : Microcontroller Probe, new ⟨1, 1⟩ = .ok m ∧ InterruptsKept m wakeCalls
      ∧ (m.run wakeCalls).cycle.1 = some (.interrupt .external) := by
  have htaken : ((new ⟨1, 1⟩).toOption.map fun m : Microcontroller Probe =>
      (m.run wakeCalls).cycle.1) = some (some (.interrupt .external)) := by
    decide +kernel
  cases hnew : (new ⟨1, 1⟩ : Except ConfigError (Microcontroller Probe)) with
  | error e =>
      rw [hnew] at htaken
      cases htaken
  | ok m =>
      rw [hnew] at htaken
      exact ⟨m, rfl, interrupts_kept hnew wakeCalls, Option.some.inj htaken⟩

end Rv32Soc.Microcontroller
