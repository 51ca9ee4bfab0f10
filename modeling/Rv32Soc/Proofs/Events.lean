import Rv32Soc.Proofs.AddressSpace
import Rv32Soc.Proofs.MemoryInstructions
import Rv32Soc.Proofs.Runs

/-!
# Events between the hart and the devices

A hart takes its steps while devices load and store over the same bus, in
turns of their own or one access at a time, and now and then an interrupt is
raised or the hart is reset. An event is one of these, and a run is a list of
them.

What matters for a reservation is written down beside a run as a history of
marks: the load-reserveds that have retired, the store-conditionals that have
been executed, the stores that have succeeded, whoever made them, and the
resets. Marks are read off what happened, not off the reservation.

Much that can be said about a run is a relation between the bus before, the
marks, and the bus after. It holds of every run as soon as it holds of single
accesses, so the way from accesses to runs is gone here once for all such
relations.
-/

namespace Rv32Soc

/-- Something that may matter for a reservation. -/
inductive Mark where
  /-- A load-reserved has retired. -/
  | reserved (address : Word)
  /-- A store-conditional has been executed, however it ended. -/
  | conditional
  /-- A store or an atomic operation has succeeded. -/
  | stored (address : Word)
  | restarted
  deriving DecidableEq

variable {ε : Type} [Peripheral ε]

namespace Bus

/-! ## Marks of devices -/

/-- The marks of a request: a store that succeeds makes one. -/
def requestMarks (b : Bus ε) : Request → List Mark
  | .load .. => []
  | .store w address value =>
      match store w address (value.setWidth w.bits) b with
      | .ok .. => [.stored address]
      | .error .. => []

/-- The marks of the requests of a script, each met by the bus that the ones before have left. -/
def scriptMarks {α : Type} : Script α → Bus ε → List Mark
  | .done _, _ => []
  | .ask request next, b =>
      b.requestMarks request ++ scriptMarks (next (b.answer request).1) (b.answer request).2

/-- The marks of the turn that the device in a slot takes, if it is a bus master. -/
def turnMarks (b : Bus ε) (slot : Nat) (turn : ε → Script ε) : List Mark :=
  match b.device? slot with
  | some (.external e) => scriptMarks (turn e) (b.vacate slot)
  | _ => []

/-! ## Relations along the marks

A store-conditional is one mark, made with the reservation already dropped; so
its store is not a mark of its own, and the two fields on it speak of the bus
after both.
-/

/-- A relation between a bus, some marks, and the bus that was left when they had been made, that
holds of every single access and can be put together. -/
structure Chronicle (R : Bus ε → List Mark → Bus ε → Prop) : Prop where
  noted : ∀ {b b'}, Noted b b' → R b [] b'
  append : ∀ {b₁ xs b₂ ys b₃}, R b₁ xs b₂ → R b₂ ys b₃ → R b₁ (xs ++ ys) b₃
  load : ∀ w address b, R b [] (stateAfter (Bus.load w address b))
  store : ∀ {w address value b b'}, Bus.store w address value b = .ok () b' →
    R b [.stored address] b'
  refused : ∀ {w address value b trap b'}, Bus.store w address value b = .error trap b' → R b [] b'
  reserve : ∀ b address, R b [.reserved address] (b.reserve address)
  conditional : ∀ b, R b [.conditional] b.unreserve
  conditionalStore : ∀ {address value b b'}, Bus.store .word address value b = .ok () b' →
    R b [.conditional] b'.unreserve
  restart : ∀ b, R b [.restarted] b.unreserve
  /-- A timer or a controller may change by itself. -/
  put : ∀ {b slot d} d', b.device? slot = some d → d.storage? = none → R b [] (b.put slot d')
  /-- What a bus master does in its turn it does away from its slot. -/
  turn : ∀ {b slot e xs b'} e', b.device? slot = some (.external e) → R (b.vacate slot) xs b' →
    R b xs (b'.put slot (.external e'))

variable {R : Bus ε → List Mark → Bus ε → Prop}

theorem Chronicle.refl (hR : Chronicle R) (b : Bus ε) : R b [] b :=
  hR.noted (noted_of_eq rfl)

theorem Chronicle.note (hR : Chronicle R) {b b' : Bus ε} {xs : List Mark} (h : R b xs b')
    (r : Record) : R b xs (b'.note r) := by
  have hnoted : R b' [] (b'.note r) := hR.noted ⟨_, rfl⟩
  have happend := hR.append h hnoted
  rw [List.append_nil] at happend
  exact happend

theorem Chronicle.fetch (hR : Chronicle R) (address : Word) (b : Bus ε) :
    R b [] (stateAfter (Bus.fetch address b)) := by
  rw [stateAfter_fetch_eq]
  exact hR.load .word address b

theorem Chronicle.answer (hR : Chronicle R) (request : Request) (b : Bus ε) :
    R b (b.requestMarks request) (b.answer request).2 := by
  cases request with
  | load w address =>
      have hload := hR.load w address b
      simp only [Bus.answer]
      split <;> next heq => rw [heq] at hload; exact hload
  | store w address value =>
      simp only [Bus.answer, requestMarks]
      split <;> next heq =>
        simp only [heq]
        first | exact hR.store heq | exact hR.refused heq

theorem Chronicle.perform (hR : Chronicle R) {α : Type} (script : Script α) (b : Bus ε) :
    R b (scriptMarks script b) (perform script b).2.2 := by
  induction script generalizing b with
  | done result => exact hR.refl b
  | ask request next ih => exact hR.append (hR.answer request b) (ih _ _)

theorem Chronicle.cycle (hR : Chronicle R) (b : Bus ε) (slot : Nat) :
    R b (b.turnMarks slot Peripheral.cycle) (b.cycle slot) := by
  unfold Bus.cycle turnMarks
  cases hd : b.device? slot with
  | none => exact hR.refl b
  | some d =>
      cases d with
      | ram s | rom s => exact hR.refl b
      | timer t | controller c => exact hR.put _ hd rfl
      | external e => exact hR.note (hR.turn _ hd (hR.perform (Peripheral.cycle e) _)) _

theorem Chronicle.timestep (hR : Chronicle R) (b : Bus ε) (slot : Nat) :
    R b (b.turnMarks slot Peripheral.timestep) (b.timestep slot) := by
  unfold Bus.timestep turnMarks
  cases hd : b.device? slot with
  | none => exact hR.refl b
  | some d =>
      cases d with
      | ram s | rom s | timer t | controller c => exact hR.refl b
      | external e => exact hR.note (hR.turn _ hd (hR.perform (Peripheral.timestep e) _)) _

theorem Chronicle.dispatch (hR : Chronicle R) (b : Bus ε) (slot : Nat) (listening : Bool) :
    R b [] (b.dispatch slot listening).2 := by
  unfold Bus.dispatch
  split
  · exact hR.refl b
  · next c hc =>
      have hput := hR.put (.controller (c.dispatch listening).2) (controller?_eq_some.mp hc) rfl
      simp only []
      split
      · exact hR.note hput _
      · exact hput

theorem Chronicle.updateController (hR : Chronicle R) (b : Bus ε) (slot : Nat)
    (f : InterruptController → InterruptController) : R b [] (b.updateController slot f) := by
  unfold Bus.updateController
  cases hd : b.device? slot with
  | none =>
      rw [update, hd]
      exact hR.refl b
  | some d =>
      rw [update_eq_put hd]
      cases d with
      | controller c => exact hR.put _ hd rfl
      | ram s | rom s | timer t | external e =>
          rw [put_self hd]
          exact hR.refl b

end Bus

namespace Hart

open Isa

/-! ## The instruction of a step -/

/-- The word that a step executes and the hart as the execution begins, unless the step takes the
interrupt or the fetch is refused. -/
def beginning? (h : Hart ε) : Option (Word × Hart ε) :=
  if h.pending && h.listening then none
  else
    match Bus.fetch h.pc h.bus with
    | .ok word b => some (word, { h with bus := b }.note (.fetched h.pc word))
    | .error .. => none

/-- The instruction that the next step executes, if it gets as far. -/
def executed? (h : Hart ε) : Option Instr :=
  h.beginning?.map fun start => Instr.decode start.1

theorem executed?_eq_some {h : Hart ε} {i : Instr} (hexecuted : h.executed? = some i) :
    ∃ word h₁, h.beginning? = some (word, h₁) ∧ Instr.decode word = i := by
  obtain ⟨⟨word, h₁⟩, hb, hdecode⟩ := Option.map_eq_some_iff.mp hexecuted
  exact ⟨word, h₁, hb, hdecode⟩

theorem step_of_beginning {h h₁ : Hart ε} {word : Word} (hb : h.beginning? = some (word, h₁)) :
    h.step = match execute (Instr.decode word) word h₁ with
      | .ok () h' => (none, h')
      | .error e h' => (some (.exception e), h'.enterTrap h.pc (.exception e)) := by
  unfold beginning? at hb
  split at hb
  · cases hb
  · next hfree =>
      rw [step_fetch (Bool.eq_false_iff.mpr hfree), fetchAndExecute_eq]
      cases hfetch : Bus.fetch h.pc h.bus with
      | error trap b => rw [hfetch] at hb; cases hb
      | ok w b => rw [hfetch] at hb; cases hb; rfl

theorem step_of_conditional {h h₁ : Hart ε} {word : Word} {dest base src : Reg}
    (hb : h.beginning? = some (word, h₁))
    (hdecode : Instr.decode word = .storeConditional dest base src) :
    h.step = match tryStore base src h₁ with
      | .ok status h' =>
          (none, (h'.note (.storedConditionally (h₁.x base) status)).finished dest status)
      | .error e h' => (some (.exception e), h'.enterTrap h.pc (.exception e)) := by
  rw [step_of_beginning hb, hdecode, execute, executeStoreConditional_apply]
  cases tryStore base src h₁ <;> rfl

/-- The fetch changes nothing of the hart but its bus. -/
theorem beginning?_eq_some {h h₁ : Hart ε} {word : Word} (hb : h.beginning? = some (word, h₁)) :
    ∃ b, Bus.fetch h.pc h.bus = .ok word b
      ∧ h₁ = { h with bus := b.note (.fetched h.pc word) } := by
  unfold beginning? at hb
  split at hb
  · cases hb
  · cases hfetch : Bus.fetch h.pc h.bus with
    | error trap b => rw [hfetch] at hb; cases hb
    | ok w b => rw [hfetch] at hb; cases hb; exact ⟨b, rfl, rfl⟩

theorem beginning_registers {h h₁ : Hart ε} {word : Word}
    (hb : h.beginning? = some (word, h₁)) : h₁.registers = h.registers := by
  obtain ⟨b, -, rfl⟩ := beginning?_eq_some hb
  rfl

theorem beginning_x {h h₁ : Hart ε} {word : Word} (hb : h.beginning? = some (word, h₁))
    (r : Reg) : h₁.x r = h.x r := by
  rw [x, x, beginning_registers hb]

theorem beginning_keepsMemories {h h₁ : Hart ε} {word : Word}
    (hb : h.beginning? = some (word, h₁)) : Bus.KeepsMemories h.bus h₁.bus := by
  obtain ⟨b, hfetch, rfl⟩ := beginning?_eq_some hb
  have hkept := Bus.fetch_keepsMemories h.pc h.bus
  rw [hfetch] at hkept
  exact hkept

theorem beginning_reservation {h h₁ : Hart ε} {word : Word}
    (hb : h.beginning? = some (word, h₁)) : h₁.bus.reservation = h.bus.reservation := by
  obtain ⟨b, hfetch, rfl⟩ := beginning?_eq_some hb
  have hload := (Bus.load_steady .word h.pc h.bus).reservation
  rw [← Bus.stateAfter_fetch_eq, hfetch] at hload
  exact hload

theorem beginning_isReserved {h h₁ : Hart ε} {word : Word}
    (hb : h.beginning? = some (word, h₁)) (address : Word) :
    h₁.bus.isReserved address = h.bus.isReserved address := by
  rw [Bus.isReserved, Bus.isReserved, beginning_reservation hb]

/-! ## Marks of a step -/

/-- The marks of an instruction that retires and is no store-conditional. -/
def instrMarks (h : Hart ε) : Instr → List Mark
  | .loadReserved _ base => [.reserved (h.x base)]
  | .store _ _ base offset => [.stored (h.x base + offset)]
  | .amo _ _ base _ => [.stored (h.x base)]
  | _ => []

/-- The marks of a step. A store-conditional makes its mark however it ends, and all other
instructions only if they retire. -/
def stepMarks (h : Hart ε) : List Mark :=
  match h.executed? with
  | none => []
  | some i =>
      if i.isStoreConditional then [.conditional]
      else if h.step.1.isNone then h.instrMarks i
      else []

variable {R : Bus ε → List Mark → Bus ε → Prop}

theorem beginning_instrMarks {h h₁ : Hart ε} {word : Word} (hb : h.beginning? = some (word, h₁))
    (i : Instr) : h₁.instrMarks i = h.instrMarks i := by
  cases i <;> simp only [instrMarks, beginning_x hb]

theorem beginning_chronicled (hR : Bus.Chronicle R) {h h₁ : Hart ε} {word : Word}
    (hb : h.beginning? = some (word, h₁)) : R h.bus [] h₁.bus := by
  obtain ⟨b, hfetch, rfl⟩ := beginning?_eq_some hb
  have hfetched := hR.fetch h.pc h.bus
  rw [hfetch] at hfetched
  exact hR.note hfetched _

theorem amo_chronicled (hR : Bus.Chronicle R) (op : Amo) (dest base src : Reg) (h : Hart ε) :
    match executeAmo op dest base src h with
    | .ok () h' => R h.bus [.stored (h.x base)] h'.bus
    | .error _ h' => R h.bus [] h'.bus := by
  have hload := hR.load .word (h.x base) h.bus
  rw [executeAmo_apply]
  by_cases haligned : Width.Aligned .word (h.x base)
  · rw [if_pos haligned]
    cases heq : Bus.load .word (h.x base) h.bus with
    | error trap b => rw [heq] at hload; exact hload
    | ok old b =>
        rw [heq] at hload
        cases hstore : Bus.store .word (h.x base) (op.eval old (h.x src)) b with
        | ok u b' =>
            have hdone := hR.append hload (hR.store hstore)
            simp only [hstore]
            exact hdone
        | error trap b' =>
            have hdone := hR.append hload (hR.refused hstore)
            simp only [hstore]
            exact hdone
  · rw [if_neg haligned]
    exact hR.refl h.bus

theorem execute_chronicled (hR : Bus.Chronicle R) {i : Instr} (hi : i.isStoreConditional = false)
    (word : Word) (h : Hart ε) :
    match execute i word h with
    | .ok () h' => R h.bus (h.instrMarks i) h'.bus
    | .error _ h' => R h.bus [] h'.bus := by
  cases hbus : i.usesBus with
  | false =>
      have hnoted := hR.noted (execute_noted hbus word h)
      have hmarks : h.instrMarks i = [] := by cases i <;> first | rfl | cases hbus
      rw [hmarks]
      split <;> next heq => rw [heq] at hnoted; exact hnoted
  | true =>
      cases i with
      | storeConditional dest base src => cases hi
      | load kind dest base offset =>
          have hload := hR.load kind.width (h.x base + offset) h.bus
          simp only [execute, executeLoad_apply]
          cases heq : Bus.load kind.width (h.x base + offset) h.bus <;>
            rw [heq] at hload <;> exact hload
      | store width src base offset =>
          simp only [execute, executeStore_apply]
          cases heq : Bus.store width (h.x base + offset) ((h.x src).setWidth width.bits) h.bus with
          | ok u b => exact hR.store heq
          | error trap b => exact hR.refused heq
      | loadReserved dest base =>
          have hload := hR.load .word (h.x base) h.bus
          simp only [execute, executeLoadReserved_apply]
          cases heq : Bus.load .word (h.x base) h.bus with
          | ok value b => rw [heq] at hload; exact hR.append hload (hR.reserve b (h.x base))
          | error trap b => rw [heq] at hload; exact hload
      | amo op dest base src => exact amo_chronicled hR op dest base src h
      | lui | auipc | jal | jalr | branch | opImm | shiftImm | op | scall | sbreak | eret | csr
      | csrImm | illegal => cases hbus

theorem tryStore_chronicled (hR : Bus.Chronicle R) (base src : Reg) (h : Hart ε) :
    R h.bus [.conditional] (stateAfter (tryStore base src h)).bus := by
  simp only [tryStore]
  split
  · split
    · cases hstore : Bus.store .word (h.x base) (h.x src) h.bus with
      | ok u b => exact hR.conditionalStore hstore
      | error trap b => exact hR.append (hR.refused hstore) (hR.conditional b)
    · exact hR.conditional h.bus
  · exact hR.conditional h.bus

theorem storeConditional_chronicled (hR : Bus.Chronicle R) (dest base src : Reg) (word : Word)
    (h : Hart ε) :
    R h.bus [.conditional] (stateAfter (execute (.storeConditional dest base src) word h)).bus := by
  have htry := tryStore_chronicled hR base src h
  simp only [execute, executeStoreConditional_apply]
  cases heq : tryStore base src h with
  | ok status h' => rw [heq] at htry; exact hR.note htry _
  | error e h' => rw [heq] at htry; exact htry

/-- A step that executes nothing leaves a record at most. -/
theorem unbegun_chronicled (hR : Bus.Chronicle R) {h : Hart ε} (hb : h.beginning? = none) :
    R h.bus [] h.step.2.bus := by
  unfold beginning? at hb
  split at hb
  · next htaken =>
      obtain ⟨hpending, hlistening⟩ := Bool.and_eq_true_iff.mp htaken
      rw [step_interrupt hpending hlistening]
      exact hR.note (hR.refl h.bus) _
  · next hfree =>
      have hfetched := hR.fetch h.pc h.bus
      rw [step_fetch (Bool.eq_false_iff.mpr hfree), fetchAndExecute_eq]
      cases hfetch : Bus.fetch h.pc h.bus with
      | ok word b => rw [hfetch] at hb; cases hb
      | error trap b => rw [hfetch] at hfetched; exact hR.note hfetched _

theorem step_chronicled (hR : Bus.Chronicle R) (h : Hart ε) :
    R h.bus h.stepMarks h.step.2.bus := by
  cases hb : h.beginning? with
  | none =>
      have hmarks : h.stepMarks = [] := by simp [stepMarks, executed?, hb]
      rw [hmarks]
      exact unbegun_chronicled hR hb
  | some start =>
      obtain ⟨word, h₁⟩ := start
      have hbegun := beginning_chronicled hR hb
      have hstep := step_of_beginning hb
      have hexecuted : h.executed? = some (Instr.decode word) := by simp [executed?, hb]
      -- Only a store-conditional leaves a mark when it fails.
      cases hi : (Instr.decode word).isStoreConditional with
      | true =>
          have hmarks : h.stepMarks = [.conditional] := by simp [stepMarks, hexecuted, hi]
          obtain ⟨dest, base, src, heq⟩ := Instr.eq_of_isStoreConditional hi
          have hdone := hR.append hbegun (storeConditional_chronicled hR dest base src word h₁)
          rw [← heq] at hdone
          rw [hmarks, hstep]
          cases hrun : execute (Instr.decode word) word h₁ with
          | ok u h' => rw [hrun] at hdone; exact hdone
          | error e h' => rw [hrun] at hdone; exact hR.note hdone _
      | false =>
          have hdone := execute_chronicled hR hi word h₁
          cases hrun : execute (Instr.decode word) word h₁ with
          | ok u h' =>
              rw [hrun] at hdone hstep
              have hmarks : h.stepMarks = h₁.instrMarks (Instr.decode word) := by
                rw [beginning_instrMarks hb]
                simp [stepMarks, hexecuted, hi, hstep]
              rw [hmarks, hstep]
              exact hR.append hbegun hdone
          | error e h' =>
              rw [hrun] at hdone hstep
              have hmarks : h.stepMarks = [] := by simp [stepMarks, hexecuted, hi, hstep]
              rw [hmarks, hstep]
              exact hR.note (hR.append hbegun hdone) _

/-! ## Events -/

/-- Something that happens to a hart and its bus. -/
inductive Event where
  | step
  /-- A device that is not on the bus loads or stores. -/
  | access (request : Request)
  /-- The device in a slot has its cycle, in which it may load and store. -/
  | cycle (slot : Nat)
  /-- The device in a slot has its timestep, in which it may load and store. -/
  | timestep (slot : Nat)
  | raise
  | reset

/-- The hart after an event. -/
def Event.apply (h : Hart ε) : Event → Hart ε
  | step => h.step.2
  | access request => { h with bus := (h.bus.answer request).2 }
  | cycle slot => { h with bus := h.bus.cycle slot }
  | timestep slot => { h with bus := h.bus.timestep slot }
  | raise => h.raiseExternal
  | reset => h.reset

/-- The marks that an event makes. -/
def Event.marks (h : Hart ε) : Event → List Mark
  | step => h.stepMarks
  | access request => h.bus.requestMarks request
  | cycle slot => h.bus.turnMarks slot Peripheral.cycle
  | timestep slot => h.bus.turnMarks slot Peripheral.timestep
  | raise => []
  | reset => [.restarted]

/-- A hart as it starts, on a new bus with some devices. -/
def fresh (calls : List (Bus.Setup ε)) : Hart ε :=
  { bus := Bus.setUp calls }

/-- The hart after some events. -/
def run (h : Hart ε) (events : List Event) : Hart ε :=
  events.foldl Event.apply h

/-- The marks of some events, oldest first. -/
def history (h : Hart ε) : List Event → List Mark
  | [] => []
  | e :: rest => e.marks h ++ history (e.apply h) rest

theorem run_append (h : Hart ε) (events more : List Event) :
    h.run (events ++ more) = (h.run events).run more :=
  List.foldl_append

theorem history_append (h : Hart ε) (events more : List Event) :
    h.history (events ++ more) = h.history events ++ (h.run events).history more := by
  induction events generalizing h with
  | nil => rfl
  | cons e rest ih => rw [List.cons_append, history, history, ih, List.append_assoc]; rfl

theorem event_chronicled (hR : Bus.Chronicle R) (h : Hart ε) (e : Event) :
    R h.bus (e.marks h) (e.apply h).bus := by
  cases e with
  | step => exact step_chronicled hR h
  | access request => exact hR.answer request h.bus
  | cycle slot => exact hR.cycle h.bus slot
  | timestep slot => exact hR.timestep h.bus slot
  | raise => exact hR.refl h.bus
  | reset => exact hR.restart h.bus

theorem run_chronicled (hR : Bus.Chronicle R) (h : Hart ε) (events : List Event) :
    R h.bus (h.history events) (h.run events).bus := by
  induction events generalizing h with
  | nil => exact hR.refl h.bus
  | cons e rest ih => exact hR.append (event_chronicled hR h e) (ih (e.apply h))

end Hart

/-! ## Calls

What does not look at the marks is handed on through whole calls. -/

section Unmarked

variable {R : Bus ε → Bus ε → Prop} (hR : Bus.Chronicle fun b _ b' => R b b')

include hR

theorem Bus.Chronicle.trans_unmarked {b₁ b₂ b₃ : Bus ε} (h₁ : R b₁ b₂) (h₂ : R b₂ b₃) :
    R b₁ b₃ :=
  @Bus.Chronicle.append _ _ _ hR _ [] _ [] _ h₁ h₂

namespace Microcontroller

theorem cycle_chronicled (m : Microcontroller ε) : R m.bus m.cycle.2.bus := by
  have hstep : R m.bus m.hart.step.2.bus := Hart.step_chronicled hR m.hart
  have hturns : R m.bus (m.attached.foldl Bus.cycle m.hart.step.2.bus) :=
    m.attached.foldlRecOn _ hstep fun b h slot _ => hR.trans_unmarked h (hR.cycle b slot)
  have hpoll := hR.trans_unmarked hturns (hR.cycle _ controllerSlot)
  rw [cycle_eq]
  exact hR.trans_unmarked hpoll (hR.dispatch _ controllerSlot _)

theorem timestep_chronicled (m : Microcontroller ε) : R m.bus m.timestep.bus :=
  m.attached.foldlRecOn _ (hR.refl m.bus) fun b h slot _ =>
    hR.trans_unmarked h (hR.timestep b slot)

theorem reset_chronicled (m : Microcontroller ε) : R m.bus m.reset.bus := by
  have hcontroller := hR.trans_unmarked (hR.restart m.bus)
    (hR.updateController m.bus.unreserve controllerSlot (·.reset))
  exact hR.trans_unmarked hcontroller (hR.noted ⟨_, rfl⟩)

end Microcontroller

end Unmarked

end Rv32Soc
