import Rv32Soc.Isa.Encode
import Rv32Soc.Proofs.Events
import Rv32Soc.Proofs.Histories

/-!
# The reservation over a run

The reservation is changed at many places: by load-reserveds, by stores of
every width and origin, at the three exits of a store-conditional, and by a
reset. What the marks of a run make of it, read one after the other, is what
the run makes of it. From there on a word is reserved just if the history says
so: a load-reserved on it, and nothing after that which could have taken the
reservation away.
-/

namespace Rv32Soc

variable {ε : Type}

/-! ## Marks and the reservation -/

/-- What a mark makes of the reservation. -/
def Mark.effect (reservation : Option Word) : Mark → Option Word
  | reserved address => some (wordAddress address)
  | conditional | restarted => none
  | stored address => if reservation = some (wordAddress address) then none else reservation

/-- The mark leaves a word reserved that was reserved before. -/
def Mark.Spares (word : Word) : Mark → Prop
  | reserved address => wordAddress address = word
  | conditional | restarted => False
  | stored address => wordAddress address ≠ word

theorem Mark.effect_eq_some {reservation : Option Word} {m : Mark} {word : Word} :
    m.effect reservation = some word ↔ (∃ address, m = .reserved address ∧ wordAddress address = word)
      ∨ (m.Spares word ∧ reservation = some word) := by
  cases m with
  | reserved address => simpa [effect, Spares] using fun h _ => h
  | conditional | restarted => simp [effect, Spares]
  | stored address =>
      simp only [effect, Spares, reduceCtorEq, false_and, exists_false, false_or]
      constructor
      · intro h
        split at h
        · cases h
        · next hother =>
            subst h
            exact ⟨fun heq => hother (by rw [heq]), rfl⟩
      · rintro ⟨hother, rfl⟩
        rw [if_neg fun heq => hother (Option.some.inj heq).symm]

/-- A load-reserved on the word has retired, and what came after it has left the word reserved. -/
def Reserved (marks : List Mark) (word : Word) : Prop :=
  ∃ before address after, marks = before ++ .reserved address :: after
    ∧ wordAddress address = word ∧ ∀ m ∈ after, m.Spares word

theorem reserved_iff_since {marks : List Mark} {word : Word} : Reserved marks word
    ↔ Since (fun _ m => ∃ address, m = .reserved address ∧ wordAddress address = word)
        (·.Spares word) marks := by
  constructor
  · rintro ⟨before, address, after, rfl, hword, hafter⟩
    exact ⟨before, _, after, rfl, ⟨address, rfl, hword⟩, hafter⟩
  · rintro ⟨before, _, after, rfl, ⟨address, rfl, hword⟩, hafter⟩
    exact ⟨before, address, after, rfl, hword, hafter⟩

theorem foldl_effect_eq_some {marks : List Mark} {word : Word} :
    marks.foldl Mark.effect none = some word ↔ Reserved marks word := by
  rw [reserved_iff_since]
  induction marks using List.reverseRecOn with
  | nil => exact iff_of_false nofun not_since_nil
  | append_singleton marks m ih =>
      rw [List.foldl_append, List.foldl_cons, List.foldl_nil, Mark.effect_eq_some, ih, since_snoc]

variable [Peripheral ε]

/-! ## Runs -/

/-- Along every run the marks do to the reservation what the run does to it. -/
theorem Bus.reservation_chronicle : Bus.Chronicle fun (b : Bus ε) marks b' =>
    b'.reservation = marks.foldl Mark.effect b.reservation where
  noted := by
    rintro b b' ⟨journal, rfl⟩
    rfl
  append h₁ h₂ := by rw [h₂, h₁, List.foldl_append]
  load w address b := (load_steady w address b).reservation
  store h := store_reservation h
  refused h := (store_error_steady h).reservation
  reserve _ _ := rfl
  conditional _ := rfl
  conditionalStore _ := rfl
  restart _ := rfl
  put _ _ _ := rfl
  turn _ _ h := h

theorem Bus.setUp_reservation (calls : List (Bus.Setup ε)) :
    (Bus.setUp calls).reservation = none := by
  induction calls using List.reverseRecOn with
  | nil => rfl
  | append_singleton calls call ih =>
      rw [Bus.setUp_snoc]
      cases call with
      | install d => exact ih
      | attach slot base =>
          simp only [Bus.Setup.apply]
          cases hattach : (Bus.setUp calls).attach slot base with
          | error e => exact ih
          | ok b =>
              obtain ⟨d, -, -, -, rfl⟩ := Bus.attach_eq_ok.mp hattach
              exact ih

namespace Hart

open Isa

/-! ## Store-conditionals -/

/-- How a step ends that executes a store-conditional at an aligned address. The instruction has
been fetched, and the hart is at `h₁`. -/
structure ConditionalEnds (h h₁ : Hart ε) (dest base src : Reg) : Prop where
  stored : ∀ b, h.bus.isReserved (h.x base) = true →
    Bus.store .word (h.x base) (h.x src) h₁.bus = .ok () b →
      h.step.1 = none ∧ h.step.2.registers = h.registers.set dest 0
        ∧ h.step.2.bus.slots = b.slots
  unreserved : h.bus.isReserved (h.x base) = false →
    h.step.1 = none ∧ h.step.2.registers = h.registers.set dest 1
      ∧ Bus.KeepsMemories h.bus h.step.2.bus
  refused : ∀ trap b, h.bus.isReserved (h.x base) = true →
    Bus.store .word (h.x base) (h.x src) h₁.bus = .error trap b →
      h.step.1 = some (.exception trap.toException) ∧ h.step.2.registers = h.registers
        ∧ h.step.2.bus.slots = b.slots
  zero_iff : dest ≠ 0 → (h.step.1 = none ∧ h.step.2.x dest = 0 ↔
    h.bus.isReserved (h.x base) = true
      ∧ ∃ b, Bus.store .word (h.x base) (h.x src) h₁.bus = .ok () b)

section Conditionals

variable {h h₁ : Hart ε} {word : Word} {dest base src : Reg}

theorem step_unreserved (hb : h.beginning? = some (word, h₁))
    (hdecode : Instr.decode word = .storeConditional dest base src)
    (haligned : Width.Aligned .word (h.x base)) (hno : h.bus.isReserved (h.x base) = false) :
    h.step = (none, ({ h₁ with bus := h₁.bus.unreserve }.note
      (.storedConditionally (h.x base) 1)).finished dest 1) := by
  rw [← beginning_x hb base] at haligned hno ⊢
  rw [← beginning_isReserved hb] at hno
  rw [step_of_conditional hb hdecode, tryStore_unreserved haligned hno]

theorem step_reserved (hb : h.beginning? = some (word, h₁))
    (hdecode : Instr.decode word = .storeConditional dest base src)
    (haligned : Width.Aligned .word (h.x base)) (hyes : h.bus.isReserved (h.x base) = true) :
    h.step = match Bus.store .word (h.x base) (h.x src) h₁.bus with
      | .ok () b => (none, ({ h₁ with bus := b.unreserve }.note
          (.storedConditionally (h.x base) 0)).finished dest 0)
      | .error trap b => (some (.exception trap.toException),
          { h₁ with bus := b.unreserve }.enterTrap h.pc (.exception trap.toException)) := by
  rw [← beginning_x hb base] at haligned hyes ⊢
  rw [← beginning_x hb src]
  rw [← beginning_isReserved hb] at hyes
  rw [step_of_conditional hb hdecode, tryStore_reserved haligned hyes]
  cases Bus.store .word (h₁.x base) (h₁.x src) h₁.bus <;> rfl

theorem conditional_ends (hb : h.beginning? = some (word, h₁))
    (hdecode : Instr.decode word = .storeConditional dest base src)
    (haligned : Width.Aligned .word (h.x base)) : ConditionalEnds h h₁ dest base src := by
  have hregisters := beginning_registers hb
  constructor
  · intro b hyes hstore
    rw [step_reserved hb hdecode haligned hyes, hstore, ← hregisters]
    exact ⟨rfl, rfl, rfl⟩
  · intro hno
    rw [step_unreserved hb hdecode haligned hno, ← hregisters]
    exact ⟨rfl, rfl, (beginning_keepsMemories hb).trans (Bus.keepsMemories_of_slots rfl)⟩
  · intro trap b hyes hstore
    rw [step_reserved hb hdecode haligned hyes, hstore, ← hregisters]
    exact ⟨rfl, rfl, rfl⟩
  · intro hdest
    cases hyes : h.bus.isReserved (h.x base) with
    | false =>
        rw [step_unreserved hb hdecode haligned hyes]
        constructor
        · rintro ⟨-, hzero⟩
          have hone := @Registers.get_set h₁.registers dest hdest 1
          exact absurd (hzero.symm.trans hone) (by decide)
        · nofun
    | true =>
        rw [step_reserved hb hdecode haligned hyes]
        cases hstore : Bus.store .word (h.x base) (h.x src) h₁.bus with
        | ok u b => exact ⟨fun _ => ⟨rfl, b, rfl⟩, fun _ => ⟨rfl, Registers.get_set hdest 0⟩⟩
        | error trap b =>
            constructor
            · nofun
            · rintro ⟨-, b', hb'⟩
              cases hb'

end Conditionals

/-- A word is reserved just if the history of the run says so, and a store-conditional at an
aligned address stores just if its word is reserved and the bus accepts the store. -/
theorem reservations_kept (calls : List (Bus.Setup ε)) (events : List Event) :
    (∀ address, ((fresh calls).run events).bus.isReserved address = true
        ↔ Reserved ((fresh calls).history events) (wordAddress address))
      ∧ ∀ word h₁ dest base src,
        ((fresh calls).run events).beginning? = some (word, h₁) →
        Instr.decode word = .storeConditional dest base src →
        Width.Aligned .word (((fresh calls).run events).x base) →
          ConditionalEnds ((fresh calls).run events) h₁ dest base src := by
  constructor
  · intro address
    have hmarks := run_chronicled Bus.reservation_chronicle (fresh calls) events
    have hnone : (fresh calls).bus.reservation = none := Bus.setUp_reservation calls
    rw [Bus.isReserved_iff, hmarks, hnone, foldl_effect_eq_some]
  · intro word h₁ dest base src hb hdecode haligned
    exact conditional_ends hb hdecode haligned

/-- `addi x7, x0, 42`, `lr.w x5, (x0)` and `sc.w x6, x7, (x0)` at the reset vector, and 7 at
address 0. -/
def pairMemory : Storage :=
  ⟨1, ⟨splice (splice (Memory.zero pageSize).bytes 0 [7]) 0x200
    ([Instr.opImm .addi 7 0 42, .loadReserved 5 0, .storeConditional 6 0 7].flatMap
      fun i => disassemble (n := 4) i.encode)⟩⟩

/-- The memory is all that there is on the bus. -/
def pairCalls : List (Bus.Setup Empty) :=
  [.install (.ram pairMemory), .attach 0 0]

/-- Between the load-reserved and the store-conditional a device stores next to the word. -/
def pairEvents : List Event :=
  [.step, .step, .access (.store .byte 4 1)]

theorem reservations_kept_pair :
    Reserved ((fresh pairCalls).history pairEvents) 0
      ∧ ∃ h₁, ConditionalEnds ((fresh pairCalls).run pairEvents) h₁ 6 0 7 := by
  obtain ⟨hreserved, hends⟩ := reservations_kept pairCalls pairEvents
  refine ⟨(hreserved 0).mp (by decide +kernel), ?_⟩
  have hnext : ((fresh pairCalls).run pairEvents).beginning?.map Prod.fst
      = some (Instr.encode (.storeConditional 6 0 7)) := by
    decide +kernel
  obtain ⟨⟨word, h₁⟩, hb, hword⟩ := Option.map_eq_some_iff.mp hnext
  subst hword
  exact ⟨h₁, hends _ h₁ 6 0 7 hb (by decide +kernel) (by decide +kernel)⟩

end Hart

end Rv32Soc
