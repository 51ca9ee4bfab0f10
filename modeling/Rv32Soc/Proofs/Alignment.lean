import Rv32Soc.Device.Probe
import Rv32Soc.Proofs.Footprints

/-!
# The pc stays at words

Three things move the pc: it goes on by four, a jump or a branch takes it to a
target, and traps and returns exchange it with mepc. Targets are looked at
before the jump, and four divides the size of the address space; so the pc can
leave the words only by way of mepc, and mepc only by what a program writes
into it. Neither can be told without the other. A trap puts the pc into mepc
and a return puts mepc into the pc, so what is kept is a fact about the pair.

At a pc of that kind a fetch is never misaligned. Whoever raises a misaligned
instruction address is therefore a jump, or a device that gives a data access
the fault of a fetch, and such devices are told apart. At any other pc a step
is over before the bus is asked for anything.
-/

namespace Rv32Soc

/-! ## Devices that keep to their faults -/

/-- No device of this kind refuses a load or a store with the fault of a misaligned fetch. -/
structure Peripheral.Candid (ε : Type) [Peripheral ε] : Prop where
  read : ∀ {w offset} {e e' : ε} {trap}, Peripheral.read w offset e = .error trap e' →
    trap.fault ≠ .instructionMisaligned
  write : ∀ {w offset value} {e e' : ε} {trap}, Peripheral.write w offset value e = .error trap e' →
    trap.fault ≠ .instructionMisaligned

theorem candid_probe : Peripheral.Candid Probe where
  read {w offset p _ _} h := by
    cases w with
    | byte | halfword => cases h; simp [refuseLoad]
    | word =>
        simp only [Peripheral.read, Probe.readWord] at h
        split at h
        · cases h
        · split at h <;> cases h
          simp
  write {w offset value p _ _} h := by
    cases w with
    | byte | halfword => cases h; simp [refuseStore]
    | word =>
        simp only [Peripheral.write, Probe.writeWord] at h
        split at h <;> cases h
        simp

theorem AddressTrap.toException_ne {trap : AddressTrap} (h : trap.fault ≠ .instructionMisaligned)
    (a : Word) : trap.toException ≠ .instructionAddressMisaligned a := by
  obtain ⟨fault, address⟩ := trap
  cases fault with
  | instructionMisaligned => exact absurd rfl h
  | _ => simp [toException]

section Candid

variable {ε : Type} [Peripheral ε] (hcandid : Peripheral.Candid ε)

include hcandid

theorem Device.candid_read {w : Width} {offset : Word} {d d' : Device ε} {trap : AddressTrap}
    (h : Device.read w offset d = .error trap d') : trap.fault ≠ .instructionMisaligned := by
  cases d with
  | ram s | rom s =>
      simp only [Device.read, Storage.read] at h
      split at h <;> cases h
      simp
  | timer t =>
      cases w with
      | byte | halfword => cases h; simp [refuseLoad]
      | word =>
          simp only [Device.read, Timer.readWord] at h
          split at h <;> cases h
          simp
  | controller c =>
      cases w with
      | byte | halfword => cases h; simp [refuseLoad]
      | word =>
          simp only [Device.read, InterruptController.readWord] at h
          split at h <;> try cases h
          split at h <;> cases h
          simp
  | external e =>
      simp only [Device.read] at h
      split at h <;> cases h
      next hread => exact hcandid.read hread

theorem Device.candid_write {w : Width} {offset : Word} {value : BitVec w.bits} {d d' : Device ε}
    {trap : AddressTrap} (h : Device.write w offset value d = .error trap d') :
    trap.fault ≠ .instructionMisaligned := by
  cases d with
  | ram s =>
      simp only [Device.write, Storage.write] at h
      split at h
      · cases h
      · next hwrite =>
          split at hwrite <;> cases hwrite
          cases h
          simp
  | rom s => cases h; simp
  | timer t =>
      cases w with
      | byte | halfword => cases h; simp [refuseStore]
      | word =>
          simp only [Device.write, Timer.writeWord] at h
          split at h
          · cases h
          · next hwrite =>
              split at hwrite <;> cases hwrite
              cases h
              simp
  | controller c =>
      cases w with
      | byte | halfword => cases h; simp [refuseStore]
      | word =>
          simp only [Device.write, InterruptController.writeWord] at h
          split at h
          · cases h
          · next hwrite =>
              split at hwrite <;> try cases hwrite
              split at hwrite <;> cases hwrite
              cases h
              simp
  | external e =>
      simp only [Device.write] at h
      split at h <;> cases h
      next hwrite => exact hcandid.write hwrite

theorem Bus.candid_load {w : Width} {address : Word} {b b' : Bus ε} {trap : AddressTrap}
    (h : Bus.load w address b = .error trap b') : trap.fault ≠ .instructionMisaligned := by
  unfold load at h
  split at h
  · split at h
    · cases h
      simp
    · next slot offset _ =>
        unfold loadFrom at h
        cases hd : b.device? slot with
        | none =>
            rw [visit_vacant hd] at h
            cases h
            simp
        | some d =>
            cases hread : Device.read w offset d with
            | ok value d' =>
                rw [visit_ok hd hread] at h
                cases h
            | error e d' =>
                rw [visit_error hd hread] at h
                cases h
                have hfault := Device.candid_read hcandid hread
                exact hfault
  · cases h
    simp

theorem Bus.candid_store {w : Width} {address : Word} {value : BitVec w.bits} {b b' : Bus ε}
    {trap : AddressTrap} (h : Bus.store w address value b = .error trap b') :
    trap.fault ≠ .instructionMisaligned := by
  unfold store at h
  split at h
  · split at h
    · cases h
      simp
    · next slot offset _ =>
        unfold storeInto at h
        cases hd : b.device? slot with
        | none =>
            rw [visit_vacant hd] at h
            cases h
            simp
        | some d =>
            cases hwrite : Device.write w offset value d with
            | ok told d' =>
                rw [visit_ok hd hwrite] at h
                cases h
            | error e d' =>
                rw [visit_error hd hwrite] at h
                cases h
                have hfault := Device.candid_write hcandid hwrite
                exact hfault
  · cases h
    simp

end Candid

namespace Hart

open Isa

variable {ε : Type}

/-! ## What is written into mepc -/

/-- The value that an instruction writes into mepc, if it is one that does. -/
def mepcWrite? (h : Hart ε) : Instr → Option Word
  | .csr op _ src number =>
      if csrWrites op src = true ∧ number = 0x341 then some (op.eval h.csr.mepc (h.x src))
      else none
  | .csrImm op _ value number =>
      if csrWrites op value = true ∧ number = 0x341 then
        some (op.eval h.csr.mepc (value.setWidth 32))
      else none
  | _ => none

theorem executeCsr_mepc {word : Word} {op : CsrOp} {dest : Reg} {number : BitVec 12}
    {source : Word} {writes : Bool} {h h' : Hart ε}
    (hok : executeCsr word op dest number source writes h = .ok () h') :
    h'.csr.mepc = (if writes = true ∧ number = 0x341 then some (op.eval h.csr.mepc source)
      else none).getD h.csr.mepc := by
  rw [executeCsr_apply] at hok
  by_cases hnumber : number = 0x341
  · subst hnumber
    cases writes <;> cases hok <;> rfl
  · have hother : ¬(writes = true ∧ number = 0x341) := fun hboth => hnumber hboth.2
    rw [if_neg hother, Option.getD_none]
    split at hok
    · cases hok
    · split at hok <;> cases hok
      next hcsr =>
        cases writes with
        | false => cases hcsr; rfl
        | true =>
            have hkept := Csr.read_of_write (c := h.csr) hcsr (Csr.widened_ne (Ne.symm hnumber))
            exact Except.ok.inj hkept

variable [Peripheral ε]

/-- The value that the next step writes into mepc, if its instruction is one that does. -/
def mepcWritten? (h : Hart ε) : Option Word :=
  h.executed?.bind h.mepcWrite?

theorem execute_mepc {i : Instr} {word : Word} {h h' : Hart ε}
    (hok : execute i word h = .ok () h') : h'.csr.mepc = (h.mepcWrite? i).getD h.csr.mepc := by
  cases huses : i.usesCsr with
  | false =>
      have hnone : h.mepcWrite? i = none := by cases i <;> first | rfl | cases huses
      have hcsr := execute_csr huses word h
      rw [hok, stateAfter_ok] at hcsr
      rw [hnone, hcsr, Option.getD_none]
  | true =>
      cases i with
      | eret => cases hok; rfl
      | csr op dest src number => exact executeCsr_mepc hok
      | csrImm op dest value number => exact executeCsr_mepc hok
      | _ => cases huses

/-! ## Where an instruction goes -/

theorem execute_jumps {i : Instr} {word : Word} {h h' : Hart ε} {target : Word}
    (htarget : h.jumpTarget? i = some target) (hok : execute i word h = .ok () h') :
    Width.Aligned .word target ∧ h'.pc = target := by
  have hlinks : ∀ dest, jumpAndLink dest target h = .ok () h' →
      Width.Aligned .word target ∧ h'.pc = target := by
    intro dest hlink
    rw [jumpAndLink_apply] at hlink
    split at hlink <;> cases hlink
    next haligned => exact ⟨haligned, rfl⟩
  cases i with
  | jal dest offset => cases htarget; exact hlinks dest hok
  | jalr dest base offset => cases htarget; exact hlinks dest hok
  | branch cond src1 src2 offset =>
      simp only [jumpTarget?] at htarget
      split at htarget <;> cases htarget
      next htaken =>
        rw [execute, executeBranch_apply, if_pos htaken, jumpTo] at hok
        split at hok <;> cases hok
        next haligned => exact ⟨haligned, rfl⟩
  | _ => cases htarget

/-- Both the pc and the address that a return goes to are addresses of words. -/
structure AtWords (h : Hart ε) : Prop where
  pc : Width.Aligned .word h.pc
  mepc : Width.Aligned .word h.csr.mepc

omit [Peripheral ε] in
theorem aligned_add_four {pc : Word} (h : Width.Aligned .word pc) :
    Width.Aligned .word (pc + 4) := by
  have hfour : (4 : Word).toNat = 4 := rfl
  simp only [Width.Aligned, Width.bytes] at *
  rw [BitVec.toNat_add, hfour]
  omega

omit [Peripheral ε] in
theorem atWords_reset (bus : Bus ε) : AtWords { bus } :=
  ⟨(by decide : Width.Aligned .word resetVector), (by decide : Width.Aligned .word 0)⟩

theorem AtWords.execute {i : Instr} {word : Word} {h h' : Hart ε} (hh : h.AtWords)
    (hwrites : ∀ value, h.mepcWrite? i = some value → Width.Aligned .word value)
    (hok : Hart.execute i word h = .ok () h') : h'.AtWords where
  pc := by
    cases htarget : h.jumpTarget? i with
    | some target =>
        obtain ⟨haligned, hpc⟩ := execute_jumps htarget hok
        rw [hpc]
        exact haligned
    | none =>
        by_cases hreturn : i = .eret
        · subst hreturn
          cases hok
          exact hh.mepc
        · rw [(execute_retired hok).pc hreturn htarget]
          exact aligned_add_four hh.pc
  mepc := by
    rw [execute_mepc hok]
    cases hwritten : h.mepcWrite? i with
    | none => exact hh.mepc
    | some value => exact hwrites value hwritten

theorem AtWords.step {h : Hart ε} (hh : h.AtWords)
    (hwrites : ∀ value, h.mepcWritten? = some value → Width.Aligned .word value) :
    h.step.2.AtWords := by
  -- Whatever a trap leads out of, the pc was at a word then.
  have htrapped : ∀ (h₁ : Hart ε) trap, (h₁.enterTrap h.pc trap).AtWords :=
    fun h₁ trap => ⟨(by decide : Width.Aligned .word trapVector), hh.pc⟩
  cases hb : h.beginning? with
  | none =>
      obtain ⟨trap, h₁, hstep, -⟩ := step_of_unbegun hb
      rw [hstep]
      exact htrapped h₁ trap
  | some start =>
      obtain ⟨word, h₁⟩ := start
      have hstart : h₁.AtWords :=
        ⟨by rw [beginning_pc hb]; exact hh.pc, by rw [beginning_csr hb]; exact hh.mepc⟩
      have hsame : h₁.mepcWrite? (Instr.decode word) = h.mepcWritten? := by
        rw [mepcWritten?, executed?, hb, Option.map_some, Option.bind_some]
        cases Instr.decode word <;> simp only [mepcWrite?, beginning_csr hb, beginning_x hb]
      rw [step_of_beginning hb]
      cases hrun : Hart.execute (Instr.decode word) word h₁ with
      | ok u h' => exact hstart.execute (fun value hvalue => hwrites value (hsame ▸ hvalue)) hrun
      | error e h' => exact htrapped h' (.exception e)

/-! ## Who raises a misaligned instruction address -/

theorem execute_misaligned (hcandid : Peripheral.Candid ε) {i : Instr} {word a : Word}
    {h h' : Hart ε} (hfail : execute i word h = .error (.instructionAddressMisaligned a) h') :
    h.jumpTarget? i = some a ∧ ¬Width.Aligned .word a := by
  have hlinks : ∀ dest target, jumpAndLink dest target h
      = .error (.instructionAddressMisaligned a) h' →
      some target = some a ∧ ¬Width.Aligned .word a := by
    intro dest target hlink
    rw [jumpAndLink_apply] at hlink
    split at hlink <;> cases hlink
    next hmisaligned => exact ⟨rfl, hmisaligned⟩
  have hload : ∀ {w address b b' trap}, Bus.load w address b = .error trap b' →
      trap.toException ≠ .instructionAddressMisaligned a :=
    fun hload => AddressTrap.toException_ne (Bus.candid_load hcandid hload) a
  have hstore : ∀ {w address value b b' trap}, Bus.store w address value b = .error trap b' →
      trap.toException ≠ .instructionAddressMisaligned a :=
    fun hstore => AddressTrap.toException_ne (Bus.candid_store hcandid hstore) a
  cases i with
  | lui | auipc | opImm | shiftImm | op | eret | scall | sbreak | illegal => cases hfail
  | jal dest offset => exact hlinks dest _ hfail
  | jalr dest base offset => exact hlinks dest _ hfail
  | branch cond src1 src2 offset =>
      rw [execute, executeBranch_apply] at hfail
      split at hfail
      · next htaken =>
          rw [jumpTo] at hfail
          split at hfail <;> cases hfail
          next hmisaligned => exact ⟨by rw [jumpTarget?, if_pos htaken], hmisaligned⟩
      · cases hfail
  | load kind dest base offset =>
      rw [execute, executeLoad_apply] at hfail
      split at hfail
      · cases hfail
      · next heq => exact absurd (EStateM.Result.error.inj hfail).1 (hload heq)
  | store width src base offset =>
      rw [execute, executeStore_apply] at hfail
      split at hfail
      · cases hfail
      · next heq => exact absurd (EStateM.Result.error.inj hfail).1 (hstore heq)
  | loadReserved dest base =>
      rw [execute, executeLoadReserved_apply] at hfail
      split at hfail
      · cases hfail
      · next heq => exact absurd (EStateM.Result.error.inj hfail).1 (hload heq)
  | storeConditional dest base src =>
      rw [execute, executeStoreConditional_apply] at hfail
      split at hfail
      · cases hfail
      · next htry =>
          rw [(EStateM.Result.error.inj hfail).1] at htry
          simp only [tryStore] at htry
          split at htry
          · split at htry
            · split at htry
              · cases htry
              · next heq => exact absurd (EStateM.Result.error.inj htry).1 (hstore heq)
            · cases htry
          · cases htry
  | amo op dest base src =>
      rw [execute, executeAmo_apply] at hfail
      split at hfail
      · split at hfail
        · cases hfail
        · split at hfail
          · next heq => exact absurd (EStateM.Result.error.inj hfail).1 (hstore heq)
          · cases hfail
      · cases hfail
  | csr op dest src number =>
      have hcsr : executeCsr word op dest number (h.x src) (csrWrites op src) h
          = .error (.instructionAddressMisaligned a) h' := hfail
      rw [executeCsr_apply] at hcsr
      split at hcsr
      · cases hcsr
      · split at hcsr <;> cases hcsr
  | csrImm op dest value number =>
      rw [execute, executeCsr_apply] at hfail
      split at hfail
      · cases hfail
      · split at hfail <;> cases hfail

/-- At a word the fetch is not misaligned, so that an instruction has been executed; and if no
device gives its access that fault, the instruction jumps. -/
theorem step_misaligned {h : Hart ε} {a : Word} (hpc : Width.Aligned .word h.pc)
    (htrap : h.step.1 = some (.exception (.instructionAddressMisaligned a))) :
    ∃ i, h.executed? = some i
      ∧ (Peripheral.Candid ε → h.jumpTarget? i = some a ∧ ¬Width.Aligned .word a) := by
  cases hb : h.beginning? with
  | none =>
      unfold beginning? at hb
      split at hb
      · next htaken =>
          obtain ⟨hpending, hlistening⟩ := Bool.and_eq_true_iff.mp htaken
          rw [step_interrupt hpending hlistening] at htrap
          cases htrap
      · next hfree =>
          rw [step_fetch (Bool.eq_false_iff.mpr hfree), fetchAndExecute_eq] at htrap
          rw [Bus.fetch, if_pos hpc] at hb htrap
          cases hload : Bus.load .word h.pc h.bus with
          | ok word b => rw [hload] at hb; cases hb
          | error trap b => rw [hload] at htrap; cases htrap
  | some start =>
      obtain ⟨word, h₁⟩ := start
      rw [step_of_beginning hb] at htrap
      cases hrun : execute (Instr.decode word) word h₁ with
      | ok u h' => rw [hrun] at htrap; cases htrap
      | error e h' =>
          rw [hrun] at htrap
          cases htrap
          refine ⟨_, by rw [executed?, hb]; rfl, fun hcandid => ?_⟩
          rw [← beginning_jumpTarget? hb]
          exact execute_misaligned hcandid hrun

/-- Away from the words a step comes to the same end on every bus and leaves it as it was, but for
the record: there is no access. -/
theorem step_astray {h : Hart ε} (hpc : ¬Width.Aligned .word h.pc)
    (hfree : (h.pending && h.listening) = false) (bus : Bus ε) :
    let trap := Trap.exception (.instructionAddressMisaligned h.pc)
    step { h with bus }
      = (some trap, { h.enterTrap h.pc trap with bus := bus.note (.trapped h.pc trap) }) := by
  intro trap
  rw [step_fetch (h := { h with bus }) hfree, fetchAndExecute_eq, Bus.fetch, if_neg hpc]
  rfl

/-! ## Runs -/

/-- Something that happens to a hart while nobody writes its pc or a control register from
outside. -/
inductive Incident (ε : Type) where
  | step
  | raise
  | reset
  | setRegister (r : Reg) (value : Word)
  /-- Devices and memory change, in whatever way. -/
  | change (bus : Bus ε)

/-- The hart after an incident. -/
def Incident.apply (h : Hart ε) : Incident ε → Hart ε
  | step => h.step.2
  | raise => h.raiseExternal
  | reset => h.reset
  | setRegister r value => h.setX r value
  | change bus => { h with bus }

/-- The hart after a run of incidents. -/
def undergo (h : Hart ε) (run : List (Incident ε)) : Hart ε :=
  run.foldl Incident.apply h

/-- The harts that take the steps of a run, each as it is before its step. -/
def steppers (h : Hart ε) : List (Incident ε) → List (Hart ε)
  | [] => []
  | .step :: rest => h :: steppers h.step.2 rest
  | e :: rest => steppers (e.apply h) rest

theorem AtWords.undergo {h : Hart ε} (hh : h.AtWords) {run : List (Incident ε)}
    (hwrites : ∀ g ∈ h.steppers run, ∀ value, g.mepcWritten? = some value →
      Width.Aligned .word value) :
    (h.undergo run).AtWords ∧ ∀ g ∈ h.steppers run, g.AtWords := by
  induction run generalizing h with
  | nil => exact ⟨hh, nofun⟩
  | cons e rest ih =>
      cases e with
      | step =>
          rw [steppers, List.forall_mem_cons] at hwrites
          obtain ⟨hlast, hrest⟩ := ih (hh.step hwrites.1) hwrites.2
          exact ⟨hlast, List.forall_mem_cons.mpr ⟨hh, hrest⟩⟩
      | raise => exact ih (h := h.raiseExternal) ⟨hh.pc, hh.mepc⟩ hwrites
      | reset => exact ih (atWords_reset h.bus.unreserve) hwrites
      | setRegister r value => exact ih (h := h.setX r value) ⟨hh.pc, hh.mepc⟩ hwrites
      | change bus => exact ih (h := { h with bus }) ⟨hh.pc, hh.mepc⟩ hwrites

/-- Control stays at words in a run, and is told what happens where it does not. -/
structure StaysAtWords (start : Hart ε) (run : List (Incident ε)) : Prop where
  atWords : (start.undergo run).AtWords
  /-- A fetch raises no misaligned instruction address: what does has been fetched. -/
  executed : ∀ g ∈ start.steppers run, ∀ a,
    g.step.1 = some (.exception (.instructionAddressMisaligned a)) → ∃ i, g.executed? = some i
  /-- Where no device answers an access with that fault, a jump to the address raises it. -/
  jumped : Peripheral.Candid ε → ∀ g ∈ start.steppers run, ∀ a,
    g.step.1 = some (.exception (.instructionAddressMisaligned a)) →
      ∃ i, g.executed? = some i ∧ g.jumpTarget? i = some a ∧ ¬Width.Aligned .word a
  /-- At any other pc a step that does not take the interrupt makes no access and traps. -/
  astray : ∀ h : Hart ε, ¬Width.Aligned .word h.pc → (h.pending && h.listening) = false →
    ∀ other : Bus ε, let trap := Trap.exception (.instructionAddressMisaligned h.pc)
      step { h with bus := other }
        = (some trap, { h.enterTrap h.pc trap with bus := other.note (.trapped h.pc trap) })

/-- From a reset on, whatever happens, the pc and mepc are addresses of words as long as no program
writes anything else into mepc. -/
theorem control_aligned (bus : Bus ε) (run : List (Incident ε))
    (hwrites : ∀ g ∈ steppers { bus } run, ∀ value, g.mepcWritten? = some value →
      Width.Aligned .word value) :
    StaysAtWords { bus } run := by
  obtain ⟨hlast, hall⟩ := (atWords_reset bus).undergo hwrites
  refine ⟨hlast, fun g hg a htrap => ?_, fun hcandid g hg a htrap => ?_, fun h => step_astray⟩
  · obtain ⟨i, hi, -⟩ := step_misaligned (hall g hg).pc htrap
    exact ⟨i, hi⟩
  · obtain ⟨i, hi, hjumps⟩ := step_misaligned (hall g hg).pc htrap
    exact ⟨i, hi, hjumps hcandid⟩

/-- A program that reads the address of its second instruction from a probe and puts it into mepc,
and then jumps into the middle of a word. -/
def strayBus : Bus Probe where
  slots := #[some (.ram ⟨1, ⟨splice (Memory.zero pageSize).bytes 0x200
      [0x37, 0x04, 0x00, 0x40, 0x83, 0x24, 0x04, 0x00, 0x73, 0x90, 0x14, 0x34,
        0x6f, 0x00, 0x60, 0x00]⟩⟩),
    some (.external { value := 0x204 })]
  windows := [⟨0, 1, 0⟩, ⟨0x40000000, 1, 1⟩]

theorem control_aligned_stray :
    let run := [.step, .step, .step, .raise, .step]
    (undergo { bus := strayBus } run).AtWords
      ∧ (undergo { bus := strayBus } [.step, .step, .step]).step.1
        = some (.exception (.instructionAddressMisaligned 0x212))
      ∧ ∀ g ∈ steppers { bus := strayBus } run, ∀ a,
          g.step.1 = some (.exception (.instructionAddressMisaligned a)) →
          ∃ i, g.executed? = some i ∧ g.jumpTarget? i = some a ∧ ¬Width.Aligned .word a := by
  intro run
  have hwritten : (steppers { bus := strayBus } run).map mepcWritten?
      = [none, none, some 0x204, none] := by
    decide +kernel
  have hwrites : ∀ g ∈ steppers { bus := strayBus } run, ∀ value, g.mepcWritten? = some value →
      Width.Aligned .word value := by
    intro g hg value hvalue
    have hmem := List.mem_map_of_mem (f := mepcWritten?) hg
    rw [hwritten, hvalue] at hmem
    simp only [List.mem_cons, reduceCtorEq, Option.some.injEq, List.not_mem_nil, or_false,
      false_or] at hmem
    rw [hmem]
    decide
  have haligned := control_aligned strayBus run hwrites
  exact ⟨haligned.atWords, by decide +kernel, haligned.jumped candid_probe⟩

end Hart

end Rv32Soc
