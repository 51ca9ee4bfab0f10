import Rv32Soc.Proofs.ControlRegisters
import Rv32Soc.Proofs.Events

/-!
# Trap handlers return to where they were called

A trap puts the pc into mepc, pushes the interrupt bit and turns interrupts
off. A handler is the run of steps that follows, up to a return; interrupts
may be raised meanwhile, and devices and memory may change in any way. If the
handler raises no exception and leaves mstatus and mepc alone, then each of
its steps leaves these three facts as they are, so no step takes an interrupt
and the return finds what the trap has put there. An interrupt that was raised
meanwhile has stayed pending, and is taken by the very next step if interrupts
were on before the trap.
-/

namespace Rv32Soc.Hart

open Isa

variable {ε : Type}

/-! ## Runs of a handler -/

/-- Something that happens while a trap is handled. -/
inductive Interlude (ε : Type) where
  | step
  | raise
  /-- Devices and memory change, in whatever way. -/
  | change (bus : Bus ε)

/-- The hart handles a trap that was taken at `p` when interrupts were on or off. -/
structure Handling (p : Word) (on : Bool) (h : Hart ε) : Prop where
  off : h.csr.ie = false
  previous : h.csr.previous = on
  mepc : h.csr.mepc = p

theorem Handling.of_sameReturn {p : Word} {on : Bool} {h h' : Hart ε} (hh : Handling p on h)
    (hsame : Csr.SameReturn h.csr h'.csr) : Handling p on h' :=
  ⟨hsame.ie.trans hh.off, hsame.previous.trans hh.previous, hsame.mepc.trans hh.mepc⟩

theorem Handling.not_taken {p : Word} {on : Bool} {h : Hart ε} (hh : Handling p on h) :
    (h.pending && h.listening) = false := by
  rw [listening, hh.off, Bool.and_false]

variable [Peripheral ε]

/-- The hart after an interlude. -/
def Interlude.apply (h : Hart ε) : Interlude ε → Hart ε
  | step => h.step.2
  | raise => h.raiseExternal
  | change bus => { h with bus }

/-- The hart after some interludes. -/
def handled (h : Hart ε) (run : List (Interlude ε)) : Hart ε :=
  run.foldl Interlude.apply h

/-- The harts that take the steps of a run, each as it is before its step. -/
def stepping (h : Hart ε) : List (Interlude ε) → List (Hart ε)
  | [] => []
  | .step :: rest => h :: stepping h.step.2 rest
  | .raise :: rest => stepping h.raiseExternal rest
  | .change bus :: rest => stepping { h with bus } rest

/-- The step in front of the hart raises no exception, and its instruction leaves alone what the
return goes by. -/
structure Handles (h : Hart ε) : Prop where
  unexceptional : ∀ e, h.step.1 ≠ some (.exception e)
  undisturbing : ∀ i, h.nextInstr? = some i → i.disturbsReturn = false

/-! ## Entering and leaving -/

variable {p : Word} {on : Bool} {h : Hart ε}

theorem nextInstr?_of_beginning {word : Word} {h₁ : Hart ε}
    (hb : h.beginning? = some (word, h₁)) : h.nextInstr? = some (Instr.decode word) := by
  obtain ⟨b, hfetch, -⟩ := beginning?_eq_some hb
  simp only [nextInstr?, hfetch]

theorem beginning_csr {word : Word} {h₁ : Hart ε} (hb : h.beginning? = some (word, h₁)) :
    h₁.csr = h.csr := by
  obtain ⟨b, -, rfl⟩ := beginning?_eq_some hb
  rfl

/-- A step that begins no instruction takes a trap. -/
theorem step_of_unbegun (hb : h.beginning? = none) :
    ∃ (trap : Trap) (h₁ : Hart ε),
      h.step = (some trap, h₁.enterTrap h.pc trap) ∧ h₁.csr = h.csr := by
  unfold beginning? at hb
  split at hb
  · next htaken =>
      obtain ⟨hpending, hlistening⟩ := Bool.and_eq_true_iff.mp htaken
      exact ⟨_, _, step_interrupt hpending hlistening, rfl⟩
  · next hfree =>
      rw [step_fetch (Bool.eq_false_iff.mpr hfree), fetchAndExecute_eq]
      cases hfetch : Bus.fetch h.pc h.bus with
      | ok word b => rw [hfetch] at hb; cases hb
      | error trap b => exact ⟨_, _, rfl, rfl⟩

/-- Whatever trap a step takes, the control registers are those of before when it is entered. -/
theorem step_trap {trap : Trap} (htrap : h.step.1 = some trap) :
    ∃ h₁ : Hart ε, h.step.2 = h₁.enterTrap h.pc trap ∧ h₁.csr = h.csr := by
  cases hb : h.beginning? with
  | none =>
      obtain ⟨trap', h₁, hstep, hcsr⟩ := step_of_unbegun hb
      rw [hstep] at htrap ⊢
      cases htrap
      exact ⟨h₁, rfl, hcsr⟩
  | some start =>
      obtain ⟨word, h₁⟩ := start
      rw [step_of_beginning hb] at htrap ⊢
      cases hrun : execute (Instr.decode word) word h₁ with
      | ok u h' => rw [hrun] at htrap; cases htrap
      | error e h' =>
          rw [hrun] at htrap
          cases htrap
          exact ⟨h', rfl, (execute_error_csr hrun).trans (beginning_csr hb)⟩

theorem handling_of_trap (htrap : h.step.1.isSome) : Handling h.pc h.csr.ie h.step.2 := by
  obtain ⟨trap, hsome⟩ := Option.isSome_iff_exists.mp htrap
  obtain ⟨h₁, hentered, hcsr⟩ := step_trap hsome
  rw [hentered, ← hcsr]
  exact ⟨rfl, rfl, rfl⟩

theorem Handling.step (hh : Handling p on h) (hstep : h.Handles) :
    h.step.1 = none ∧ Handling p on h.step.2 := by
  cases hb : h.beginning? with
  | none =>
      obtain ⟨trap, h₁, heq, -⟩ := step_of_unbegun hb
      cases trap with
      | exception e => exact absurd (by rw [heq]) (hstep.unexceptional e)
      | interrupt source =>
          -- Interrupts are off.
          cases source
          have htaken := step_fst_interrupt.mp (congrArg Prod.fst heq)
          rw [Hart.listening, hh.off] at htaken
          cases htaken.2
  | some start =>
      obtain ⟨word, h₁⟩ := start
      have hkept := execute_sameReturn
        (hstep.undisturbing _ (nextInstr?_of_beginning hb)) word h₁
      have hrun := step_of_beginning hb
      cases heq : execute (Instr.decode word) word h₁ with
      | ok u h' =>
          rw [heq] at hkept hrun
          rw [beginning_csr hb] at hkept
          rw [hrun]
          exact ⟨rfl, hh.of_sameReturn hkept⟩
      | error e h' =>
          rw [heq] at hrun
          exact absurd (by rw [hrun]) (hstep.unexceptional e)

theorem step_of_return (hfree : (h.pending && h.listening) = false)
    (hreturn : h.nextInstr? = some .eret) :
    h.step.1 = none ∧ h.step.2.pc = h.csr.mepc ∧ h.step.2.csr = h.csr.leaveTrap
      ∧ h.step.2.pending = h.pending := by
  rw [step_fetch hfree, fetchAndExecute_eq]
  cases hfetch : Bus.fetch h.pc h.bus with
  | error trap b => simp [nextInstr?, hfetch] at hreturn
  | ok word b =>
      simp only [nextInstr?, hfetch, Option.some.injEq] at hreturn
      simp only [hreturn]
      exact ⟨rfl, rfl, rfl, rfl⟩

/-! ## A whole handler -/

theorem Handling.handled (hh : Handling p on h) {run : List (Interlude ε)}
    (hrun : ∀ g ∈ h.stepping run, g.Handles) :
    (∀ g ∈ h.stepping run, g.step.1 = none) ∧ Handling p on (h.handled run) := by
  induction run generalizing h with
  | nil => exact ⟨nofun, hh⟩
  | cons e rest ih =>
      cases e with
      | step =>
          obtain ⟨hnone, hnext⟩ := hh.step (hrun h List.mem_cons_self)
          obtain ⟨hrest, hlast⟩ := ih hnext fun g hg => hrun g (List.mem_cons_of_mem h hg)
          refine ⟨fun g hg => ?_, hlast⟩
          obtain rfl | hg := List.mem_cons.mp hg
          · exact hnone
          · exact hrest g hg
      | raise => exact ih (h := h.raiseExternal) ⟨hh.off, hh.previous, hh.mepc⟩ hrun
      | change bus => exact ih (h := { h with bus }) ⟨hh.off, hh.previous, hh.mepc⟩ hrun

/-- While interrupts are off, what is raised stays pending. -/
theorem Handling.pending_handled (hh : Handling p on h) {run : List (Interlude ε)}
    (hrun : ∀ g ∈ h.stepping run, g.Handles)
    (hraised : h.pending = true ∨ .raise ∈ run) : (h.handled run).pending = true := by
  induction run generalizing h with
  | nil =>
      obtain hpending | hmem := hraised
      · exact hpending
      · cases hmem
  | cons e rest ih =>
      cases e with
      | step =>
          -- A step takes what is pending only if it listens.
          have hkept : h.step.2.pending = h.pending := by
            rw [step_pending, Hart.listening, hh.off, Bool.not_false, Bool.and_true]
          refine ih (hh.step (hrun h List.mem_cons_self)).2
            (fun g hg => hrun g (List.mem_cons_of_mem h hg)) ?_
          rw [Interlude.apply, hkept]
          simpa using hraised
      | raise => exact ih (h := h.raiseExternal) ⟨hh.off, hh.previous, hh.mepc⟩ hrun (.inl rfl)
      | change bus =>
          exact ih (h := { h with bus }) ⟨hh.off, hh.previous, hh.mepc⟩ hrun
            (by simpa using hraised)

/-- What is certain of the return from the trap that `h` took, when `last` is the hart in front of
it and `run` is what happened since the trap. -/
structure Returns (h : Hart ε) (run : List (Interlude ε)) (last : Hart ε) : Prop where
  untrapped : last.step.1 = none
  pc : last.step.2.pc = h.pc
  ie : last.step.2.csr.ie = h.csr.ie
  previous : last.step.2.csr.previous = true
  mcause : last.step.2.csr.mcause = last.csr.mcause
  /-- If interrupts were on, the step after the return takes what was raised meanwhile, whatever
  it would find on the bus. -/
  taken : .raise ∈ run → h.csr.ie = true → ∀ bus : Bus ε,
    let next := { last.step.2 with bus }.step
    next.1 = some (.interrupt .external) ∧ next.2.csr.mepc = h.pc
  /-- If they were off, it stays pending, also after the next step. -/
  held : .raise ∈ run → h.csr.ie = false →
    last.step.2.pending = true ∧ last.step.2.step.2.pending = true

/-- A trap handler is not interrupted, and a return from it goes exactly to where the trap was
taken. -/
theorem handler_returns (htrap : h.step.1.isSome) {run : List (Interlude ε)}
    (hrun : ∀ g ∈ h.step.2.stepping run, g.Handles) :
    (∀ g ∈ h.step.2.stepping run, g.step.1 ≠ some (.interrupt .external))
      ∧ ((h.step.2.handled run).nextInstr? = some .eret →
          Returns h run (h.step.2.handled run)) := by
  have hentered := handling_of_trap htrap
  obtain ⟨huntrapped, hlast⟩ := hentered.handled hrun
  refine ⟨fun g hg => by rw [huntrapped g hg]; exact nofun, fun hreturn => ?_⟩
  obtain ⟨hnone, hpc, hcsr, hpending⟩ := step_of_return hlast.not_taken hreturn
  have hie : (h.step.2.handled run).step.2.csr.ie = h.csr.ie := by
    rw [hcsr]
    exact hlast.previous
  have hraised : .raise ∈ run → (h.step.2.handled run).step.2.pending = true := by
    intro hmem
    rw [hpending]
    exact hentered.pending_handled hrun (.inr hmem)
  exact
    { untrapped := hnone
      pc := hpc.trans hlast.mepc
      ie := hie
      previous := by rw [hcsr]; rfl
      mcause := by rw [hcsr]; rfl
      taken := by
        intro hmem hon bus
        have htaken := step_interrupt (h := { (h.step.2.handled run).step.2 with bus })
          (hraised hmem) (hie.trans hon)
        rw [htaken]
        exact ⟨rfl, hpc.trans hlast.mepc⟩
      held := by
        intro hmem hoff
        refine ⟨hraised hmem, ?_⟩
        rw [step_pending, Hart.listening, hie, hoff, hraised hmem]
        rfl }

/-- Memory with a handler, `addi x8, x8, 1` and a return, and a call at the reset vector. -/
def calledBus : Bus Empty where
  slots := #[some (.ram ⟨1, ⟨splice (splice (Memory.zero pageSize).bytes 0x1c0
    [0x13, 0x04, 0x14, 0x00, 0x73, 0x00, 0x00, 0x10]) 0x200 [0x73, 0x00, 0x00, 0x00]⟩⟩)]
  windows := [⟨0, 1, 0⟩]

/-- A hart in front of the call, with interrupts on. -/
def calling : Hart Empty where
  csr := { ie := true }
  bus := calledBus

/-- The handler's first instruction, an interrupt that is raised, and a change on the bus. -/
def callRun : List (Interlude Empty) :=
  [.step, .raise, .change { calledBus with reservation := some 0 }]

theorem handler_returns_call :
    calling.step.1 = some (.exception .machineCall)
      ∧ Returns calling callRun (calling.step.2.handled callRun)
      ∧ { (calling.step.2.handled callRun).step.2 with bus := calledBus }.step.1
        = some (.interrupt .external) := by
  have htrap : calling.step.1 = some (.exception .machineCall) := by decide +kernel
  have hnone : calling.step.2.step.1 = none := by decide +kernel
  have hnext : calling.step.2.nextInstr? = some (.opImm .addi 8 8 1) := by decide +kernel
  have hreturn : (calling.step.2.handled callRun).nextInstr? = some .eret := by decide +kernel
  have hrun : ∀ g ∈ calling.step.2.stepping callRun, g.Handles := by
    intro g hg
    rw [List.mem_singleton.mp hg]
    refine ⟨fun e => by rw [hnone]; exact nofun, fun i hi => ?_⟩
    rw [hnext] at hi
    cases hi
    rfl
  have hreturns := (handler_returns (by rw [htrap]; rfl) hrun).2 hreturn
  exact ⟨htrap, hreturns, (hreturns.taken (by simp [callRun]) rfl calledBus).1⟩

end Rv32Soc.Hart
