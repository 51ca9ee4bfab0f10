import Mathlib.Logic.Function.Iterate
import Rv32Soc.Emulator.Session
import Rv32Soc.Proofs.ElfFiles
import Rv32Soc.Proofs.Runs

/-!
# The debugger changes nothing

What the machine is after some cycles of a run can be told without a look at
the prompts: it is the machine after as many cycles and the timesteps that are
due among them. The prompts decide how many cycles there are, and what is
printed. The next instruction is shown by a fetch on the bus of the machine
itself, so that this rests on the devices of the machine, none of which is
changed by being read.

What is typed can be told from the lines alone. Each prompt reads up to the
first line that decides something, so the decisions are those of the lines in
order, and behind the last line the run is ended at every prompt. A run has a
prompt in front of a cycle if all decisions before have been to step; a run
that has been resumed has none any more.
-/

namespace Rv32Soc.Emulator

open Microcontroller (Call)

/-! ## What is typed -/

/-- What a line decides, unless it leaves the user at the prompt. -/
def command? (line : List Char) : Option Decision :=
  match (Text.edited? line).map Text.trim with
  | none => some .abandon
  | some [] | some ['s'] => some .step
  | some ['c'] => some .resume
  | some ['q'] => some .quit
  | some _ => none

/-- What is decided at the prompt of this number, with all lines behind each other. -/
def decision (lines : List (List Char)) (n : Nat) : Decision :=
  ((lines.filterMap command?)[n]?).getD .quit

/-- The lines behind the first one that decides something. -/
def undecided : List (List Char) → List (List Char)
  | [] => []
  | line :: rest => if (command? line).isSome then rest else undecided rest

/-- What the text of a command decides, unless it leaves the user at the prompt. -/
def decides? : List Char → Option Decision
  | [] | ['s'] => some .step
  | ['c'] => some .resume
  | ['q'] => some .quit
  | _ => none

/-- A line without backspaces decides what it says. -/
theorem command?_plain {line : List Char} (hplain : Text.backspace ∉ line) :
    command? line = decides? (Text.trim line) := by
  rw [command?, Text.edited?_eq_some hplain, Option.map_some]
  unfold decides?
  split <;> split <;> simp_all

theorem decision_plain {lines : List (List Char)}
    (hplain : ∀ line ∈ lines, Text.backspace ∉ line) (n : Nat) :
    decision lines n
      = ((lines.filterMap fun line => decides? (Text.trim line))[n]?).getD .quit := by
  rw [decision, List.filterMap_congr fun line hline => command?_plain (hplain line hline)]

theorem decides?_ne_abandon (text : List Char) : decides? text ≠ some .abandon := by
  unfold decides?
  split <;> simp

theorem decision_ne_abandon {lines : List (List Char)}
    (hplain : ∀ line ∈ lines, Text.backspace ∉ line) (n : Nat) : decision lines n ≠ .abandon := by
  rw [decision_plain hplain]
  cases hfound : (lines.filterMap fun line => decides? (Text.trim line))[n]? with
  | none => exact nofun
  | some d =>
      obtain ⟨line, -, hline⟩ := List.mem_filterMap.mp (List.mem_of_getElem? hfound)
      rintro rfl
      exact decides?_ne_abandon _ hline

theorem readDecision_decided {line : List Char} {d : Decision} (hd : command? line = some d)
    (h : Hart Empty) (rest : List (List Char)) : readDecision h (line :: rest) = (d, rest, []) := by
  unfold command? at hd
  split at hd <;> cases hd <;> next htyped => simp only [readDecision, htyped]

theorem readDecision_idle {line : List Char} (hidle : command? line = none) (h : Hart Empty)
    (rest : List (List Char)) :
    (readDecision h (line :: rest)).1 = (readDecision h rest).1
      ∧ (readDecision h (line :: rest)).2.1 = (readDecision h rest).2.1 := by
  rw [command?] at hidle
  rw [readDecision]
  split <;> next htyped => first | exact ⟨rfl, rfl⟩ | (rw [htyped] at hidle; cases hidle)

theorem readDecision_eq (h : Hart Empty) (lines : List (List Char)) :
    (readDecision h lines).1 = decision lines 0 ∧ (readDecision h lines).2.1 = undecided lines := by
  induction lines with
  | nil => exact ⟨rfl, rfl⟩
  | cons line rest ih =>
      cases hline : command? line with
      | some d =>
          rw [readDecision_decided hline]
          simp [decision, undecided, hline]
      | none =>
          obtain ⟨hfirst, hrest⟩ := readDecision_idle hline h rest
          rw [hfirst, hrest, ih.1, ih.2]
          simp [decision, undecided, hline]

theorem filterMap_undecided (lines : List (List Char)) :
    (undecided lines).filterMap command? = (lines.filterMap command?).tail := by
  induction lines with
  | nil => rfl
  | cons line rest ih =>
      cases hline : command? line with
      | none => simp [undecided, hline, ih]
      | some d => simp [undecided, hline]

/-- The lines left in front of a prompt decide there what all lines together do. -/
theorem decision_undecided (lines : List (List Char)) (n : Nat) :
    decision (undecided^[n] lines) 0 = decision lines n := by
  induction n generalizing lines with
  | zero => rfl
  | succ n ih =>
      rw [Function.iterate_succ_apply, ih, decision, decision, filterMap_undecided,
        List.getElem?_tail]

theorem showNext_snd (m : Machine) : (showNext m).2 = m := by
  have hfetched := Bus.stateAfter_fetch m.hart.pc m.hart.bus
  unfold showNext
  cases heq : Bus.fetch m.hart.pc m.hart.bus with
  | ok word b =>
      rw [heq, stateAfter_ok] at hfetched
      simp only [heq, hfetched]
      rfl
  | error trap b =>
      rw [heq, stateAfter_error] at hfetched
      simp only [heq, hfetched]
      rfl

/-! ## What passes -/

/-- Cycles from the first one on, and the timesteps that are due among them. -/
def schedule (every : Nat) : Nat → List (Call Empty)
  | 0 => []
  | k + 1 => schedule every k ++ .cycle :: if every ∣ k + 1 then [.timestep] else []

variable (o : Options) (m : Machine) (lines : List (List Char))

/-- The machine after some cycles, when nobody looks on. -/
def elapsed (k : Nat) : Machine :=
  m.run (schedule o.timestepEvery k)

theorem advance_elapsed {s : Session} {k : Nat} (h : s.machine = elapsed o m k) :
    s.advance o.timestepEvery (k + 1) = { s with machine := elapsed o m (k + 1) } := by
  have hrun : elapsed o m (k + 1)
      = ((elapsed o m k).cycle.2).run (if o.timestepEvery ∣ k + 1 then [.timestep] else []) :=
    Microcontroller.run_append m (schedule o.timestepEvery k) _
  have hadvance : s.advance o.timestepEvery (k + 1) = { s with
      machine := if (k + 1) % o.timestepEvery = 0 then s.machine.cycle.2.timestep
        else s.machine.cycle.2 } := rfl
  rw [hrun, hadvance, h]
  by_cases hdue : o.timestepEvery ∣ k + 1
  · rw [if_pos hdue, if_pos (Nat.mod_eq_zero_of_dvd hdue)]
    rfl
  · rw [if_neg hdue, if_neg fun hmod => hdue (Nat.dvd_of_mod_eq_zero hmod)]
    rfl

/-- The user is still asked after some cycles: up to then every decision has been to step. -/
def Asking (k : Nat) : Prop :=
  o.debug = true ∧ ∀ i < k, decision lines i = .step

/-- There is a prompt after some cycles: the run goes on, and the user is still asked. -/
def Prompted (k : Nat) : Prop :=
  k < o.cycles ∧ o.stopAt ≠ some (elapsed o m k).hart.pc ∧ Asking o lines k

instance : DecidablePred (Asking o lines) :=
  fun k => inferInstanceAs (Decidable (_ ∧ ∀ i < k, decision lines i = .step))

instance : DecidablePred (Prompted o m lines) :=
  fun k => inferInstanceAs (Decidable (_ ∧ _ ∧ Asking o lines k))

/-- The run ends after some cycles: they are used up, or the pc is at the stop address, or the user
is asked and decides to. -/
def Ends (k : Nat) : Prop :=
  k = o.cycles ∨ o.stopAt = some (elapsed o m k).hart.pc
    ∨ Prompted o m lines k ∧ (decision lines k = .quit ∨ decision lines k = .abandon)

/-- What is printed at the prompt after some cycles. -/
def transcript (k : Nat) : List String :=
  (showNext (elapsed o m k)).1 :: (readDecision (elapsed o m k).hart (undecided^[k] lines)).2.2

/-- What is printed before the cycle of this number, up to its prompt and not beyond. -/
def said (k : Nat) : List String :=
  ["Beginning execution", ""]
    ++ ((List.range k).filter (Prompted o m lines)).flatMap (transcript o m lines)

theorem said_prompted {k : Nat} (h : Prompted o m lines k) :
    said o m lines (k + 1) = said o m lines k ++ transcript o m lines k := by
  simp [said, List.range_succ, h]

theorem said_unprompted {k : Nat} (h : ¬Prompted o m lines k) :
    said o m lines (k + 1) = said o m lines k := by
  simp [said, List.range_succ, h]

/-! ## The session -/

/-- The session as it is when some cycles have passed, at the top of the loop. -/
structure Reached (k : Nat) (s : Session) : Prop where
  machine : s.machine = elapsed o m k
  input : s.input = if Asking o lines k then some (undecided^[k] lines) else none
  printed : s.printed.reverse = said o m lines k
  abandoned : s.abandoned = false

/-- The session as it is when the run has ended after some cycles. -/
structure Finished (k : Nat) (s : Session) : Prop where
  machine : s.machine = elapsed o m k
  printed : s.printed.reverse = said o m lines (k + 1)
  abandoned : s.abandoned = true ↔ Prompted o m lines k ∧ decision lines k = .abandon

variable {o m lines} {k : Nat} {s : Session}

theorem asking_succ : Asking o lines (k + 1) ↔ Asking o lines k ∧ decision lines k = .step := by
  simp only [Asking, Nat.lt_succ_iff_lt_or_eq, or_imp, forall_and, forall_eq, and_assoc]

theorem Reached.finished (h : Reached o m lines k s) (hprompted : ¬Prompted o m lines k) :
    Finished o m lines k s where
  machine := h.machine
  printed := h.printed.trans (said_unprompted o m lines hprompted).symm
  abandoned := by simp [h.abandoned, hprompted]

/-- A cycle passes of which the user is not told. -/
theorem Reached.advance_unasked (h : Reached o m lines k s) (hasking : ¬Asking o lines k) :
    Reached o m lines (k + 1) (s.advance o.timestepEvery (k + 1)) := by
  have hprompted : ¬Prompted o m lines k := fun hp => hasking hp.2.2
  have hnext : ¬Asking o lines (k + 1) := fun hn => hasking (asking_succ.mp hn).1
  rw [advance_elapsed o m h.machine]
  refine ⟨rfl, ?_, h.printed.trans (said_unprompted o m lines hprompted).symm, h.abandoned⟩
  rw [if_neg hnext, h.input, if_neg hasking]

theorem Reached.prompt_unasked (h : Reached o m lines k s) (hasking : ¬Asking o lines k) :
    s.prompt = (true, s) := by
  rw [Session.prompt, h.input, if_neg hasking]

/-- At a prompt the user sees the next instruction and the answers, and nothing happens to the
machine. -/
theorem Reached.prompt_asked (h : Reached o m lines k s) (hasking : Asking o lines k) :
    s.prompt
      = let s' := s.print (transcript o m lines k)
        let rest := some (undecided^[k + 1] lines)
        match decision lines k with
        | .step => (true, { s' with input := rest })
        | .resume => (true, { s' with input := none })
        | .quit => (false, { s' with input := rest })
        | .abandon => (false, { s' with input := rest, abandoned := true }) := by
  obtain ⟨hdecision, hrest⟩ := readDecision_eq (elapsed o m k).hart (undecided^[k] lines)
  rw [decision_undecided] at hdecision
  rw [← Function.iterate_succ_apply' undecided] at hrest
  rw [Session.prompt, h.input, if_pos hasking]
  simp only [showNext_snd, h.machine, hdecision, hrest, transcript]
  rw [← h.machine]
  cases decision lines k <;> rfl

theorem Reached.advance_asked (h : Reached o m lines k s) (hprompted : Prompted o m lines k)
    {input : Option (List (List Char))}
    (hinput : input = if Asking o lines (k + 1) then some (undecided^[k + 1] lines) else none) :
    Reached o m lines (k + 1)
      (Session.advance { s.print (transcript o m lines k) with input } o.timestepEvery
        (k + 1)) := by
  rw [advance_elapsed o m (s := { s.print (transcript o m lines k) with input }) h.machine]
  refine ⟨rfl, hinput, ?_, h.abandoned⟩
  rw [said_prompted o m lines hprompted, ← h.printed]
  simp [Session.print]

/-- The user has been asked and ends the run. -/
theorem Reached.finished_asked (h : Reached o m lines k s) (hprompted : Prompted o m lines k)
    {input : Option (List (List Char))} {abandoned : Bool}
    (habandoned : abandoned = true ↔ decision lines k = .abandon) :
    Finished o m lines k { s.print (transcript o m lines k) with input, abandoned } where
  machine := h.machine
  printed := by
    rw [said_prompted o m lines hprompted, ← h.printed]
    simp [Session.print]
  abandoned := by simp [habandoned, hprompted]

/-- From the top of the loop the run goes on to the first number of cycles at which it ends. -/
theorem Reached.run_ends (h : Reached o m lines k s) {remaining : Nat}
    (hcycles : k + remaining = o.cycles) :
    ∃ n, Ends o m lines n ∧ (∀ j, k ≤ j → j < n → ¬Ends o m lines j)
      ∧ Finished o m lines n (s.run o.stopAt o.timestepEvery remaining (k + 1)) := by
  induction remaining generalizing k s with
  | zero =>
      have hprompted : ¬Prompted o m lines k := fun hp => by have := hp.1; omega
      exact ⟨k, .inl hcycles, by omega, h.finished hprompted⟩
  | succ remaining ih =>
      -- Where it does not end, it goes on as it does from the next cycle.
      have hlater : ∀ {s'}, ¬Ends o m lines k → Reached o m lines (k + 1) s' →
          ∃ n, Ends o m lines n ∧ (∀ j, k ≤ j → j < n → ¬Ends o m lines j)
            ∧ Finished o m lines n (s'.run o.stopAt o.timestepEvery remaining (k + 2)) := by
        intro s' hgoing hs'
        obtain ⟨n, hends, hfirst, hfinished⟩ := ih hs' (by omega)
        refine ⟨n, hends, fun j hle hlt => ?_, hfinished⟩
        by_cases hj : j = k
        · rw [hj]
          exact hgoing
        · exact hfirst j (by omega) hlt
      unfold Session.run
      split
      · next hstop =>
          rw [h.machine] at hstop
          exact ⟨k, .inr (.inl hstop), by omega, h.finished fun hp => hp.2.1 hstop⟩
      · next hgoing =>
          rw [h.machine] at hgoing
          have hwithin : k < o.cycles := by omega
          by_cases hasking : Asking o lines k
          · have hprompted : Prompted o m lines k := ⟨hwithin, hgoing, hasking⟩
            have hprompt := h.prompt_asked hasking
            cases hdecision : decision lines k with
            | step =>
                have hends : ¬Ends o m lines k := by
                  simp [Ends, hgoing, hdecision, Nat.ne_of_lt hwithin]
                rw [hdecision] at hprompt
                simp only [hprompt]
                refine hlater hends (h.advance_asked hprompted ?_)
                rw [if_pos (asking_succ.mpr ⟨hasking, hdecision⟩)]
            | resume =>
                have hends : ¬Ends o m lines k := by
                  simp [Ends, hgoing, hdecision, Nat.ne_of_lt hwithin]
                have hnext : ¬Asking o lines (k + 1) := fun hn => by
                  have hstep := (asking_succ.mp hn).2
                  rw [hdecision] at hstep
                  cases hstep
                rw [hdecision] at hprompt
                simp only [hprompt]
                refine hlater hends (h.advance_asked hprompted ?_)
                rw [if_neg hnext]
            | quit =>
                rw [hdecision] at hprompt
                simp only [hprompt]
                refine ⟨k, .inr (.inr ⟨hprompted, .inl hdecision⟩), by omega,
                  h.finished_asked hprompted ?_⟩
                simp [Session.print, h.abandoned, hdecision]
            | abandon =>
                rw [hdecision] at hprompt
                simp only [hprompt]
                refine ⟨k, .inr (.inr ⟨hprompted, .inr hdecision⟩), by omega,
                  h.finished_asked hprompted ?_⟩
                simp [hdecision]
          · have hends : ¬Ends o m lines k := by
              rintro (hlast | hstop | ⟨hp, -⟩)
              · omega
              · exact hgoing hstop
              · exact hasking hp.2.2
            simp only [h.prompt_unasked hasking]
            exact hlater hends (h.advance_unasked hasking)

/-! ## Whole runs -/

/-- What comes of a run of some cycles. -/
structure Outcome (o : Options) (m : Machine) (lines : List (List Char)) (k : Nat) (s : Session) :
    Prop where
  ends : Ends o m lines k
  first : ∀ j < k, ¬Ends o m lines j
  machine : s.machine = elapsed o m k
  printed : s.printed.reverse
    = said o m lines (k + 1) ++ if s.abandoned then [] else stateText (elapsed o m k).hart
  abandoned : s.abandoned = true ↔ Prompted o m lines k ∧ decision lines k = .abandon
  /-- Lines without backspaces decide what they say, and none of them abandons the run. -/
  plain : (∀ line ∈ lines, Text.backspace ∉ line) → s.abandoned = false
    ∧ ∀ n, decision lines n
      = ((lines.filterMap fun line => decides? (Text.trim line))[n]?).getD .quit

theorem emulate_outcome {file : Array Byte} (hstart : start o file = .ok m) (input : String) :
    ∃ k s, emulate o file input = .ok s ∧ Outcome o m (Text.lines input.toList) k s := by
  let s : Session :=
    { machine := m
      input := if o.debug then some (Text.lines input.toList) else none
      printed := ["", "Beginning execution"] }
  have hreached : Reached o m (Text.lines input.toList) 0 s := by
    refine ⟨rfl, ?_, rfl, rfl⟩
    simp [s, Asking]
  obtain ⟨k, hends, hfirst, hfinished⟩ := hreached.run_ends (Nat.zero_add o.cycles)
  generalize hrun : s.run o.stopAt o.timestepEvery o.cycles 1 = s' at hfinished
  refine ⟨k, if s'.abandoned then s' else s'.print (stateText s'.machine.hart), ?_, ?_⟩
  · simp only [emulate, hstart, bind, Except.bind]
    rw [← hrun]
    rfl
  · have habandoned : (if s'.abandoned then s' else s'.print (stateText s'.machine.hart)).abandoned
        = s'.abandoned := by
      split <;> rfl
    refine ⟨hends, fun j hlt => hfirst j (Nat.zero_le j) hlt, ?_, ?_, ?_, fun hplain => ⟨?_, ?_⟩⟩
    · split <;> exact hfinished.machine
    · cases habandoned : s'.abandoned with
      | true => simp [habandoned, hfinished.printed]
      | false => simp [habandoned, Session.print, hfinished.printed, hfinished.machine]
    · rw [habandoned, hfinished.abandoned]
    · rw [habandoned]
      exact Bool.eq_false_iff.mpr fun h =>
        decision_ne_abandon hplain k (hfinished.abandoned.mp h).2
    · exact decision_plain hplain

/-- The debugger does not change execution. Whatever is typed, the run ends at the first number of
cycles at which it has to, and the machine then is the one that as many cycles and the timesteps
due among them make of it; a run without the debugger and of that number of cycles leaves the same
machine. What is printed tells where there have been prompts. -/
theorem debugger_transparent {file : Array Byte} (hstart : start o file = .ok m) (input : String) :
    ∃ k s, emulate o file input = .ok s ∧ Outcome o m (Text.lines input.toList) k s
      ∧ ∀ other, ∃ s', emulate { o with debug := false, cycles := k } file other = .ok s'
        ∧ s'.machine = s.machine := by
  obtain ⟨k, s, hrun, hs⟩ := emulate_outcome hstart input
  refine ⟨k, s, hrun, hs, fun other => ?_⟩
  obtain ⟨n, s', hrun', hs'⟩ :=
    emulate_outcome (o := { o with debug := false, cycles := k }) hstart other
  refine ⟨s', hrun', ?_⟩
  -- Where that run is at its end the other one is too.
  have hn : n = k := by
    have hle : n ≤ k := by
      by_contra hlt
      exact hs'.first k (by omega) (.inl rfl)
    obtain hlast | hstop | ⟨hp, -⟩ := hs'.ends
    · exact hlast
    · by_contra hne
      exact hs.first n (by omega) (.inr (.inl hstop))
    · exact absurd hp.2.2.1 Bool.false_ne_true
  rw [hs.machine, hs'.machine, hn]
  rfl

/-- A load of the timer's count, and a jump back to it. -/
def pollingFile : Array Byte :=
  (Elf.build .little 0x200
    [⟨0x200, [0xb7, 0x04, 0x00, 0x40, 0x03, 0xa4, 0x44, 0x00, 0x6f, 0xf0, 0xdf, 0xff]⟩]).toArray

/-- Six cycles with the debugger on, and a timestep after every second. -/
def pollingOptions : Options where
  file := "polling"
  cycles := 6
  romPages := 1
  ramPages := 1
  timer := some 0x40000000
  timestepEvery := 2
  debug := true

/-- The user steps twice, looks at the registers in between, and resumes. -/
def pollingInput : String := "s\nr\n \nc\n"

theorem debugger_transparent_polling :
    ∃ m, start pollingOptions pollingFile = .ok m
      ∧ (List.range 4).map (decision (Text.lines pollingInput.toList))
        = [.step, .step, .resume, .quit]
      ∧ ∃ k s, emulate pollingOptions pollingFile pollingInput = .ok s
        ∧ Outcome pollingOptions m (Text.lines pollingInput.toList) k s := by
  have hstarts : (start pollingOptions pollingFile).toOption.isSome = true := by decide +kernel
  cases hstart : start pollingOptions pollingFile with
  | error e =>
      rw [hstart] at hstarts
      cases hstarts
  | ok m =>
      obtain ⟨k, s, hrun, hs, -⟩ := debugger_transparent hstart pollingInput
      exact ⟨m, rfl, by decide +kernel, k, s, hrun, hs⟩

end Rv32Soc.Emulator
