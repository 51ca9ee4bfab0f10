import Rv32Soc.Emulator.Options
import Rv32Soc.Microcontroller.Loader
import Rv32Soc.Text.Backspace
import Rv32Soc.Text.Blank

/-!
# A run of the emulator

The emulator builds a microcontroller with at most one further device, a
timer, loads the file, resets, and runs cycles until they are used up or the pc
is at the stop address. At last it shows the state of the hart.

In the debugger it shows the next instruction before every cycle and reads
commands: a blank line or `s` runs the cycle, `c` runs on without asking, `r`
shows the state, and `q` or the end of the input ends the run. The backspaces in
a command are obeyed before it is read. Looking at the next instruction is a
real fetch, so the debugger is harmless only because no device of this machine
minds being read.
-/

namespace Rv32Soc.Emulator

/-- The machine of the emulator: it has no devices but those of the library. -/
abbrev Machine := Microcontroller Empty

/-- Why a run cannot begin. -/
inductive Failure where
  | usage (error : UsageError)
  | elf (error : Elf.Error)
  | config (error : ConfigError)
  | bus (error : BusError)
  | interrupt (error : InterruptError)
  | loader (error : LoaderError)

/-- The text of a failure. -/
def Failure.message : Failure → String
  | usage error => error.message
  | elf error => error.message
  | config error => error.message
  | bus error => error.message
  | interrupt error => error.message
  | loader error => error.message

/-- The exit code of a failure. -/
def Failure.exitCode : Failure → Nat
  | usage _ => 2
  | _ => 1

/-! ## Texts -/

/-- One register with its value. -/
def registerText (h : Hart Empty) (n : Nat) : String :=
  "x" ++ String.ofList (Text.padRight 2 (Text.decimal n).toList) ++ " = "
    ++ Text.address (h.x (BitVec.ofNat 5 n))

/-- Four registers in a row, the first of which is `4 * row`. -/
def rowText (h : Hart Empty) (row : Nat) : String :=
  "    ".intercalate ((List.range 4).map fun i => registerText h (4 * row + i))

/-- The state of the hart: pc, cause and place of the last trap, and all registers. -/
def stateText (h : Hart Empty) : List String :=
  ["pc = " ++ Text.address h.pc,
    "mcause = " ++ Text.address h.csr.mcause ++ ", mepc = " ++ Text.address h.csr.mepc]
    ++ (List.range 8).map (rowText h)

/-! ## Prompting -/

/-- What the user decided at a prompt. -/
inductive Decision where
  | step
  | resume
  | quit
  /-- Nothing: the backspaces of the line left a part of a character. -/
  | abandon
  deriving DecidableEq

/-- Read lines up to a decision. The result is the decision, the lines left, and what was
printed on the way. -/
def readDecision (h : Hart Empty) : List (List Char) → Decision × List (List Char) × List String
  | [] => (.quit, [], [])
  | line :: rest =>
      match (Text.edited? line).map Text.trim with
      | none => (.abandon, rest, [])
      | some [] | some ['s'] => (.step, rest, [])
      | some ['c'] => (.resume, rest, [])
      | some ['q'] => (.quit, rest, [])
      | some ['r'] =>
          let (decision, rest, printed) := readDecision h rest
          (decision, rest, stateText h ++ printed)
      | some other =>
          let (decision, rest, printed) := readDecision h rest
          (decision, rest, ("unknown command '" ++ String.ofList other ++ "'") :: printed)

/-- Show the next instruction, or why there is none. The machine is handed on as the fetch
leaves it. -/
def showNext (m : Machine) : String × Machine :=
  let pc := m.hart.pc
  match Bus.fetch pc m.hart.bus with
  | .ok word b =>
      (Text.address pc ++ ": " ++ Text.word word ++ "  " ++ (Isa.Instr.decode word).assembly,
        m.onBus fun _ => b)
  | .error trap b => (Text.address pc ++ ": " ++ trap.message, m.onBus fun _ => b)

/-! ## Running -/

/-- A run in progress. -/
structure Session where
  machine : Machine
  /-- The lines that are still to be read, while there are prompts. -/
  input : Option (List (List Char)) := none
  /-- The lines printed so far, the last first. -/
  printed : List String := []
  /-- A line could not be read, so the run ended there and then. -/
  abandoned : Bool := false

namespace Session

/-- Print lines. -/
def print (s : Session) (text : List String) : Session :=
  { s with printed := text.reverse ++ s.printed }

/-- Prompt, if there are prompts, and tell whether to go on. -/
def prompt (s : Session) : Bool × Session :=
  match s.input with
  | none => (true, s)
  | some lines =>
      let (next, machine) := showNext s.machine
      let (decision, lines, printed) := readDecision machine.hart lines
      let s := { s with machine }.print (next :: printed)
      match decision with
      | .step => (true, { s with input := some lines })
      | .resume => (true, { s with input := none })
      | .quit => (false, { s with input := some lines })
      | .abandon => (false, { s with input := some lines, abandoned := true })

/-- Run the cycle of the given number, and a timestep if it is time for one. -/
def advance (s : Session) (every cycle : Nat) : Session :=
  let (_, machine) := s.machine.cycle
  { s with machine := if cycle % every = 0 then machine.timestep else machine }

/-- Run at most `remaining` cycles, the first of which has the number `cycle`. -/
def run (stopAt : Option Word) (every : Nat) : (remaining cycle : Nat) → Session → Session
  | 0, _, s => s
  | remaining + 1, cycle, s =>
      if stopAt = some s.machine.hart.pc then s
      else
        match s.prompt with
        | (false, s) => s
        | (true, s) => run stopAt every remaining (cycle + 1) (s.advance every cycle)

/-- Everything printed, each line with its end. -/
def output (s : Session) : String :=
  String.join (s.printed.reverse.map (· ++ "\n"))

/-- The exit code of the run. An abandoned run has one of its own. -/
def exitCode (s : Session) : Nat :=
  if s.abandoned then 101 else 0

end Session

/-- Attach a timer at an address and register it on a line. -/
def attachTimer (m : Machine) (base : Word) (line : Nat) : Except Failure Machine :=
  let (slot, b) := m.hart.bus.install (.timer {})
  match (m.onBus fun _ => b).attach slot base with
  | .error e => .error (.bus e)
  | .ok m =>
      match lineOfNat line with
      | .error e => .error (.interrupt e)
      | .ok l => .ok (m.register slot l)

/-- Build the machine that the options ask for, load the file and reset. -/
def start (o : Options) (file : Array Byte) : Except Failure Machine := do
  let image ← (Elf.Image.ofFile file).mapError .elf
  let m ← (Microcontroller.new { romPages := o.romPages, ramPages := o.ramPages }).mapError .config
  let m : Machine := m.onBus fun b => { b with journal := { b.journal with on := o.verbose } }
  let m ← match o.timer with
    | some base => attachTimer m base o.timerLine
    | none => pure m
  match Microcontroller.load image m with
  | .ok () m => return m.reset
  | .error e _ => throw (.loader e)

/-- Run a file with options, given the text of the standard input. An abandoned run does not
show the state at its end. -/
def emulate (o : Options) (file : Array Byte) (input : String) : Except Failure Session := do
  let machine ← start o file
  let input := if o.debug then some (Text.lines input.toList) else none
  let s : Session := { machine, input, printed := ["", "Beginning execution"] }
  let s := s.run o.stopAt o.timestepEvery o.cycles 1
  return if s.abandoned then s else s.print (stateText s.machine.hart)

end Rv32Soc.Emulator
