import Rv32Soc.Emulator.Session

/-!
# The command line

Reads the arguments, the file and, for the debugger, the standard input; runs
the emulator; and prints what it has to say. Failures go to the standard error
with the exit code of their kind.
-/

namespace Rv32Soc

/-- Read the file that the options name. -/
def readExecutable (path : String) : IO (Except Emulator.Failure (Array Byte)) := do
  try
    let bytes ← IO.FS.readBinFile path
    return .ok (bytes.data.map fun b => b.toBitVec)
  catch e =>
    return .error (.elf (.unreadable (toString e)))

/-- Read the standard input to its end. -/
def readInput : IO String := do
  let stdin ← IO.getStdin
  let bytes ← stdin.readToEnd
  return bytes

/-- Run the emulator on a command line. -/
def runEmulator (arguments : List String) : IO (Except Emulator.Failure Emulator.Session) := do
  match Emulator.Options.parse arguments with
  | .error e => return .error (.usage e)
  | .ok options =>
      match ← readExecutable options.file with
      | .error e => return .error e
      | .ok file =>
          let input ← if options.debug then readInput else pure ""
          return Emulator.emulate options file input

end Rv32Soc

/-- The entry point. -/
def main (arguments : List String) : IO UInt32 := do
  match ← Rv32Soc.runEmulator arguments with
  | .error e =>
      IO.eprintln ("Error: " ++ e.message)
      return UInt32.ofNat e.exitCode
  | .ok session =>
      let journal := session.machine.hart.bus.journal
      for line in journal.records.toList.filterMap (·.line?) do
        IO.eprintln line
      IO.print session.output
      return UInt32.ofNat session.exitCode
