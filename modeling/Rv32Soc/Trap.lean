import Rv32Soc.Text.Number
import Rv32Soc.Word

/-!
# Traps

Three layers of failure, each a value that is handed on. An `AddressTrap` is
a refused access to the bus. An `Exception` is anything an instruction can
raise; every address trap becomes one. A `Trap` is what the hart takes, an
exception or an interrupt, and it decides the cause code that software sees.
-/

namespace Rv32Soc

/-! ## Refused accesses -/

/-- Why an access was refused. -/
inductive AddressFault where
  | instructionMisaligned
  | instructionAccessFault
  | loadMisaligned
  | loadAccessFault
  | storeMisaligned
  | storeAccessFault
  deriving DecidableEq

/-- The cause code of a refused access. -/
def AddressFault.cause : AddressFault → Nat
  | instructionMisaligned => 0
  | instructionAccessFault => 1
  | loadMisaligned => 4
  | loadAccessFault => 5
  | storeMisaligned => 6
  | storeAccessFault => 7

/-- A refused access. A device names the offset it was given, and the bus puts the physical
address in its place. -/
structure AddressTrap where
  fault : AddressFault
  address : Word
  deriving DecidableEq

/-- The text of a refused access. -/
def AddressTrap.message (trap : AddressTrap) : String :=
  "address trap (cause " ++ Text.decimal trap.fault.cause ++ ") at " ++ Text.address trap.address

/-! ## Exceptions -/

/-- What an instruction can raise. -/
inductive Exception where
  | instructionAddressMisaligned (address : Word)
  | instructionAccessFault (address : Word)
  | illegalInstruction (word : Word)
  | breakpoint
  | loadAddressMisaligned (address : Word)
  | loadAccessFault (address : Word)
  | storeAddressMisaligned (address : Word)
  | storeAccessFault (address : Word)
  | machineCall
  deriving DecidableEq

/-- The exception that a refused access raises. -/
def AddressTrap.toException (trap : AddressTrap) : Exception :=
  match trap.fault with
  | .instructionMisaligned => .instructionAddressMisaligned trap.address
  | .instructionAccessFault => .instructionAccessFault trap.address
  | .loadMisaligned => .loadAddressMisaligned trap.address
  | .loadAccessFault => .loadAccessFault trap.address
  | .storeMisaligned => .storeAddressMisaligned trap.address
  | .storeAccessFault => .storeAccessFault trap.address

namespace Exception

/-- The cause code of an exception. -/
def cause : Exception → Word
  | instructionAddressMisaligned _ => 0
  | instructionAccessFault _ => 1
  | illegalInstruction _ => 2
  | breakpoint => 3
  | loadAddressMisaligned _ => 4
  | loadAccessFault _ => 5
  | storeAddressMisaligned _ => 6
  | storeAccessFault _ => 7
  | machineCall => 11

/-- The address that an exception is about, if it is about one. -/
def badAddress? : Exception → Option Word
  | instructionAddressMisaligned address | instructionAccessFault address
  | loadAddressMisaligned address | loadAccessFault address
  | storeAddressMisaligned address | storeAccessFault address => some address
  | illegalInstruction _ | breakpoint | machineCall => none

/-- The text of an exception. -/
def message : Exception → String
  | instructionAddressMisaligned address =>
      "instruction address misaligned (" ++ Text.address address ++ ")"
  | instructionAccessFault address => "instruction access fault (" ++ Text.address address ++ ")"
  | illegalInstruction word => "illegal instruction " ++ Text.address word
  | breakpoint => "breakpoint"
  | loadAddressMisaligned address => "load address misaligned (" ++ Text.address address ++ ")"
  | loadAccessFault address => "load access fault (" ++ Text.address address ++ ")"
  | storeAddressMisaligned address => "store address misaligned (" ++ Text.address address ++ ")"
  | storeAccessFault address => "store access fault (" ++ Text.address address ++ ")"
  | machineCall => "environment call from M-mode"

/-- The name of an exception. -/
def name : Exception → String
  | instructionAddressMisaligned _ => "InstructionAddressMisaligned"
  | instructionAccessFault _ => "InstructionAccessFault"
  | illegalInstruction _ => "IllegalInstruction"
  | breakpoint => "Breakpoint"
  | loadAddressMisaligned _ => "LoadAddressMisaligned"
  | loadAccessFault _ => "LoadAccessFault"
  | storeAddressMisaligned _ => "StoreAddressMisaligned"
  | storeAccessFault _ => "StoreAccessFault"
  | machineCall => "MmodeEcall"

/-- The word that an exception carries, if it carries one. -/
def argument? : Exception → Option Word
  | illegalInstruction word => some word
  | e => e.badAddress?

/-- The record of an exception: its name and, between parentheses, the word it carries. -/
def record (e : Exception) : String :=
  match e.argument? with
  | some word => e.name ++ "(" ++ Text.decimal word.toNat ++ ")"
  | none => e.name

end Exception

/-! ## Traps -/

/-- The interrupts from outside; only one line reaches the hart. -/
inductive Interrupt where
  | external
  deriving DecidableEq

/-- The name of an interrupt. -/
def Interrupt.name : Interrupt → String
  | external => "External"

/-- What makes the hart leave the program. -/
inductive Trap where
  | interrupt (source : Interrupt)
  | exception (cause : Exception)
  deriving DecidableEq

namespace Trap

/-- The top bit of a cause code, which tells interrupts from exceptions. -/
def interruptBit : Trap → Word
  | interrupt _ => 0x80000000
  | exception _ => 0

/-- The rest of the cause code. -/
def cause : Trap → Word
  | interrupt .external => 11
  | exception e => e.cause

/-- The whole cause code, as software reads it. -/
def mcause (trap : Trap) : Word :=
  trap.interruptBit ||| trap.cause

/-- The address that a trap is about, if it is about one. -/
def badAddress? : Trap → Option Word
  | interrupt _ => none
  | exception e => e.badAddress?

/-- The text of a trap. -/
def message : Trap → String
  | interrupt i => "interrupt: " ++ i.name
  | exception e => "exception: " ++ e.message

/-- The name of a trap: that of the interrupt or of the exception. -/
def name : Trap → String
  | interrupt i => i.name
  | exception e => e.name

/-- The record of a trap. -/
def record : Trap → String
  | interrupt i => "Interrupt(" ++ i.name ++ ")"
  | exception e => "Exception(" ++ e.record ++ ")"

end Trap

end Rv32Soc
