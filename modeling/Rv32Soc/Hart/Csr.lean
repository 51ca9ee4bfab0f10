import Rv32Soc.Text.Number
import Rv32Soc.Word

/-!
# Control and status registers

| number | name     | access | contents                                        |
|--------|----------|--------|-------------------------------------------------|
| 0x300  | mstatus  | RW     | bit 0 interrupts on, bit 3 on before the trap   |
| 0x340  | mscratch | RW     | for software                                    |
| 0x341  | mepc     | RW     | where the trap was taken                        |
| 0x342  | mcause   | RW     | the cause code of the trap                      |
| 0x343  | mbadaddr | RW     | the address that an address trap is about       |
| 0xf00  | mcpuid   | RO     | RV32 with the extensions A, I and M             |
| 0xf01  | mimpid   | RO     | the implementation                              |
| 0xf10  | mhartid  | RO     | zero                                            |

The two interrupt bits are a stack of depth two: a trap pushes the current one
and turns interrupts off, a return pops it and leaves a one behind. The other
bits of mstatus are fixed, and writing changes the two alone.
-/

namespace Rv32Soc

/-- An access to a control register that is refused. -/
inductive CsrError where
  | notPresent (number : BitVec 16)
  | readOnly (number : BitVec 16)
  deriving DecidableEq

/-- The text of a refused access. -/
def CsrError.message : CsrError → String
  | notPresent number =>
      "CSR 0x" ++ Text.hex number.toNat ++ " does not exist (illegal instruction)"
  | readOnly number =>
      "attempted write to read-only CSR 0x" ++ Text.hex number.toNat ++ " (illegal instruction)"

/-- The control registers. -/
structure Csr where
  /-- Interrupts are on. -/
  ie : Bool := false
  /-- Interrupts were on before the last trap. -/
  previous : Bool := false
  mscratch : Word := 0
  mepc : Word := 0
  mcause : Word := 0
  mbadaddr : Word := 0
  deriving DecidableEq, Inhabited

namespace Csr

/-- What mcpuid reads. -/
def mcpuid : Word := 0x1101

/-- What mimpid reads. -/
def mimpid : Word := 0x00108000

/-- What mstatus reads: fixed bits and the interrupt stack. -/
def mstatus (c : Csr) : Word :=
  0x36 ||| (if c.ie then 1 else 0) ||| (if c.previous then 8 else 0)

/-- Read a control register. -/
def read (c : Csr) (number : BitVec 16) : Except CsrError Word :=
  if number = 0x300 then .ok c.mstatus
  else if number = 0x340 then .ok c.mscratch
  else if number = 0x341 then .ok c.mepc
  else if number = 0x342 then .ok c.mcause
  else if number = 0x343 then .ok c.mbadaddr
  else if number = 0xf00 then .ok mcpuid
  else if number = 0xf01 then .ok mimpid
  else if number = 0xf10 then .ok 0
  else .error (.notPresent number)

/-- Write a control register. -/
def write (c : Csr) (number : BitVec 16) (value : Word) : Except CsrError Csr :=
  if number = 0x300 then .ok { c with ie := value.getLsbD 0, previous := value.getLsbD 3 }
  else if number = 0x340 then .ok { c with mscratch := value }
  else if number = 0x341 then .ok { c with mepc := value }
  else if number = 0x342 then .ok { c with mcause := value }
  else if number = 0x343 then .ok { c with mbadaddr := value }
  else if number = 0xf00 ∨ number = 0xf01 ∨ number = 0xf10 then .error (.readOnly number)
  else .error (.notPresent number)

/-- Take note of a trap at `pc` and turn interrupts off. -/
def enterTrap (c : Csr) (pc cause : Word) (badAddress : Option Word) : Csr :=
  { c with
    mepc := pc
    mcause := cause
    mbadaddr := badAddress.getD c.mbadaddr
    previous := c.ie
    ie := false }

/-- Restore the interrupt bit of before the trap. -/
def leaveTrap (c : Csr) : Csr :=
  { c with ie := c.previous, previous := true }

end Csr

end Rv32Soc
