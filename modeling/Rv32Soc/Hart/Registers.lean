import Rv32Soc.Isa.Format
import Rv32Soc.Text.Number

/-!
# The integer registers

Thirty-two words, the first of which is always zero: what is written to it is
dropped. Instructions name registers by five bits and cannot miss. From
outside a register is named by a number of any size, and then a number beyond
31 is an error.
-/

namespace Rv32Soc

open Isa (Reg)

/-- A number that names no register. -/
inductive RegisterError where
  | invalidRegister (number : Nat)
  deriving DecidableEq

/-- The text of a wrong register number. -/
def RegisterError.message : RegisterError → String
  | invalidRegister number => "register index " ++ Text.decimal number ++ " exceeds 31"

/-- The integer registers. -/
structure Registers where
  values : Vector Word 32 := Vector.replicate 32 0
  deriving DecidableEq, Inhabited

namespace Registers

/-- The value of a register. -/
def get (rs : Registers) (r : Reg) : Word :=
  rs.values[(r.toFin : Fin 32)]

/-- Write a register; register 0 takes nothing. -/
def set (rs : Registers) (r : Reg) (value : Word) : Registers :=
  if r = 0 then rs else { rs with values := rs.values.set (r.toFin : Fin 32) value }

/-- The register of a number. -/
def ofNumber (number : Nat) : Except RegisterError Reg :=
  if number < 32 then .ok (BitVec.ofNat 5 number) else .error (.invalidRegister number)

/-- Read a register named from outside. -/
def read (rs : Registers) (number : Nat) : Except RegisterError Word := do
  let r ← ofNumber number
  return rs.get r

/-- Write a register named from outside. -/
def write (rs : Registers) (number : Nat) (value : Word) : Except RegisterError Registers := do
  let r ← ofNumber number
  return rs.set r value

end Registers

end Rv32Soc
