import Rv32Soc.Isa.Instr

/-!
# Arithmetic of the instructions

Each operation is a function of two words. Shifts take their amount from the
low five bits of the second operand. Division never fails: a quotient by zero
is all ones and the remainder is then the dividend, and the one signed
quotient that does not fit, the least word by minus one, wraps round to itself
with remainder zero.
-/

namespace Rv32Soc.Isa

/-- One if the condition holds, else zero. -/
def flag (condition : Bool) : Word :=
  if condition then 1 else 0

/-- The amount of a shift: the low five bits of a word. -/
def shiftAmount (word : Word) : Nat :=
  (word &&& 0x1f).toNat

/-- The upper half of the product of two integers. -/
def highProduct (a b : Int) : Word :=
  (BitVec.ofInt 64 (a * b)).extractLsb' 32 32

/-- What an operation makes of two words. -/
def Op.eval : Op → Word → Word → Word
  | .add, a, b => a + b
  | .sub, a, b => a - b
  | .sll, a, b => a <<< shiftAmount b
  | .slt, a, b => flag (a.slt b)
  | .sltu, a, b => flag (a.ult b)
  | .xor, a, b => a ^^^ b
  | .srl, a, b => a >>> shiftAmount b
  | .sra, a, b => a.sshiftRight (shiftAmount b)
  | .or, a, b => a ||| b
  | .and, a, b => a &&& b
  | .mul, a, b => a * b
  | .mulh, a, b => highProduct a.toInt b.toInt
  | .mulhsu, a, b => highProduct a.toInt b.toNat
  | .mulhu, a, b => highProduct a.toNat b.toNat
  | .div, a, b => if b = 0 then BitVec.allOnes 32 else a.sdiv b
  | .divu, a, b => if b = 0 then BitVec.allOnes 32 else a / b
  | .rem, a, b => if b = 0 then a else a.srem b
  | .remu, a, b => if b = 0 then a else a % b

/-- What an atomic operation makes of the old word and its source. -/
def Amo.eval : Amo → Word → Word → Word
  | .swap, _, src => src
  | .add, old, src => old + src
  | .xor, old, src => old ^^^ src
  | .and, old, src => old &&& src
  | .or, old, src => old ||| src
  | .min, old, src => if old.slt src then old else src
  | .max, old, src => if src.slt old then old else src
  | .minu, old, src => if old.ult src then old else src
  | .maxu, old, src => if src.ult old then old else src

/-- Whether a branch is taken on two words. -/
def Branch.holds : Branch → Word → Word → Bool
  | .beq, a, b => a == b
  | .bne, a, b => a != b
  | .blt, a, b => a.slt b
  | .bge, a, b => b.sle a
  | .bltu, a, b => a.ult b
  | .bgeu, a, b => b.ule a

/-- What a control-register instruction makes of the old value and its source. -/
def CsrOp.eval : CsrOp → Word → Word → Word
  | .write, _, src => src
  | .set, old, src => old ||| src
  | .clear, old, src => old &&& ~~~src

/-- A load fills a word from what it read, with the sign or with zeros. -/
def Load.extend (kind : Load) (value : BitVec kind.width.bits) : Word :=
  if kind.isSigned then value.signExtend 32 else value.setWidth 32

end Rv32Soc.Isa
