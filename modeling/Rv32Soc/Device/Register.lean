import Rv32Soc.Word

/-!
# Register windows

The timer and the interrupt controller show their state as word registers.
Which register an offset names depends only on its place within a window of
4096 bytes, in words; the registers repeat beyond that, and an offset inside
a word names the register of that word.
-/

namespace Rv32Soc

/-- The number of the register that an offset names. -/
def registerIndex (offset : Word) : Nat :=
  ((offset &&& 0xfff) >>> 2).toNat

/-- A word whose bit `n` is set exactly where the condition holds. -/
def bitmap (bit : Fin 32 → Bool) : Word :=
  (BitVec.ofBoolListLE (List.ofFn bit)).setWidth 32

end Rv32Soc
