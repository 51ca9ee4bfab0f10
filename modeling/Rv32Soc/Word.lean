/-!
# Words, widths and bit fields

Everything the machine holds is a 32-bit word or a byte of one, so both are
`BitVec`s and wrap by themselves. An access moves one, two or four bytes; the
width of an access decides how many bits travel with it, and that dependency
stays in the types: an access of width `w` carries a `BitVec w.bits`.

Two helpers take words apart where the places of the bits are numbers, and not
types. `extractField` moves a field down to bit 0 and clears what is above it;
`signExtendFrom` repeats one bit of a word in every place above. Each has a
lemma that reads off a single bit of its result, and nothing else needs to
look inside.
-/

namespace Rv32Soc

/-- Eight bits, the unit of memory. -/
abbrev Byte := BitVec 8

/-- Thirty-two bits: an address, a register value or an instruction. -/
abbrev Word := BitVec 32

/-- The number of different words, and so the size of the address space in bytes. -/
def wordCount : Nat := 0x100000000

/-! ## Access widths -/

/-- The three sizes of a load or a store. -/
inductive Width where
  | byte
  | halfword
  | word
  deriving DecidableEq, Inhabited

namespace Width

/-- The number of bytes that an access of this width moves. -/
def bytes : Width → Nat
  | byte => 1
  | halfword => 2
  | word => 4

/-- The number of bits that an access of this width moves. -/
abbrev bits (w : Width) : Nat := 8 * w.bytes

/-- An address suits a width when it is a multiple of the width's bytes. -/
def Aligned (w : Width) (address : Word) : Prop :=
  address.toNat % w.bytes = 0

instance (w : Width) (address : Word) : Decidable (w.Aligned address) :=
  inferInstanceAs (Decidable (_ = _))

theorem aligned_byte (address : Word) : Aligned byte address := by
  simp [Aligned, bytes, Nat.mod_one]

end Width

/-! ## Fields -/

/-- Bits `hi` down to `lo` of `value`, moved down to bit 0. -/
def extractField {n : Nat} (value : BitVec n) (hi lo : Nat) : BitVec n :=
  (value.extractLsb' lo (hi - lo + 1)).setWidth n

/-- A field's bit `i` is the bit `lo + i` of the value, as far as the field goes. -/
theorem getLsbD_extractField {n : Nat} (value : BitVec n) (hi lo i : Nat) :
    (extractField value hi lo).getLsbD i
      = (value.getLsbD (lo + i) && decide (i ≤ hi - lo)) := by
  simp only [extractField, BitVec.getLsbD_setWidth, BitVec.getLsbD_extractLsb',
    Nat.lt_succ_iff]
  by_cases hi' : i < n
  · simp [hi', Bool.and_comm]
  · simp [BitVec.getLsbD_of_ge value (lo + i) (by omega)]

/-- Repeat bit `bit` of `value` in every place above it. -/
def signExtendFrom (value : Word) (bit : Nat) : Word :=
  (value.setWidth (bit + 1)).signExtend 32

/-- Below and at the sign bit the value is kept; above, each bit is the sign bit. -/
theorem getLsbD_signExtendFrom (value : Word) (bit i : Nat) :
    (signExtendFrom value bit).getLsbD i = (decide (i < 32) && value.getLsbD (min i bit)) := by
  simp only [signExtendFrom, BitVec.getLsbD_signExtend, BitVec.msb_eq_getLsbD_last,
    BitVec.getLsbD_setWidth, Nat.add_sub_cancel, Nat.lt_succ_iff]
  by_cases h : i ≤ bit
  · simp [h]
  · simp [h, Nat.min_eq_right (by omega : bit ≤ i)]

end Rv32Soc
