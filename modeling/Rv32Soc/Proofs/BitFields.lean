import Mathlib.Algebra.Group.Nat.Defs
import Rv32Soc.Isa.Alu
import Rv32Soc.Isa.Format

/-!
# What the two bit helpers compute

`extractField` and `signExtendFrom` are known bit by bit from where they are
defined. As numbers, the first divides by a power of two and takes a
remainder, and the second reads a remainder with a sign. Both are usually
computed on whole words instead: a field by a logical shift and a mask, a sign
by a shift up and an arithmetic shift back. These are the same functions, at
every width and also where a mask of the field's length would be as wide as
the word.

A sign extension is decided by the bits that it keeps. That it changes nothing
the second time, and that it does not see the bits above the sign, are two
consequences of this one fact (`setWidth_signExtendFrom`).
-/

namespace Rv32Soc

/-! ## Fields -/

/-- The number that bits `hi` down to `lo` of a value make. -/
def fieldNumber {n : Nat} (value : BitVec n) (hi lo : Nat) : Nat :=
  value.toNat / 2 ^ lo % 2 ^ (hi - lo + 1)

theorem fieldNumber_lt {n : Nat} (value : BitVec n) (hi lo : Nat) :
    fieldNumber value hi lo < 2 ^ n :=
  calc fieldNumber value hi lo
    _ ≤ value.toNat / 2 ^ lo := Nat.mod_le _ _
    _ ≤ value.toNat := Nat.div_le_self _ _
    _ < 2 ^ n := value.isLt

theorem toNat_extractField {n : Nat} (value : BitVec n) (hi lo : Nat) :
    (extractField value hi lo).toNat = fieldNumber value hi lo := by
  rw [extractField, BitVec.toNat_setWidth, BitVec.extractLsb'_toNat, Nat.shiftRight_eq_div_pow]
  exact Nat.mod_eq_of_lt (fieldNumber_lt value hi lo)

/-- A field of a signed value is a signed value again, and negative only where it has the
value's whole width. -/
theorem toInt_extractField {n : Nat} (value : BitVec n) (hi lo : Nat) :
    (extractField value hi lo).toInt = (fieldNumber value hi lo : Int).bmod (2 ^ n) := by
  rw [BitVec.toInt_eq_toNat_bmod, toNat_extractField]

/-- A field is the value shifted down, with what is above the field masked out if there is
anything above it. -/
theorem extractField_eq_mask {n : Nat} (value : BitVec n) (hi lo : Nat) :
    extractField value hi lo
      = if n ≤ hi - lo + 1 then value >>> lo
        else value >>> lo &&& ~~~(BitVec.allOnes n <<< (hi - lo + 1)) := by
  apply BitVec.eq_of_getLsbD_eq
  intro i hi'
  rw [getLsbD_extractField]
  split
  · -- the field goes up to the top of the value, so there is nothing to mask out
    simp [show i ≤ hi - lo by omega]
  · have hmask : (~~~(BitVec.allOnes n <<< (hi - lo + 1))).getLsbD i = decide (i ≤ hi - lo) := by
      simp only [BitVec.getLsbD_not, BitVec.getLsbD_shiftLeft, hi', decide_true, Bool.true_and,
        BitVec.getLsbD_allOnes, show i - (hi - lo + 1) < n by omega, Bool.and_true, Bool.not_not,
        Nat.lt_succ_iff]
    rw [BitVec.getLsbD_and, BitVec.getLsbD_ushiftRight, hmask]

/-- A field that ends at the sign bit is shifted down without the sign being repeated. -/
theorem extractField_top {n : Nat} (value : BitVec n) (lo : Nat) :
    extractField value (n - 1) lo = value >>> lo := by
  apply BitVec.eq_of_getLsbD_eq
  intro i hi
  rw [getLsbD_extractField, BitVec.getLsbD_ushiftRight]
  by_cases hin : lo + i < n
  · simp [show i ≤ n - 1 - lo by omega]
  · simp [BitVec.getLsbD_of_ge value (lo + i) (by omega)]

/-! ## Signs -/

/-- The lowest `bit + 1` bits of a word as a number with a sign, which is bit `bit`. -/
def lowSigned (value : Word) (bit : Nat) : Int :=
  let low := value.toNat % 2 ^ (bit + 1)
  if low < 2 ^ bit then low else (low : Int) - (2 ^ (bit + 1) : Nat)

theorem toInt_signExtendFrom (value : Word) {bit : Nat} (h : bit ≤ 31) :
    (signExtendFrom value bit).toInt = lowSigned value bit := by
  have hpow : 2 ^ (bit + 1) = 2 * 2 ^ bit := Nat.pow_succ'
  rw [signExtendFrom, BitVec.toInt_signExtend_of_le (by omega), BitVec.toInt_eq_toNat_cond,
    BitVec.toNat_setWidth, lowSigned]
  simp only [hpow, Nat.mul_lt_mul_left Nat.two_pos]

/-- Sign extension keeps the bits up to the sign. -/
theorem setWidth_signExtendFrom (value : Word) {bit : Nat} (h : bit ≤ 31) :
    (signExtendFrom value bit).setWidth (bit + 1) = value.setWidth (bit + 1) := by
  apply BitVec.eq_of_getLsbD_eq
  intro i hi
  rw [BitVec.getLsbD_setWidth, BitVec.getLsbD_setWidth, getLsbD_signExtendFrom,
    Nat.min_eq_left (by omega), decide_eq_true (show i < 32 by omega), Bool.true_and]

theorem toNat_signExtendFrom_mod (value : Word) {bit : Nat} (h : bit ≤ 31) :
    (signExtendFrom value bit).toNat % 2 ^ (bit + 1) = value.toNat % 2 ^ (bit + 1) := by
  simpa only [BitVec.toNat_setWidth] using congrArg BitVec.toNat (setWidth_signExtendFrom value h)

theorem signExtendFrom_idem (value : Word) {bit : Nat} (h : bit ≤ 31) :
    signExtendFrom (signExtendFrom value bit) bit = signExtendFrom value bit := by
  rw [signExtendFrom, setWidth_signExtendFrom value h, ← signExtendFrom]

/-- Two words are extended to the same word when they agree up to the sign, and only then. -/
theorem signExtendFrom_inj (value other : Word) {bit : Nat} (h : bit ≤ 31) :
    signExtendFrom value bit = signExtendFrom other bit
      ↔ value.toNat % 2 ^ (bit + 1) = other.toNat % 2 ^ (bit + 1) := by
  constructor
  · intro heq
    rw [← toNat_signExtendFrom_mod value h, heq, toNat_signExtendFrom_mod other h]
  · intro heq
    have hlow : value.setWidth (bit + 1) = other.setWidth (bit + 1) :=
      BitVec.eq_of_toNat_eq (by simpa only [BitVec.toNat_setWidth] using heq)
    rw [signExtendFrom, hlow, ← signExtendFrom]

/-- The sign is moved to the top of the word and dragged down from there. -/
theorem signExtendFrom_eq_shifts (value : Word) {bit : Nat} (h : bit ≤ 31) :
    signExtendFrom value bit = (value <<< (31 - bit)).sshiftRight (31 - bit) := by
  have hsign : (value <<< (31 - bit)).msb = value.getLsbD bit := by
    rw [BitVec.msb_eq_getLsbD_last, BitVec.getLsbD_shiftLeft]
    simp [show ¬ 31 < 31 - bit by omega, show 31 - (31 - bit) = bit by omega]
  apply BitVec.eq_of_getLsbD_eq
  intro i hi
  rw [getLsbD_signExtendFrom, BitVec.getLsbD_sshiftRight, hsign]
  by_cases hle : i ≤ bit
  · simp [hi, hle, show 31 - bit + i < 32 by omega, show ¬ 31 - bit + i < 31 - bit by omega]
  · simp [hi, Nat.min_eq_right (Nat.le_of_not_le hle), show ¬ 31 - bit + i < 32 by omega]

/-! ## Immediates and loads

The immediate of an instruction is put together from fields of the word, each
shifted to its place, and extended from its highest bit. A signed load extends
what it read from its own highest bit. -/

theorem signExtendFrom_setWidth {bit : Nat} (x : BitVec (bit + 1)) (h : bit ≤ 31) :
    signExtendFrom (x.setWidth 32) bit = x.signExtend 32 := by
  rw [signExtendFrom, BitVec.setWidth_setWidth_of_le _ (by omega), BitVec.setWidth_eq]

/-- Pieces side by side are pieces shifted to their places and joined. -/
theorem setWidth_pieces {m n : Nat} (x : BitVec m) (y : BitVec n) (h : m + n ≤ 32) :
    (x ++ y).setWidth 32 = x.setWidth 32 <<< n ||| y.setWidth 32 := by
  apply BitVec.eq_of_getLsbD_eq
  intro i hi
  rw [BitVec.getLsbD_setWidth, BitVec.getLsbD_append, BitVec.getLsbD_or, BitVec.getLsbD_shiftLeft,
    BitVec.getLsbD_setWidth, BitVec.getLsbD_setWidth]
  by_cases hlow : i < n
  · simp [hi, hlow]
  · simp [hi, hlow, show i - n < 32 by omega, BitVec.getLsbD_of_ge y i (by omega)]

/-- B and J offsets are four pieces and a zero. -/
theorem setWidth_offset {k l m n : Nat} (a : BitVec k) (b : BitVec l) (c : BitVec m)
    (d : BitVec n) (h : k + l + m + n + 1 ≤ 32) :
    (a ++ b ++ c ++ d ++ 0#1).setWidth 32
      = a.setWidth 32 <<< (l + m + n + 1) ||| b.setWidth 32 <<< (m + n + 1)
        ||| c.setWidth 32 <<< (n + 1) ||| d.setWidth 32 <<< 1 := by
  rw [setWidth_pieces _ _ h, setWidth_pieces _ _ (by omega), setWidth_pieces _ _ (by omega),
    setWidth_pieces _ _ (by omega), BitVec.setWidth_zero, BitVec.or_zero]
  simp only [BitVec.shiftLeft_or_distrib, ← BitVec.shiftLeft_add]

namespace Isa

/-- The signed immediates of a word are made with the two helpers. -/
structure ByFields (word : Word) : Prop where
  immI : immI word = signExtendFrom (extractField word 31 20) 11
  immS : immS word = signExtendFrom (extractField word 31 25 <<< 5 ||| extractField word 11 7) 11
  immB : immB word
    = signExtendFrom (extractField word 31 31 <<< 12 ||| extractField word 7 7 <<< 11
        ||| extractField word 30 25 <<< 5 ||| extractField word 11 8 <<< 1) 12
  immJ : immJ word
    = signExtendFrom (extractField word 31 31 <<< 20 ||| extractField word 19 12 <<< 12
        ||| extractField word 20 20 <<< 11 ||| extractField word 30 21 <<< 1) 20

theorem byFields (word : Word) : ByFields word where
  immI := (signExtendFrom_setWidth (word.extractLsb' 20 12) (by decide)).symm
  immS := by
    rw [Isa.immS, ← signExtendFrom_setWidth _ (by decide), setWidth_pieces _ _ (by decide)]
    rfl
  immB := by
    rw [Isa.immB, ← signExtendFrom_setWidth _ (by decide), setWidth_offset _ _ _ _ (by decide)]
    rfl
  immJ := by
    rw [Isa.immJ, ← signExtendFrom_setWidth _ (by decide), setWidth_offset _ _ _ _ (by decide)]
    rfl

/-- A signed load extends what it has read from the highest bit of that. -/
theorem Load.extend_of_isSigned {kind : Load} (h : kind.isSigned = true)
    (value : BitVec kind.width.bits) :
    kind.extend value = signExtendFrom (value.setWidth 32) (kind.width.bits - 1) := by
  cases kind with
  | lb => exact (@signExtendFrom_setWidth 7 value (by decide)).symm
  | lh => exact (@signExtendFrom_setWidth 15 value (by decide)).symm
  | lw => exact (@signExtendFrom_setWidth 31 value (by decide)).symm
  | lbu | lhu => cases h

end Isa

/-! ## The helpers as a whole -/

/-- What there is to say of bits `hi` down to `lo` of a value, as a value of the same width. -/
structure IsField {n : Nat} (value : BitVec n) (hi lo : Nat) (field : BitVec n) : Prop where
  toNat : field.toNat = value.toNat / 2 ^ lo % 2 ^ (hi - lo + 1)
  toInt : field.toInt = ((value.toNat / 2 ^ lo % 2 ^ (hi - lo + 1) : Nat) : Int).bmod (2 ^ n)
  masked : field = if n ≤ hi - lo + 1 then value >>> lo
    else value >>> lo &&& ~~~(BitVec.allOnes n <<< (hi - lo + 1))
  top : hi = n - 1 → field = value >>> lo

/-- What there is to say of a word that is extended from one of its bits. -/
structure IsExtension (value : Word) (bit : Nat) (result : Word) : Prop where
  toInt : result.toInt = lowSigned value bit
  pattern : result = BitVec.ofInt 32 (lowSigned value bit)
  shifted : result = (value <<< (31 - bit)).sshiftRight (31 - bit)
  /-- The bits above the sign have no part in it. -/
  blind : ∀ other : Word, result = signExtendFrom other bit
    ↔ value.toNat % 2 ^ (bit + 1) = other.toNat % 2 ^ (bit + 1)
  idem : signExtendFrom result bit = result
  low : result.toNat % 2 ^ (bit + 1) = value.toNat % 2 ^ (bit + 1)

/-- A field of a value of any width is the quotient by the power of two where it starts, cut
to the length of the field, read without or with a sign. A word extended from one of its bits
is the two's complement of the signed number that its bits up to there make. All signed immediates
and all signed loads come from these two. -/
theorem bit_helpers_exact :
    (∀ {n : Nat} (value : BitVec n) (hi lo : Nat),
      IsField value hi lo (extractField value hi lo))
    ∧ (∀ (value : Word) (bit : Nat), bit ≤ 31 →
      IsExtension value bit (signExtendFrom value bit))
    ∧ (∀ word : Word, Isa.ByFields word)
    ∧ ∀ (kind : Isa.Load) (value : BitVec kind.width.bits), kind.isSigned = true →
      kind.extend value = signExtendFrom (value.setWidth 32) (kind.width.bits - 1) := by
  refine ⟨fun value hi lo => ?_, fun value bit h => ?_, Isa.byFields,
    fun kind value hsigned => Isa.Load.extend_of_isSigned hsigned value⟩
  · exact {
      toNat := toNat_extractField value hi lo
      toInt := toInt_extractField value hi lo
      masked := extractField_eq_mask value hi lo
      top := fun htop => htop ▸ extractField_top value lo }
  · have hsigned := toInt_signExtendFrom value h
    exact {
      toInt := hsigned
      pattern := by rw [← hsigned, BitVec.ofInt_toInt]
      shifted := signExtendFrom_eq_shifts value h
      blind := fun other => signExtendFrom_inj value other h
      idem := signExtendFrom_idem value h
      low := toNat_signExtendFrom_mod value h }

theorem bit_helpers_exact_deadbeef :
    (extractField 0xdeadbeef#32 31 16).toNat = 0xdead
    ∧ (extractField 0xdeadbeef#32 31 0).toInt = -0x21524111
    ∧ 11 ≤ 31 ∧ (signExtendFrom 0xdeadbeef#32 11).toInt = -0x111
    ∧ Isa.Load.lb.isSigned = true ∧ Isa.Load.lb.extend 0xef#8 = signExtendFrom 0xef#32 7 := by
  obtain ⟨hfields, hextensions, -, hloads⟩ := bit_helpers_exact
  have hsigned : Isa.Load.lb.isSigned = true := rfl
  exact ⟨(hfields 0xdeadbeef#32 31 16).toNat.trans (by decide),
    (hfields 0xdeadbeef#32 31 0).toInt.trans (by decide),
    by decide, (hextensions 0xdeadbeef#32 11 (by decide)).toInt.trans (by decide),
    hsigned, hloads .lb 0xef#8 hsigned⟩

end Rv32Soc
