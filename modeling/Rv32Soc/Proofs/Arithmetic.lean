import Mathlib
import Rv32Soc.Isa.Alu

/-!
# Products and quotients

A word is read as an integer in two ways, which agree modulo two to the
thirty-second. A product needs two words: the lower one is the same whichever
way the operands are read, and the upper one, of which there are three, is
the quotient by two to the thirty-second, rounded down. The product of a
signed and an unsigned word still fits, because one of the factors is no more
than half of what the other may be.

Division rounds towards zero, so that a remainder has the sign of the
dividend. Two cases are no division: by zero, and the one signed quotient that
is not a word. They are filled in such that the dividend is still the
remainder and the product of quotient and divisor, as words.
-/

namespace Rv32Soc.Isa

/-! ## Products -/

theorem toNat_emod (a : Word) : (a.toNat : Int) % 2 ^ 32 = a.toNat := by
  have hlt := a.isLt
  omega

theorem toInt_emod (a : Word) : a.toInt % 2 ^ 32 = a.toNat := by
  have hlt := a.isLt
  rw [BitVec.toInt_eq_toNat_cond]
  split <;> omega

theorem natAbs_toInt_le (a : Word) : a.toInt.natAbs ≤ 2 ^ 31 := by
  have hlt := a.isLt
  rw [BitVec.toInt_eq_toNat_cond]
  split <;> omega

theorem toNat_highProduct (x y : Int) :
    ((highProduct x y).toNat : Int) = x * y / 2 ^ 32 % 2 ^ 32 := by
  rw [highProduct, BitVec.extractLsb'_toNat, BitVec.toNat_ofInt]
  generalize x * y = p
  simp only [Nat.shiftRight_eq_div_pow]
  omega

/-- The upper half loses nothing if one of the factors is a signed word and the other is one that
may be signed or not. -/
theorem toInt_highProduct {x y : Int} (hx : x.natAbs ≤ 2 ^ 31) (hy : y.natAbs < 2 ^ 32) :
    (highProduct x y).toInt = x * y / 2 ^ 32 := by
  have hproduct : (x * y).natAbs ≤ 2 ^ 31 * (2 ^ 32 - 1) := by
    rw [Int.natAbs_mul]
    exact Nat.mul_le_mul hx (Nat.le_pred_of_lt hy)
  have hhigh := toNat_highProduct x y
  rw [BitVec.toInt_eq_toNat_cond]
  generalize x * y = p at *
  split <;> omega

/-- The lower half does not depend on how the factors are read. -/
theorem toNat_lowProduct {a b : Word} {x y : Int} (hx : x % 2 ^ 32 = a.toNat)
    (hy : y % 2 ^ 32 = b.toNat) : ((Op.mul.eval a b).toNat : Int) = x * y % 2 ^ 32 := by
  rw [Op.eval, BitVec.toNat_mul, Int.natCast_mod, Int.natCast_mul, ← hx, ← hy]
  exact (Int.mul_emod x y (2 ^ 32)).symm

theorem signed_halves {a b : Word} {y : Int} (hy : y % 2 ^ 32 = b.toNat)
    (hlt : y.natAbs < 2 ^ 32) :
    (highProduct a.toInt y).toInt * 2 ^ 32 + (Op.mul.eval a b).toNat = a.toInt * y := by
  rw [toInt_highProduct (natAbs_toInt_le a) hlt, toNat_lowProduct (toInt_emod a) hy]
  exact Int.ediv_mul_add_emod (a.toInt * y) (2 ^ 32)

theorem unsigned_halves (a b : Word) :
    (Op.mulhu.eval a b).toNat * 2 ^ 32 + (Op.mul.eval a b).toNat = a.toNat * b.toNat := by
  have hlt : a.toNat * b.toNat < 2 ^ 32 * 2 ^ 32 := Nat.mul_lt_mul'' a.isLt b.isLt
  have hhigh : ((Op.mulhu.eval a b).toNat : Int) = _ := toNat_highProduct a.toNat b.toNat
  have hlow := toNat_lowProduct (toNat_emod a) (toNat_emod b)
  rw [← Int.natCast_mul] at hhigh hlow
  generalize a.toNat * b.toNat = p at *
  omega

/-! ## Quotients -/

/-- The one signed quotient that is not a word. -/
def Overflows (a b : Word) : Prop :=
  a.toInt = -2 ^ 31 ∧ b.toInt = -1

theorem overflows_iff {a b : Word} : Overflows a b ↔ a = BitVec.intMin 32 ∧ b = -1 := by
  constructor
  · rintro ⟨ha, hb⟩
    exact ⟨BitVec.eq_of_toInt_eq ha, BitVec.eq_of_toInt_eq hb⟩
  · rintro ⟨rfl, rfl⟩
    exact ⟨by decide, by decide⟩

theorem toInt_div {a b : Word} (hb : b ≠ 0) (hfits : ¬Overflows a b) :
    (Op.div.eval a b).toInt = a.toInt.tdiv b.toInt := by
  rw [overflows_iff] at hfits
  rw [Op.eval, if_neg hb]
  exact BitVec.toInt_sdiv_of_ne_or_ne a b (not_and_or.mp hfits)

theorem toInt_rem {a b : Word} (hb : b ≠ 0) :
    (Op.rem.eval a b).toInt = a.toInt.tmod b.toInt := by
  rw [Op.eval, if_neg hb]
  exact BitVec.toInt_srem a b

theorem toNat_divu {a b : Word} (hb : b ≠ 0) :
    (Op.divu.eval a b).toNat = a.toNat / b.toNat := by
  rw [Op.eval, if_neg hb]
  exact BitVec.toNat_udiv

theorem toNat_remu {a b : Word} (hb : b ≠ 0) :
    (Op.remu.eval a b).toNat = a.toNat % b.toNat := by
  rw [Op.eval, if_neg hb]
  exact BitVec.toNat_umod

/-- By zero all the bits of a quotient are set, and the remainder is the dividend. -/
theorem eval_zero (a : Word) :
    Op.div.eval a 0 = BitVec.allOnes 32 ∧ Op.divu.eval a 0 = BitVec.allOnes 32
      ∧ Op.rem.eval a 0 = a ∧ Op.remu.eval a 0 = a :=
  ⟨rfl, rfl, rfl, rfl⟩

theorem Overflows.eval {a b : Word} (h : Overflows a b) :
    (Op.div.eval a b).toInt = -2 ^ 31 ∧ Op.rem.eval a b = 0 := by
  obtain ⟨rfl, rfl⟩ := overflows_iff.mp h
  exact ⟨by decide, by decide⟩

theorem sign_tmod_eq_zero_or (x y : Int) : x.tmod y = 0 ∨ (x.tmod y).sign = x.sign := by
  have hsign := Int.sign_tmod x y
  split at hsign
  · exact .inl (Int.sign_eq_zero_iff_zero.mp hsign)
  · exact .inr hsign

/-! ## What is exact -/

/-- What the eight operations make of two words, told of the integers that the words stand
for. -/
structure Exact (a b : Word) : Prop where
  mulh : (Op.mulh.eval a b).toInt * 2 ^ 32 + (Op.mul.eval a b).toNat = a.toInt * b.toInt
  mulhu : (Op.mulhu.eval a b).toNat * 2 ^ 32 + (Op.mul.eval a b).toNat = a.toNat * b.toNat
  mulhsu : (Op.mulhsu.eval a b).toInt * 2 ^ 32 + (Op.mul.eval a b).toNat = a.toInt * b.toNat
  unsigned : b ≠ 0 →
    a.toNat = (Op.divu.eval a b).toNat * b.toNat + (Op.remu.eval a b).toNat
      ∧ (Op.remu.eval a b).toNat < b.toNat
  signed : b ≠ 0 → ¬Overflows a b →
    a.toInt = (Op.div.eval a b).toInt * b.toInt + (Op.rem.eval a b).toInt
      ∧ (Op.rem.eval a b).toInt.natAbs < b.toInt.natAbs
      ∧ ((Op.rem.eval a b).toInt = 0 ∨ (Op.rem.eval a b).toInt.sign = a.toInt.sign)
  zero : b = 0 →
    Op.div.eval a b = BitVec.allOnes 32 ∧ Op.divu.eval a b = BitVec.allOnes 32
      ∧ Op.rem.eval a b = a ∧ Op.remu.eval a b = a
  overflow : Overflows a b → (Op.div.eval a b).toInt = -2 ^ 31 ∧ Op.rem.eval a b = 0
  wrapped : a = Op.div.eval a b * b + Op.rem.eval a b
  wrappedUnsigned : a = Op.divu.eval a b * b + Op.remu.eval a b

theorem signed_quotient {a b : Word} (hb : b ≠ 0) (hfits : ¬Overflows a b) :
    a.toInt = (Op.div.eval a b).toInt * b.toInt + (Op.rem.eval a b).toInt := by
  rw [toInt_div hb hfits, toInt_rem hb]
  exact (Int.tdiv_mul_add_tmod a.toInt b.toInt).symm

theorem unsigned_quotient {a b : Word} (hb : b ≠ 0) :
    a.toNat = (Op.divu.eval a b).toNat * b.toNat + (Op.remu.eval a b).toNat := by
  rw [toNat_divu hb, toNat_remu hb]
  exact (Nat.div_add_mod' a.toNat b.toNat).symm

theorem wrapped_quotient (a b : Word) : a = Op.div.eval a b * b + Op.rem.eval a b := by
  by_cases hb : b = 0
  · subst hb
    obtain ⟨-, -, hrem, -⟩ := eval_zero a
    rw [hrem, mul_zero, zero_add]
  · by_cases hfits : Overflows a b
    · obtain ⟨rfl, rfl⟩ := overflows_iff.mp hfits
      decide
    · have hexact := congrArg (BitVec.ofInt 32) (signed_quotient hb hfits)
      rwa [BitVec.ofInt_add, BitVec.ofInt_mul, BitVec.ofInt_toInt, BitVec.ofInt_toInt,
        BitVec.ofInt_toInt, BitVec.ofInt_toInt] at hexact

theorem wrapped_unsigned_quotient (a b : Word) :
    a = Op.divu.eval a b * b + Op.remu.eval a b := by
  by_cases hb : b = 0
  · subst hb
    obtain ⟨-, -, -, hremu⟩ := eval_zero a
    rw [hremu, mul_zero, zero_add]
  · apply BitVec.eq_of_toNat_eq
    rw [BitVec.toNat_add, BitVec.toNat_mul, Nat.mod_add_mod, ← unsigned_quotient hb]
    exact (Nat.mod_eq_of_lt a.isLt).symm

theorem exact_of_words (a b : Word) : Exact a b where
  mulh := by
    have hlt := natAbs_toInt_le b
    exact signed_halves (toInt_emod b) (by omega)
  mulhu := unsigned_halves a b
  mulhsu := signed_halves (toNat_emod b) (by rw [Int.natAbs_natCast]; exact b.isLt)
  unsigned hb := by
    have hpos : 0 < b.toNat := Nat.pos_of_ne_zero fun h => hb (BitVec.eq_of_toNat_eq h)
    refine ⟨unsigned_quotient hb, ?_⟩
    rw [toNat_remu hb]
    exact Nat.mod_lt _ hpos
  signed hb hfits := by
    have hpos : 0 < b.toInt.natAbs := Int.natAbs_pos.mpr fun h => hb (BitVec.eq_of_toInt_eq h)
    refine ⟨signed_quotient hb hfits, ?_, ?_⟩
    · rw [toInt_rem hb, Int.natAbs_tmod]
      exact Nat.mod_lt _ hpos
    · rw [toInt_rem hb]
      exact sign_tmod_eq_zero_or a.toInt b.toInt
  zero hb := by
    subst hb
    exact eval_zero a
  overflow := Overflows.eval
  wrapped := wrapped_quotient a b
  wrappedUnsigned := wrapped_unsigned_quotient a b

end Rv32Soc.Isa
