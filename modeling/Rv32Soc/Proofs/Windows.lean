import Mathlib.Algebra.Group.Nat.Defs
import Mathlib.Data.Nat.Log
import Rv32Soc.Bus.Window

/-!
# Where a window lies

A window is placed well if it has a page, its base is a multiple of its
rounded size and it ends inside the address space. The bus asks these
questions in its own arithmetic, with a mask of 32 bits and page numbers. For a
window that ends inside the address space the mask is exact, and for all
others the last question fails; so the checks of the bus and the definition
agree for every number of pages.

For a window that is placed well the mask is right: on the addresses of the
window it takes the base off. A mask turned around does the opposite. It takes
the low bits off, and so rounds an address down to a multiple of a power of two.
-/

namespace Rv32Soc

/-! ## Addresses without their low bits -/

theorem and_not_lowBits (a : Word) (k : Nat) :
    a &&& ~~~BitVec.ofNat 32 (2 ^ k - 1) = a >>> k <<< k := by
  apply BitVec.eq_of_getLsbD_eq
  intro i hi
  rw [BitVec.getLsbD_and, BitVec.getLsbD_not, BitVec.getLsbD_ofNat, Nat.testBit_two_pow_sub_one,
    BitVec.getLsbD_shiftLeft, BitVec.getLsbD_ushiftRight]
  by_cases hk : i < k
  · simp [hk, hi]
  · simp [hk, hi, Nat.add_sub_of_le (Nat.not_lt.mp hk)]

/-- To clear the low bits of an address is to round it down. -/
theorem toNat_and_not_lowBits (a : Word) (k : Nat) :
    (a &&& ~~~BitVec.ofNat 32 (2 ^ k - 1)).toNat = a.toNat / 2 ^ k * 2 ^ k := by
  rw [and_not_lowBits, BitVec.toNat_shiftLeft, BitVec.toNat_ushiftRight, Nat.shiftLeft_eq,
    Nat.shiftRight_eq_div_pow]
  exact Nat.mod_eq_of_lt (Nat.lt_of_le_of_lt (Nat.div_mul_le_self _ _) a.isLt)

/-! ## The rounded size -/

theorem roundUp_eq (n : Nat) : roundUp n = 2 ^ Nat.clog 2 n := by
  unfold roundUp
  split
  · next hn => rw [Nat.clog_of_right_le_one hn, Nat.pow_zero]
  · next hn =>
      have hbelow : 2 ^ Nat.log 2 (n - 1) ≤ n - 1 := Nat.pow_log_le_self 2 (by omega)
      have habove : n - 1 < 2 ^ (Nat.log 2 (n - 1) + 1) :=
        Nat.lt_pow_succ_log_self (by decide) (n - 1)
      have hlog : Nat.log 2 (n - 1) + 1 = Nat.clog 2 n := by
        apply Nat.le_antisymm
        · have hlt : Nat.log 2 (n - 1) < Nat.clog 2 n :=
            (Nat.lt_clog_iff_pow_lt (by decide)).mpr (by omega)
          omega
        · exact Nat.clog_le_of_le_pow (by omega)
      rw [Nat.log2_eq_log_two, hlog, Nat.shiftLeft_eq, Nat.one_mul]

namespace Window

/-- The number of bytes of a window. -/
def bytes (w : Window) : Nat :=
  w.pages.toNat * pageSize

/-- The number of bytes of a window, rounded up to a power of two. -/
def rounded (w : Window) : Nat :=
  2 ^ Nat.clog 2 w.bytes

theorem bytes_le_rounded (w : Window) : w.bytes ≤ w.rounded :=
  Nat.le_pow_clog (by decide) w.bytes

/-- Nothing below the size of the address space is rounded up beyond it. -/
theorem rounded_le {w : Window} (h : w.bytes ≤ wordCount) : w.rounded ≤ 2 ^ 32 := by
  have hlog : Nat.clog 2 w.bytes ≤ 32 := Nat.clog_le_of_le_pow h
  exact Nat.pow_le_pow_right (by decide) hlog

theorem windowMask_toNat {w : Window} (h : w.bytes ≤ wordCount) :
    (windowMask w.pages).toNat = w.rounded - 1 := by
  have hle := rounded_le h
  have hpos : 0 < w.rounded := Nat.two_pow_pos _
  rw [windowMask, roundUp_eq, BitVec.toNat_ofNat]
  exact Nat.mod_eq_of_lt (show w.rounded - 1 < 2 ^ 32 by omega)

/-- The bus knows no window that is larger than the address space. -/
theorem windowSize_eq_min (w : Window) : windowSize w.pages = min w.rounded (2 ^ 32) := by
  have hpos : 0 < w.rounded := Nat.two_pow_pos _
  rw [windowSize, windowMask, roundUp_eq, BitVec.toNat_ofNat]
  change (w.rounded - 1) % 2 ^ 32 + 1 = min w.rounded (2 ^ 32)
  by_cases hle : w.rounded ≤ 2 ^ 32
  · rw [Nat.mod_eq_of_lt (by omega), Nat.min_eq_left hle]
    omega
  · have hlog : 32 ≤ Nat.clog 2 w.bytes := by
      by_contra hlt
      exact hle (Nat.pow_le_pow_right (by decide) (by omega))
    obtain ⟨k, hk⟩ : 2 ^ 32 ∣ w.rounded := Nat.pow_dvd_pow 2 hlog
    omega

theorem windowSize_eq {w : Window} (h : w.bytes ≤ wordCount) :
    windowSize w.pages = w.rounded := by
  rw [windowSize_eq_min, Nat.min_eq_left (rounded_le h)]

theorem pageSize_dvd_rounded {w : Window} (h : 0 < w.pages.toNat) : pageSize ∣ w.rounded := by
  have hlog : 10 ≤ Nat.clog 2 w.bytes := by
    have hlt : 9 < Nat.clog 2 w.bytes := by
      apply (Nat.lt_clog_iff_pow_lt (by decide)).mpr
      simp only [bytes, pageSize]
      omega
    omega
  exact Nat.pow_dvd_pow 2 hlog

/-! ## Well-placed windows -/

/-- The window has a page, suits its rounded size and ends inside the address space. -/
structure Placed (w : Window) : Prop where
  pages : 1 ≤ w.pages.toNat
  aligned : w.rounded ∣ w.base.toNat
  inside : w.base.toNat + w.bytes ≤ wordCount

/-- The address lies in the window. -/
def Holds (w : Window) (address : Word) : Prop :=
  w.base.toNat ≤ address.toNat ∧ address.toNat < w.base.toNat + w.bytes

instance (w : Window) (address : Word) : Decidable (w.Holds address) :=
  inferInstanceAs (Decidable (_ ∧ _))

theorem Placed.bytes_le {w : Window} (h : w.Placed) : w.bytes ≤ wordCount := by
  have hinside := h.inside
  omega

theorem Placed.pageSize_dvd {w : Window} (h : w.Placed) : pageSize ∣ w.base.toNat :=
  Nat.dvd_trans (pageSize_dvd_rounded h.pages) h.aligned

/-- The three checks that the bus makes of a window by itself. -/
theorem placed_iff {w : Window} :
    w.Placed ↔ w.pages ≠ 0 ∧ w.base.toNat % windowSize w.pages = 0 ∧ w.endPage ≤ pageCount := by
  have hzero : w.pages = 0 ↔ w.pages.toNat = 0 := by
    rw [← BitVec.toNat_inj]
    rfl
  have hend : w.endPage = w.base.toNat / pageSize + w.pages.toNat := rfl
  have hcount : pageCount = 4194304 := rfl
  constructor
  · intro h
    obtain ⟨pages, hpages⟩ := h.pageSize_dvd
    have hinside := h.inside
    refine ⟨fun hnone => ?_, ?_, ?_⟩
    · have hpages := h.pages
      rw [hzero.mp hnone] at hpages
      omega
    · rw [windowSize_eq h.bytes_le]
      exact Nat.mod_eq_zero_of_dvd h.aligned
    · simp only [bytes, pageSize, wordCount] at hinside hpages hend
      omega
  · rintro ⟨hsome, haligned, hfits⟩
    have hpages : 1 ≤ w.pages.toNat := by
      have hne : w.pages.toNat ≠ 0 := fun h => hsome (hzero.mpr h)
      omega
    have hbytes : w.bytes ≤ wordCount := by
      simp only [bytes, pageSize, wordCount] at hend ⊢
      omega
    rw [windowSize_eq hbytes] at haligned
    have hdvd : w.rounded ∣ w.base.toNat := Nat.dvd_of_mod_eq_zero haligned
    obtain ⟨pages, hbase⟩ := Nat.dvd_trans (pageSize_dvd_rounded hpages) hdvd
    refine ⟨hpages, hdvd, ?_⟩
    simp only [bytes, pageSize, wordCount] at hbase hend ⊢
    omega

/-! ## Addresses of a window -/

theorem covers_iff {w : Window} {page : Nat} :
    w.covers page = true ↔ w.firstPage ≤ page ∧ page < w.endPage := by
  rw [covers, decide_eq_true_iff]

/-- For a window that is placed well, pages and addresses tell the same. -/
theorem Placed.covers_pageOf {w : Window} (h : w.Placed) {address : Word} :
    w.covers (pageOf address) = true ↔ w.Holds address := by
  obtain ⟨page, hbase⟩ := h.pageSize_dvd
  rw [covers_iff]
  simp only [Holds, endPage, firstPage, pageOf, bytes, pageSize] at hbase ⊢
  omega

/-- On the addresses of the window the mask takes the base off. -/
theorem Placed.offset_toNat {w : Window} (h : w.Placed) {address : Word}
    (ha : w.Holds address) : (w.offset address).toNat = address.toNat - w.base.toNat := by
  obtain ⟨windows, hbase⟩ := h.aligned
  have hbelow : address.toNat - w.base.toNat < w.rounded := by
    have hrounded := w.bytes_le_rounded
    obtain ⟨hfrom, hto⟩ := ha
    omega
  have hsplit : address.toNat = address.toNat - w.base.toNat + w.rounded * windows := by
    obtain ⟨hfrom, hto⟩ := ha
    omega
  rw [offset, BitVec.toNat_and, windowMask_toNat h.bytes_le, rounded,
    Nat.and_two_pow_sub_one_eq_mod, ← rounded]
  calc address.toNat % w.rounded
      = (address.toNat - w.base.toNat + w.rounded * windows) % w.rounded := by rw [← hsplit]
    _ = (address.toNat - w.base.toNat) % w.rounded := Nat.add_mul_mod_self_left _ _ _
    _ = address.toNat - w.base.toNat := Nat.mod_eq_of_lt hbelow

theorem Placed.offset_eq {w : Window} (h : w.Placed) {address : Word}
    (ha : w.Holds address) : w.offset address = address - w.base := by
  apply BitVec.eq_of_toNat_eq
  rw [h.offset_toNat ha, BitVec.toNat_sub_of_le ha.1]

theorem Placed.offset_lt {w : Window} (h : w.Placed) {address : Word}
    (ha : w.Holds address) : (w.offset address).toNat < w.bytes := by
  rw [h.offset_toNat ha]
  obtain ⟨hfrom, hto⟩ := ha
  omega

end Window

end Rv32Soc
