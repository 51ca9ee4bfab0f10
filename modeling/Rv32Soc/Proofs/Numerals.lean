import Rv32Soc.Text.Number
import Rv32Soc.Text.Numeral

/-!
# Numbers are read as they were written

The reader takes digits from the left and knows nothing of widths; the writer
divides, so it finds the last digit first, and may put zeros in front. The two
meet at the last digit: reading a row of digits with one more behind it is
reading the row and then that digit.

What can be read back is told apart, and that is all there is to the
injectivity of the number formats. The reader also says which characters do
not stand in a number: those that it refuses as a digit. A number ends where
such a character stands.
-/

namespace Rv32Soc.Text

/-! ## Digits -/

theorem digits?_append (radix value : Nat) (front back : List Char) :
    digits? radix value (front ++ back)
      = (digits? radix value front).bind fun v => digits? radix v back := by
  induction front generalizing value with
  | nil => rfl
  | cons c rest ih =>
      rw [List.cons_append, digits?, digits?]
      cases digit? radix c with
      | none => rfl
      | some d => exact ih (radix * value + d)

theorem digit?_digitChar {radix d : Nat} (hradix : radix ≤ 16) (hd : d < radix) :
    digit? radix d.digitChar = some d := by
  have hvalue : ∀ d < 16, digit? 16 d.digitChar = some d := by decide
  have hd16 := hvalue d (by omega)
  simp only [digit?, Option.filter_eq_some_iff] at hd16 ⊢
  exact ⟨hd16.1, decide_eq_true hd⟩

theorem digits?_toDigits {radix : Nat} (hmin : 1 < radix) (hmax : radix ≤ 16) (n : Nat) :
    digits? radix 0 (Nat.toDigits radix n) = some n := by
  induction n using Nat.strongRecOn with
  | ind n ih =>
      rw [Nat.toDigits_eq_if hmin]
      split
      · next hlt =>
          rw [digits?, digit?_digitChar hmax hlt]
          simp [digits?]
      · next hle =>
          have hrest : n / radix < n := Nat.div_lt_self (by omega) hmin
          rw [digits?_append, ih _ hrest, Option.bind_some, digits?,
            digit?_digitChar hmax (Nat.mod_lt n (by omega))]
          exact congrArg some (Nat.div_add_mod n radix)

/-- Zeros in front do not count. -/
theorem digits?_padLeft {radix : Nat} (hradix : 0 < radix) (width : Nat) (text : List Char) :
    digits? radix 0 (padLeft width '0' text) = digits? radix 0 text := by
  rw [padLeft]
  induction width - text.length with
  | zero => rfl
  | succ k ih =>
      have hzero : digit? radix '0' = some 0 := by simp [digit?, hradix]
      rw [List.replicate_succ, List.cons_append, digits?, hzero]
      exact ih

theorem digits?_decimal (n : Nat) : digits? 10 0 (decimal n).toList = some n := by
  rw [decimal, String.toList_ofList]
  exact digits?_toDigits (by decide) (by decide) n

theorem digits?_hexPadded (width n : Nat) : digits? 16 0 (hexPadded width n).toList = some n := by
  rw [hexPadded, String.toList_ofList, digits?_padLeft (by decide)]
  exact digits?_toDigits (by decide) (by decide) n

/-! ## What stands in a number -/

/-- In a text that is read to its end there is nothing but digits. -/
theorem notMem_of_digits? {radix value n : Nat} {text : List Char} {c : Char}
    (hread : digits? radix value text = some n) (hc : digit? radix c = none) : c ∉ text := by
  induction text generalizing value with
  | nil => exact List.not_mem_nil
  | cons first rest ih =>
      rw [digits?] at hread
      intro hmem
      obtain rfl | hrest := List.mem_cons.mp hmem
      · rw [hc] at hread
        cases hread
      · split at hread
        · exact ih hread hrest
        · cases hread

theorem notMem_decimal {c : Char} (hc : digit? 10 c = none) (n : Nat) :
    c ∉ (decimal n).toList :=
  notMem_of_digits? (digits?_decimal n) hc

theorem notMem_hexPadded {c : Char} (hc : digit? 16 c = none) (width n : Nat) :
    c ∉ (hexPadded width n).toList :=
  notMem_of_digits? (digits?_hexPadded width n) hc

theorem notMem_signed {c : Char} (hc : digit? 10 c = none) (hminus : c ≠ '-') (i : Int) :
    c ∉ (signed i).toList := by
  cases i with
  | ofNat n => exact notMem_decimal hc n
  | negSucc n =>
      rw [signed, String.toList_append, List.mem_append, not_or]
      exact ⟨fun h => hminus (List.mem_singleton.mp h), notMem_decimal hc (n + 1)⟩

/-! ## Equal texts -/

@[simp]
theorem decimal_inj {m n : Nat} : decimal m = decimal n ↔ m = n := by
  refine ⟨fun h => ?_, congrArg decimal⟩
  have hread := digits?_decimal m
  rw [h, digits?_decimal] at hread
  exact (Option.some.inj hread).symm

@[simp]
theorem hexPadded_inj {width m n : Nat} : hexPadded width m = hexPadded width n ↔ m = n := by
  refine ⟨fun h => ?_, congrArg (hexPadded width)⟩
  have hread := digits?_hexPadded width m
  rw [h, digits?_hexPadded] at hread
  exact (Option.some.inj hread).symm

@[simp]
theorem address_inj {n : Nat} {v w : BitVec n} : address v = address w ↔ v = w := by
  rw [address, address, String.append_right_inj, word, word, hexPadded_inj, BitVec.toNat_inj]

theorem decimal_ne_minus (m n : Nat) : decimal m ≠ "-" ++ decimal n := by
  intro h
  have hminus : '-' ∉ (decimal m).toList := notMem_decimal (by decide) m
  rw [h, String.toList_append] at hminus
  exact hminus (List.mem_append_left _ (by decide))

@[simp]
theorem signed_inj {i j : Int} : signed i = signed j ↔ i = j := by
  refine ⟨fun h => ?_, congrArg signed⟩
  cases i with
  | ofNat m =>
      cases j with
      | ofNat n => exact congrArg Int.ofNat (decimal_inj.mp h)
      | negSucc n => exact absurd h (decimal_ne_minus m (n + 1))
  | negSucc m =>
      cases j with
      | ofNat n => exact absurd h.symm (decimal_ne_minus n (m + 1))
      | negSucc n =>
          have hdigits : m + 1 = n + 1 := decimal_inj.mp ((String.append_right_inj "-").mp h)
          exact congrArg Int.negSucc (Nat.succ.inj hdigits)

end Rv32Soc.Text
