import Rv32Soc.Memory

/-!
# Bytes of a row and bytes of a number

A number is put together from bytes of a row, or taken apart and laid over the
row. Either way its `i`-th byte and the `i`-th byte from the start on are the
same. So what is read after a write can be told byte by byte: where the write
went it is what was written, and elsewhere what was there before.
-/

namespace Rv32Soc

/-- The `i`-th byte of a number, counted from the lowest. -/
def byteOf {n : Nat} (value : BitVec (8 * n)) (i : Nat) : Byte :=
  value.extractLsb' (8 * i) 8

theorem eq_of_byteOf {n : Nat} {x y : BitVec (8 * n)}
    (h : ∀ i, i < n → byteOf x i = byteOf y i) : x = y := by
  apply BitVec.eq_of_getLsbD_eq
  intro j hj
  have hbyte : byteOf x (j / 8) = byteOf y (j / 8) := h (j / 8) (by omega)
  have hbit := congrArg (fun b => BitVec.getLsbD b (j % 8)) hbyte
  have hlt : j % 8 < 8 := Nat.mod_lt j (by decide)
  simpa [byteOf, hlt, Nat.div_add_mod] using hbit

theorem byteOf_assemble (row : Array Byte) (start : Nat) {n i : Nat} (hi : i < n) :
    byteOf (assemble row start n) i = row.getD (start + i) 0 := by
  induction n generalizing start i with
  | zero => omega
  | succ n ih =>
      cases i with
      | zero =>
          apply BitVec.eq_of_getLsbD_eq
          intro j hj
          rw [byteOf, assemble, BitVec.getLsbD_extractLsb', BitVec.getLsbD_append]
          simp [hj]
      | succ i =>
          have hrest := ih (start + 1) (Nat.lt_of_succ_lt_succ hi)
          rw [show start + (i + 1) = start + 1 + i by omega, ← hrest]
          apply BitVec.eq_of_getLsbD_eq
          intro j hj
          have hplace : 8 * (i + 1) + j - 8 = 8 * i + j := by omega
          rw [byteOf, assemble, BitVec.getLsbD_extractLsb', BitVec.getLsbD_append, byteOf,
            BitVec.getLsbD_extractLsb', if_neg (by omega), hplace]

theorem getElem?_disassemble {n : Nat} (value : BitVec (8 * n)) (i : Nat) :
    (disassemble value)[i]? = if i < n then some (byteOf value i) else none := by
  rw [disassemble, List.getElem?_map]
  by_cases hi : i < n
  · rw [List.getElem?_range hi, if_pos hi]
    rfl
  · rw [List.getElem?_eq_none (by rw [List.length_range]; omega), if_neg hi]
    rfl

theorem getElem?_splice (row : Array Byte) (start : Nat) (bytes : List Byte) (j : Nat) :
    (splice row start bytes)[j]?
      = if start ≤ j ∧ j < start + bytes.length ∧ j < row.size then bytes[j - start]?
        else row[j]? := by
  induction bytes generalizing row start with
  | nil =>
      rw [splice, List.length_nil, if_neg (by omega)]
  | cons b rest ih =>
      rw [splice, ih, Array.size_setIfInBounds, List.length_cons]
      by_cases hfirst : j = start
      · subst hfirst
        rw [if_neg (by omega), Array.getElem?_setIfInBounds_self]
        by_cases hj : j < row.size
        · rw [if_pos hj, if_pos (by omega), Nat.sub_self, List.getElem?_cons_zero]
        · rw [if_neg hj, if_neg (by omega), Array.getElem?_eq_none (by omega)]
      · by_cases hrest : start + 1 ≤ j ∧ j < start + 1 + rest.length ∧ j < row.size
        · have hplace : j - start = j - (start + 1) + 1 := by omega
          rw [if_pos hrest, if_pos (by omega), hplace, List.getElem?_cons_succ]
        · rw [if_neg hrest, if_neg (by omega), Array.getElem?_setIfInBounds_ne (by omega)]

/-- A byte of the row is covered by the byte laid over it, if there is one. -/
theorem getElem?_splice_or (row : Array Byte) (start : Nat) (bytes : List Byte) {j : Nat}
    (hj : j < row.size) :
    (splice row start bytes)[j]?
      = (if start ≤ j then bytes[j - start]? else none).or row[j]? := by
  rw [getElem?_splice]
  by_cases hfrom : start ≤ j
  · rw [if_pos hfrom]
    by_cases hto : j - start < bytes.length
    · rw [if_pos (by omega), List.getElem?_eq_getElem hto, Option.some_or]
    · rw [if_neg (by omega), List.getElem?_eq_none (Nat.not_lt.mp hto), Option.none_or]
  · rw [if_neg (fun h => hfrom h.1), if_neg hfrom, Option.none_or]

/-- A byte after a write that lies inside the row. -/
theorem getElem?_splice_disassemble {n : Nat} {row : Array Byte} {start : Nat}
    (value : BitVec (8 * n)) (hinside : start + n ≤ row.size) (j : Nat) :
    (splice row start (disassemble value))[j]?
      = if start ≤ j ∧ j < start + n then some (byteOf value (j - start)) else row[j]? := by
  rw [getElem?_splice, length_disassemble]
  by_cases hj : start ≤ j ∧ j < start + n
  · rw [if_pos (by omega), if_pos hj, getElem?_disassemble, if_pos (by omega)]
  · rw [if_neg (by omega), if_neg hj]

theorem assemble_splice {n : Nat} {row : Array Byte} {start : Nat} (value : BitVec (8 * n))
    (hinside : start + n ≤ row.size) :
    assemble (splice row start (disassemble value)) start n = value := by
  apply eq_of_byteOf
  intro i hi
  rw [byteOf_assemble _ _ hi, Array.getD_eq_getD_getElem?,
    getElem?_splice_disassemble value hinside, if_pos (by omega), Option.getD_some]
  congr 1
  omega

theorem assemble_splice_of_apart {n m : Nat} {row : Array Byte} {start place : Nat}
    (value : BitVec (8 * n)) (hinside : start + n ≤ row.size)
    (hapart : place + m ≤ start ∨ start + n ≤ place) :
    assemble (splice row start (disassemble value)) place m = assemble row place m := by
  apply eq_of_byteOf
  intro i hi
  rw [byteOf_assemble _ _ hi, byteOf_assemble _ _ hi, Array.getD_eq_getD_getElem?,
    Array.getD_eq_getD_getElem?, getElem?_splice_disassemble value hinside, if_neg (by omega)]

end Rv32Soc
