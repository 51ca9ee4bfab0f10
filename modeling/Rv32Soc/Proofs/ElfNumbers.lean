import Mathlib.Algebra.Group.Nat.Defs
import Rv32Soc.Elf.File

/-!
# Numbers in a file

A number is spelled in a file by a fixed number of bytes, the lowest or the
highest of them first. The bytes of a number are its digits to the base 256,
and reading them gives the number back. A record is spelled by its fields one
after the other; so each field is found again behind the bytes of those before
it.
-/

namespace Rv32Soc.Elf

/-! ## Digits -/

/-- The `n` lowest digits of a number to the base 256, the lowest first. -/
def lowDigits : Nat → Nat → List Byte
  | 0, _ => []
  | n + 1, value => BitVec.ofNat 8 value :: lowDigits n (value / 256)

/-- The `n` bytes that spell a number. -/
def ByteOrder.digits : ByteOrder → Nat → Nat → List Byte
  | little, n, value => lowDigits n value
  | big, n, value => (lowDigits n value).reverse

namespace ByteOrder

theorem number_big (bytes : List Byte) : big.number bytes = little.number bytes.reverse := by
  simp only [number, List.foldr_reverse]
  congr 1
  funext n b
  exact Nat.add_comm _ _

theorem little_number_lt (bytes : List Byte) : little.number bytes < 256 ^ bytes.length := by
  induction bytes with
  | nil => exact Nat.one_pos
  | cons b rest ih =>
      have hb : b.toNat < 256 := b.isLt
      simp only [number, List.foldr_cons, List.length_cons, Nat.pow_succ] at ih ⊢
      omega

theorem number_lt (order : ByteOrder) (bytes : List Byte) :
    order.number bytes < 256 ^ bytes.length := by
  cases order with
  | little => exact little_number_lt bytes
  | big =>
      rw [number_big, ← bytes.length_reverse]
      exact little_number_lt bytes.reverse

theorem little_number_lowDigits {n value : Nat} (h : value < 256 ^ n) :
    little.number (lowDigits n value) = value := by
  induction n generalizing value with
  | zero => simp only [Nat.pow_zero, Nat.lt_one_iff] at h; exact h.symm
  | succ n ih =>
      have hrest : value / 256 < 256 ^ n := by
        rw [Nat.pow_succ] at h
        omega
      have hlow : (BitVec.ofNat 8 value).toNat = value % 256 := BitVec.toNat_ofNat value 8
      show (BitVec.ofNat 8 value).toNat + 256 * little.number (lowDigits n (value / 256)) = value
      rw [ih hrest, hlow]
      omega

/-- A number that fits in its bytes is read as it was spelled. -/
theorem number_digits (order : ByteOrder) {n value : Nat} (h : value < 256 ^ n) :
    order.number (order.digits n value) = value := by
  cases order with
  | little => exact little_number_lowDigits h
  | big =>
      rw [number_big, digits, List.reverse_reverse]
      exact little_number_lowDigits h

end ByteOrder

theorem length_lowDigits (n value : Nat) : (lowDigits n value).length = n := by
  induction n generalizing value with
  | zero => rfl
  | succ n ih => rw [lowDigits, List.length_cons, ih]

theorem ByteOrder.length_digits (order : ByteOrder) (n value : Nat) :
    (order.digits n value).length = n := by
  cases order with
  | little => exact length_lowDigits n value
  | big => rw [digits, List.length_reverse, length_lowDigits]

/-! ## Places in a file -/

theorem length_bytesAt_le (file : Array Byte) (start length : Nat) :
    (bytesAt file start length).length ≤ length := by
  simp only [bytesAt, Array.length_toList, Array.size_extract]
  omega

theorem numberAt_lt (order : ByteOrder) (file : Array Byte) (start length : Nat) :
    numberAt order file start length < 256 ^ length :=
  Nat.lt_of_lt_of_le (order.number_lt _)
    (Nat.pow_le_pow_right (by decide) (length_bytesAt_le file start length))

theorem bytesAt_append (before bytes after : List Byte) :
    bytesAt (before ++ bytes ++ after).toArray before.length bytes.length = bytes := by
  simp [bytesAt, List.extract_eq_take_drop]

/-! ## Records -/

/-- A record: the size in bytes and the value of each field. -/
abbrev Fields := List (Nat × Nat)

namespace Fields

/-- The sizes of the fields together. -/
def size (fields : Fields) : Nat :=
  (fields.map Prod.fst).foldr (· + ·) 0

/-- Each field fits in its bytes. -/
def Fit (fields : Fields) : Prop :=
  ∀ field ∈ fields, field.2 < 256 ^ field.1

/-- The bytes that spell a record. -/
def spell (order : ByteOrder) (fields : Fields) : List Byte :=
  fields.flatMap fun field => order.digits field.1 field.2

theorem length_spell (order : ByteOrder) (fields : Fields) :
    (spell order fields).length = fields.size := by
  induction fields with
  | nil => rfl
  | cons field rest ih =>
      show (order.digits field.1 field.2 ++ spell order rest).length = field.1 + size rest
      rw [List.length_append, ByteOrder.length_digits, ih]

end Fields

/-- A field is read where the fields before it end. -/
theorem numberAt_spell (order : ByteOrder) (before after : List Byte) {fields : Fields}
    (hfit : fields.Fit) {i n value place : Nat} (hfield : fields[i]? = some (n, value))
    (hplace : before.length + ((fields.map Prod.fst).take i).foldr (· + ·) 0 = place) :
    numberAt order (before ++ fields.spell order ++ after).toArray place n = value := by
  obtain ⟨hi, hvalue⟩ := List.getElem?_eq_some_iff.mp hfield
  have hsplit : fields = fields.take i ++ (n, value) :: fields.drop (i + 1) := by
    rw [← hvalue, ← List.drop_eq_getElem_cons hi, List.take_append_drop]
  have hspelled : before ++ fields.spell order ++ after
      = (before ++ Fields.spell order (fields.take i)) ++ order.digits n value
        ++ (Fields.spell order (fields.drop (i + 1)) ++ after) := by
    have hfields := congrArg (Fields.spell order) hsplit
    simp only [Fields.spell, List.flatMap_append, List.flatMap_cons] at hfields ⊢
    rw [hfields]
    simp only [List.append_assoc]
  have hbefore : place = (before ++ Fields.spell order (fields.take i)).length := by
    rw [List.length_append, Fields.length_spell, Fields.size, List.map_take, hplace]
  have hbytes := bytesAt_append (before ++ Fields.spell order (fields.take i))
    (order.digits n value) (Fields.spell order (fields.drop (i + 1)) ++ after)
  rw [ByteOrder.length_digits] at hbytes
  rw [hspelled, hbefore, numberAt, hbytes]
  exact order.number_digits (hfit _ (List.mem_of_getElem? hfield))

end Rv32Soc.Elf
