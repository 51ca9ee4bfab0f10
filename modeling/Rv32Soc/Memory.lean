import Rv32Soc.Text.Number
import Rv32Soc.Word

/-!
# Byte memory

A memory is a row of bytes, zero at first. It is read and written in words of
one, two or four bytes at any offset, the byte of least weight first, or in
runs of bytes of any length. An access either lies wholly inside and succeeds,
or fails and changes nothing. Writing is therefore a step that hands on the
memory it leaves in either case.

Both kinds of access rest on two functions over the row alone: `assemble`
puts consecutive bytes together into one number, `splice` lays bytes over the
row from an offset on.
-/

namespace Rv32Soc

/-- A row of bytes. -/
structure Memory where
  bytes : Array Byte

/-- An access that does not lie inside the memory. -/
inductive MemoryError where
  | outOfRange (offset : Word) (length size : Nat)
  deriving DecidableEq

/-- The text of a failed access. -/
def MemoryError.message : MemoryError → String
  | outOfRange offset length size =>
      "access of " ++ Text.decimal length ++ " bytes at offset 0x" ++ Text.hex offset.toNat
        ++ " exceeds memory size 0x" ++ Text.hex size

/-! ## Bytes and numbers -/

/-- The `n` bytes from `start` on as one number, the first byte lowest. Bytes outside the row
count as zero. -/
def assemble (row : Array Byte) (start : Nat) : (n : Nat) → BitVec (8 * n)
  | 0 => 0#0
  | n + 1 => assemble row (start + 1) n ++ row.getD start 0

/-- The `n` bytes of a number, the lowest first. -/
def disassemble {n : Nat} (value : BitVec (8 * n)) : List Byte :=
  (List.range n).map fun i => value.extractLsb' (8 * i) 8

/-- Lay bytes over the row from `start` on; what would fall outside is dropped. -/
def splice (row : Array Byte) (start : Nat) : List Byte → Array Byte
  | [] => row
  | b :: rest => splice (row.setIfInBounds start b) (start + 1) rest

@[simp]
theorem size_splice (row : Array Byte) (start : Nat) (bytes : List Byte) :
    (splice row start bytes).size = row.size := by
  induction bytes generalizing row start with
  | nil => rfl
  | cons b rest ih => simp [splice, ih]

@[simp]
theorem length_disassemble {n : Nat} (value : BitVec (8 * n)) :
    (disassemble value).length = n := by
  simp [disassemble]

namespace Memory

/-- A memory of the given size, all zero. -/
def zero (size : Nat) : Memory :=
  ⟨Array.replicate size 0⟩

/-- The number of bytes. -/
def size (m : Memory) : Nat :=
  m.bytes.size

/-- The access of `length` bytes at `offset` lies inside. -/
def InRange (m : Memory) (offset : Word) (length : Nat) : Prop :=
  offset.toNat + length ≤ m.size

instance (m : Memory) (offset : Word) (length : Nat) : Decidable (m.InRange offset length) :=
  inferInstanceAs (Decidable (_ ≤ _))

/-- Read a word of the given width. -/
def read (m : Memory) (w : Width) (offset : Word) : Except MemoryError (BitVec w.bits) :=
  if m.InRange offset w.bytes then .ok (assemble m.bytes offset.toNat w.bytes)
  else .error (.outOfRange offset w.bytes m.size)

/-- Write a word of the given width. -/
def write (w : Width) (offset : Word) (value : BitVec w.bits) : EStateM MemoryError Memory Unit :=
  fun m =>
    if m.InRange offset w.bytes then
      .ok () ⟨splice m.bytes offset.toNat (disassemble value)⟩
    else .error (.outOfRange offset w.bytes m.size) m

/-- Read a run of bytes. -/
def readBytes (m : Memory) (offset : Word) (length : Nat) : Except MemoryError (Array Byte) :=
  if m.InRange offset length then
    .ok (m.bytes.extract offset.toNat (offset.toNat + length))
  else .error (.outOfRange offset length m.size)

/-- Write a run of bytes. -/
def writeBytes (offset : Word) (bytes : Array Byte) : EStateM MemoryError Memory Unit :=
  fun m =>
    if m.InRange offset bytes.size then .ok () ⟨splice m.bytes offset.toNat bytes.toList⟩
    else .error (.outOfRange offset bytes.size m.size) m

/-- The memory with every byte back at zero. -/
def cleared (m : Memory) : Memory :=
  zero m.size

end Memory

end Rv32Soc
