import Mathlib.Algebra.Group.Nat.Defs
import Rv32Soc.Proofs.ByteRows
import Rv32Soc.Proofs.FlatMemory

/-!
# A memory is a row of bytes, however it is accessed

There are two ways into a memory, by words and by runs of bytes, and each can
read and write. What they say to each other is settled here: a word is read as
the number that its bytes make, and writing one is writing its lowest bytes.
So it is enough to know the bytes.

They are known from the history. A byte is what the last change has put there,
and what a change puts does not depend on the changes before it: its range is
checked against the size, and no change alters that. So changes of ranges that
lie apart can be exchanged, for at any place one of the two puts nothing.
-/

namespace Rv32Soc

/-! ## Bytes of words -/

/-- The `n` lowest bytes of a word, the lowest first. -/
def lowBytes (n : Nat) (value : Word) : List Byte :=
  (List.range n).map (byteOf (n := 4) value)

@[simp]
theorem length_lowBytes (n : Nat) (value : Word) : (lowBytes n value).length = n := by
  simp [lowBytes]

/-- Of the bytes of a word that has been cut none is lost but those above the cut. -/
theorem disassemble_setWidth (n : Nat) (value : Word) :
    disassemble (n := n) (value.setWidth (8 * n)) = lowBytes n value := by
  apply List.map_congr_left
  intro i hi
  have hlt := List.mem_range.mp hi
  exact BitVec.extractLsb'_setWidth_of_le (by omega)

theorem toNat_assemble_extract {row : Array Byte} {start n : Nat} (h : start + n ≤ row.size) :
    (assemble row start n).toNat = littleEndian (row.extract start (start + n)).toList := by
  rw [toNat_assemble]
  congr 1
  apply List.ext_getElem
  · simp only [List.length_map, List.length_range, Array.length_toList, Array.size_extract]
    omega
  · intro i hi hi'
    simp only [List.length_map, List.length_range] at hi
    have hplace : start + i < row.size := by omega
    simp [hplace]

theorem extract_splice {row : Array Byte} {start : Nat} {bytes : List Byte}
    (h : start + bytes.length ≤ row.size) :
    (splice row start bytes).extract start (start + bytes.length) = bytes.toArray := by
  apply Array.ext_getElem?
  intro i
  rw [Array.getElem?_extract, getElem?_splice, size_splice, Nat.min_eq_left h]
  by_cases hi : i < bytes.length
  · rw [if_pos (by omega), if_pos (by omega), Nat.add_sub_cancel_left, List.getElem?_toArray]
  · rw [if_neg (by omega), List.getElem?_toArray, List.getElem?_eq_none (Nat.not_lt.mp hi)]

namespace Memory

variable {m m' : Memory}

theorem eq_of_bytes (hsize : m'.size = m.size) (h : ∀ j < m.size, m'.bytes[j]? = m.bytes[j]?) :
    m' = m := by
  refine congrArg mk (Array.ext_getElem? fun j => ?_)
  by_cases hj : j < m.size
  · exact h j hj
  · have hsizes : m'.bytes.size ≤ j ∧ m.bytes.size ≤ j := by
      rw [size, size] at hsize
      rw [size] at hj
      omega
    rw [Array.getElem?_eq_none hsizes.1, Array.getElem?_eq_none hsizes.2]

/-! ## Single accesses -/

/-- The bytes from an offset on are the given ones, and all others are as they were. -/
structure Overwritten (m m' : Memory) (offset : Word) (bytes : List Byte) : Prop where
  size : m'.size = m.size
  inside : m'.readBytes offset bytes.length = .ok bytes.toArray
  outside : ∀ j, j < offset.toNat ∨ offset.toNat + bytes.length ≤ j → m'.bytes[j]? = m.bytes[j]?

theorem overwritten_splice {offset : Word} {bytes : List Byte}
    (h : offset.toNat + bytes.length ≤ m.size) :
    m.Overwritten ⟨splice m.bytes offset.toNat bytes⟩ offset bytes where
  size := size_splice _ _ _
  inside := by
    have hsize : (⟨splice m.bytes offset.toNat bytes⟩ : Memory).size = m.size :=
      size_splice _ _ _
    rw [readBytes, if_pos (by rw [InRange, hsize]; exact h)]
    exact congrArg Except.ok (extract_splice h)
  outside j hj := by rw [getElem?_splice, if_neg (by omega)]

/-- How the accesses to a memory end. Each succeeds just if it lies inside, and one that fails
changes nothing. A run of bytes is that of the row, a word is the number that the run of its bytes
makes, and what has been written is read in either way. -/
structure Lawful (m : Memory) : Prop where
  readBytes : ∀ offset length,
    offset.toNat + length ≤ m.size
        ∧ (∃ bytes, m.readBytes offset length = .ok bytes ∧ bytes.size = length
          ∧ ∀ i < length, bytes[i]? = m.bytes[offset.toNat + i]?)
      ∨ m.size < offset.toNat + length
        ∧ m.readBytes offset length = .error (.outOfRange offset length m.size)
  read : ∀ w offset,
    offset.toNat + w.bytes ≤ m.size
        ∧ (∃ value bytes, m.read w offset = .ok value ∧ m.readBytes offset w.bytes = .ok bytes
          ∧ value.toNat = littleEndian bytes.toList)
      ∨ m.size < offset.toNat + w.bytes
        ∧ m.read w offset = .error (.outOfRange offset w.bytes m.size)
  writeBytes : ∀ offset bytes,
    offset.toNat + bytes.size ≤ m.size
        ∧ (∃ m', Memory.writeBytes offset bytes m = .ok () m'
          ∧ m.Overwritten m' offset bytes.toList)
      ∨ m.size < offset.toNat + bytes.size
        ∧ Memory.writeBytes offset bytes m = .error (.outOfRange offset bytes.size m.size) m
  write : ∀ w offset (value : Word),
    offset.toNat + w.bytes ≤ m.size
        ∧ (∃ m', Memory.write w offset (value.setWidth w.bits) m = .ok () m'
          ∧ m.Overwritten m' offset (lowBytes w.bytes value)
          ∧ ∃ v, m'.read w offset = .ok v ∧ v.toNat = value.toNat % 2 ^ w.bits)
      ∨ m.size < offset.toNat + w.bytes
        ∧ Memory.write w offset (value.setWidth w.bits) m
          = .error (.outOfRange offset w.bytes m.size) m

theorem lawful (m : Memory) : m.Lawful where
  readBytes offset length := by
    by_cases h : m.InRange offset length
    · have hinside : offset.toNat + length ≤ m.bytes.size := h
      refine .inl ⟨h, _, if_pos h, ?_, fun i hi => ?_⟩
      · rw [Array.size_extract, Nat.min_eq_left hinside, Nat.add_sub_cancel_left]
      · rw [Array.getElem?_extract, Nat.min_eq_left hinside, if_pos (by omega)]
    · exact .inr ⟨Nat.not_le.mp h, if_neg h⟩
  read w offset := by
    by_cases h : m.InRange offset w.bytes
    · exact .inl ⟨h, _, _, if_pos h, if_pos h, toNat_assemble_extract h⟩
    · exact .inr ⟨Nat.not_le.mp h, if_neg h⟩
  writeBytes offset bytes := by
    by_cases h : m.InRange offset bytes.size
    · exact .inl ⟨h, _, if_pos h, overwritten_splice h⟩
    · exact .inr ⟨Nat.not_le.mp h, if_neg h⟩
  write w offset value := by
    by_cases h : m.InRange offset w.bytes
    · let number : BitVec w.bits := value.setWidth w.bits
      let after : Memory := ⟨splice m.bytes offset.toNat (disassemble (n := w.bytes) number)⟩
      have hwritten : m.Overwritten after offset (lowBytes w.bytes value) := by
        rw [← disassemble_setWidth]
        exact overwritten_splice (by rw [length_disassemble]; exact h)
      have hread : after.read w offset = .ok number := by
        rw [read, if_pos (by rw [InRange, hwritten.size]; exact h)]
        exact congrArg Except.ok (assemble_splice number h)
      exact .inl ⟨h, after, if_pos h, hwritten, number, hread, BitVec.toNat_setWidth ..⟩
    · exact .inr ⟨Nat.not_le.mp h, if_neg h⟩

/-! ## Changes -/

/-- What can be done to a memory. -/
inductive Change where
  | write (w : Width) (offset value : Word)
  | writeBytes (offset : Word) (bytes : Array Byte)
  | clear

namespace Change

/-- The memory after a change, whether it succeeds or fails. -/
def apply : Change → Memory → Memory
  | write w offset value, m => stateAfter (Memory.write w offset (value.setWidth w.bits) m)
  | writeBytes offset bytes, m => stateAfter (Memory.writeBytes offset bytes m)
  | clear, m => m.cleared

/-- Where a change begins. -/
def start : Change → Nat
  | write _ offset _ | writeBytes offset _ => offset.toNat
  | clear => 0

/-- The bytes that a change lays over a memory of the given size. -/
def bytes (size : Nat) : Change → List Byte
  | write w _ value => lowBytes w.bytes value
  | writeBytes _ bytes => bytes.toList
  | clear => List.replicate size 0

/-- Where a change ends in a memory of the given size. -/
def stop (size : Nat) (c : Change) : Nat :=
  c.start + (c.bytes size).length

/-- The byte that a change puts at a place, if it lies inside and is about that place. -/
def put? (size : Nat) (c : Change) (j : Nat) : Option Byte :=
  if c.stop size ≤ size ∧ c.start ≤ j then (c.bytes size)[j - c.start]? else none

/-- The ranges of the two changes have no place in common. -/
def Apart (size : Nat) (c d : Change) : Prop :=
  c.stop size ≤ d.start ∨ d.stop size ≤ c.start

/-- Clearing a memory is laying zeros over all of it. -/
theorem splice_zeros (row : Array Byte) :
    splice row 0 (List.replicate row.size 0) = Array.replicate row.size 0 := by
  apply Array.ext_getElem?
  intro j
  rw [getElem?_splice, List.length_replicate, Array.getElem?_replicate, List.getElem?_replicate]
  by_cases hj : j < row.size
  · rw [if_pos (by omega), if_pos (by omega), if_pos hj]
  · rw [if_neg (by omega), if_neg hj, Array.getElem?_eq_none (Nat.not_lt.mp hj)]

theorem apply_eq (c : Change) (m : Memory) : c.apply m
    = if c.stop m.size ≤ m.size then ⟨splice m.bytes c.start (c.bytes m.size)⟩ else m := by
  cases c with
  | write w offset value =>
      rw [apply, Memory.write, disassemble_setWidth, stop, start, bytes, length_lowBytes]
      by_cases h : m.InRange offset w.bytes
      · exact (congrArg stateAfter (if_pos h)).trans (if_pos h).symm
      · exact (congrArg stateAfter (if_neg h)).trans (if_neg h).symm
  | writeBytes offset bytes =>
      by_cases h : m.InRange offset bytes.size
      · exact (congrArg stateAfter (if_pos h)).trans (if_pos h).symm
      · exact (congrArg stateAfter (if_neg h)).trans (if_neg h).symm
  | clear =>
      have hstop : clear.stop m.size ≤ m.size := by
        rw [stop, bytes, List.length_replicate, start, Nat.zero_add]
      rw [if_pos hstop]
      exact congrArg mk (splice_zeros m.bytes).symm

@[simp]
theorem size_apply (c : Change) (m : Memory) : (c.apply m).size = m.size := by
  rw [apply_eq]
  split
  · exact size_splice _ _ _
  · rfl

theorem getElem?_apply (c : Change) {j : Nat} (hj : j < m.size) :
    (c.apply m).bytes[j]? = (c.put? m.size j).or m.bytes[j]? := by
  rw [apply_eq, put?]
  by_cases hstop : c.stop m.size ≤ m.size
  · rw [if_pos hstop, getElem?_splice_or _ _ _ hj]
    simp only [hstop, true_and]
  · rw [if_neg hstop, if_neg (fun h => hstop h.1), Option.none_or]

theorem put?_eq_none {size : Nat} {c : Change} {j : Nat} (h : j < c.start ∨ c.stop size ≤ j) :
    c.put? size j = none := by
  rw [put?]
  split
  · next hin =>
      rw [stop] at h
      exact List.getElem?_eq_none (by omega)
  · rfl

/-- Of two changes of ranges apart one puts nothing at a place. -/
theorem Apart.put?_eq_none {size : Nat} {c d : Change} (h : c.Apart size d) (j : Nat) :
    c.put? size j = none ∨ d.put? size j = none := by
  rw [Apart] at h
  by_cases hj : j < d.start ∨ d.stop size ≤ j
  · exact .inr (Change.put?_eq_none hj)
  · exact .inl (Change.put?_eq_none (by omega))

theorem Apart.apply_comm {c d : Change} (h : c.Apart m.size d) :
    d.apply (c.apply m) = c.apply (d.apply m) := by
  apply eq_of_bytes
  · simp
  · intro j hj
    simp only [size_apply] at hj
    rw [getElem?_apply d (by rw [size_apply]; exact hj), getElem?_apply c hj,
      getElem?_apply c (by rw [size_apply]; exact hj), getElem?_apply d hj, size_apply, size_apply]
    obtain hnone | hnone := h.put?_eq_none j <;> simp [hnone]

end Change

/-! ## Histories -/

/-- The memory after some changes, one after the other. -/
def after (m : Memory) (changes : List Change) : Memory :=
  changes.foldl (fun m c => c.apply m) m

/-- The byte that the last of some changes has put at a place, if any of them has. -/
def lastPut? (size : Nat) (changes : List Change) (j : Nat) : Option Byte :=
  changes.reverse.findSome? (·.put? size j)

theorem lastPut?_cons (size : Nat) (c : Change) (rest : List Change) (j : Nat) :
    lastPut? size (c :: rest) j = (lastPut? size rest j).or (c.put? size j) := by
  rw [lastPut?, List.reverse_cons, List.findSome?_append, List.findSome?_cons]
  cases c.put? size j <;> rfl

theorem size_after (m : Memory) (changes : List Change) : (m.after changes).size = m.size := by
  induction changes generalizing m with
  | nil => rfl
  | cons c rest ih => exact (ih (c.apply m)).trans (c.size_apply m)

theorem getElem?_after (changes : List Change) {j : Nat} (hj : j < m.size) :
    (m.after changes).bytes[j]? = (lastPut? m.size changes j).or m.bytes[j]? := by
  induction changes generalizing m with
  | nil => rfl
  | cons c rest ih =>
      have hrest := ih (m := c.apply m) (by rw [Change.size_apply]; exact hj)
      rw [lastPut?_cons, Option.or_assoc, ← Change.getElem?_apply c hj]
      rw [Change.size_apply] at hrest
      exact hrest

/-- A memory obeys the laws of its accesses after any changes. It has the size it was made with;
each of its bytes is the one that the last change has put there, or has been there from the
beginning; and the next two changes can be exchanged where their ranges lie apart. -/
theorem views_agree (m : Memory) (changes : List Change) :
    (m.after changes).Lawful
      ∧ (m.after changes).size = m.size
      ∧ (∀ j < m.size, (m.after changes).bytes[j]? = (lastPut? m.size changes j).or m.bytes[j]?)
      ∧ ∀ c d : Change, c.Apart m.size d →
          m.after (changes ++ [c, d]) = m.after (changes ++ [d, c]) := by
  refine ⟨lawful _, size_after m changes, fun j hj => getElem?_after changes hj, ?_⟩
  intro c d h
  rw [after, after, List.foldl_append, List.foldl_append]
  exact Change.Apart.apply_comm (m := m.after changes) (by rw [size_after]; exact h)

/-- A word, a half-word over its last byte, and a run of bytes that is too long for its place. -/
def overlapping : List Change :=
  [.write .word 1 0x44332211, .write .halfword 4 0xbbaa, .writeBytes 6 #[7, 8, 9]]

theorem views_agree_overlapping :
    (4 < (zero 8).size ∧ ((zero 8).after overlapping).bytes[4]? = some 0xaa)
      ∧ (Change.write .halfword 3 1).Apart 8 (.writeBytes 5 #[2])
      ∧ (zero 8).after (overlapping ++ [.write .halfword 3 1, .writeBytes 5 #[2]])
        = (zero 8).after (overlapping ++ [.writeBytes 5 #[2], .write .halfword 3 1]) := by
  obtain ⟨-, -, hbytes, hexchange⟩ := views_agree (zero 8) overlapping
  have hplace : 4 < (zero 8).size := by decide
  have hapart : (Change.write .halfword 3 1).Apart 8 (.writeBytes 5 #[2]) := .inl (by decide)
  exact ⟨⟨hplace, hbytes 4 hplace⟩, hapart, hexchange _ _ hapart⟩

end Memory

end Rv32Soc
