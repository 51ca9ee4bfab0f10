import Rv32Soc.Memory
import Rv32Soc.Trap

/-!
# Memories on the bus

A RAM answers reads and writes of every width. A ROM answers the same reads
but refuses every write from the bus; its contents are put there from outside.
Both are a number of pages with a memory of just that size, and refuse an
access beyond their end.
-/

namespace Rv32Soc

/-- The number of bytes in a page. -/
def pageSize : Nat := 1024

/-- A memory that fills whole pages. -/
structure Storage where
  pages : Word
  memory : Memory

namespace Storage

/-- A storage of the given number of pages, all zero. -/
def ofPages (pages : Word) : Storage :=
  ⟨pages, Memory.zero (pages.toNat * pageSize)⟩

/-- Do something to the memory inside. -/
@[inline]
def onMemory {ε α : Type} (f : EStateM ε Memory α) : EStateM ε Storage α :=
  fun ⟨pages, memory⟩ =>
    match f memory with
    | .ok a memory => .ok a ⟨pages, memory⟩
    | .error e memory => .error e ⟨pages, memory⟩

/-- Answer a load. -/
def read (s : Storage) (w : Width) (offset : Word) : Except AddressTrap (BitVec w.bits) :=
  match s.memory.read w offset with
  | .ok value => .ok value
  | .error _ => .error ⟨.loadAccessFault, offset⟩

/-- Answer a store, where stores are allowed. -/
def write (w : Width) (offset : Word) (value : BitVec w.bits) :
    EStateM AddressTrap Storage Unit :=
  fun ⟨pages, memory⟩ =>
    match Memory.write w offset value memory with
    | .ok () memory => .ok () ⟨pages, memory⟩
    | .error _ memory => .error ⟨.storeAccessFault, offset⟩ ⟨pages, memory⟩

/-- Write a run of bytes from outside. -/
def program (offset : Word) (bytes : Array Byte) : EStateM MemoryError Storage Unit :=
  onMemory (Memory.writeBytes offset bytes)

/-- The storage with every byte back at zero. -/
def cleared (s : Storage) : Storage :=
  { s with memory := s.memory.cleared }

end Storage

end Rv32Soc
