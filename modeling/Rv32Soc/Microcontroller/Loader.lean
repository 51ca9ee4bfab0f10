import Rv32Soc.Elf.Image
import Rv32Soc.Microcontroller.Basic

/-!
# Loading an image

An image replaces the contents of ROM and RAM. Each segment goes to the memory
that its base address lies in and must lie in it as a whole, counting the
larger of its data and its memory size. All segments are checked before any
byte is written, so an image is placed wholly or not at all. Both memories are
cleared first; that also supplies what a segment has in memory beyond its
data. Segments are written in order, and a later one covers an earlier.
-/

namespace Rv32Soc

open Elf (Image Segment)

/-- The two memories that a segment can go to. -/
inductive Region where
  | rom
  | ram
  deriving DecidableEq

namespace Region

/-- The name of a memory. -/
def name : Region → String
  | rom => "ROM"
  | ram => "RAM"

/-- The slot of a memory. -/
def slot : Region → Nat
  | rom => romSlot
  | ram => ramSlot

/-- The first address of a memory. -/
def base : Region → Word
  | rom => romBase
  | ram => ramBase

end Region

/-- Why an image cannot be placed. -/
inductive LoaderError where
  | segmentSpansRegions (base : Word) (stop : Nat)
  | segmentOutsideMemory (base : Word) (stop : Nat)
  | segmentTooLarge (base : Word) (stop size : Nat) (region : Region)
  /-- A write into a memory failed after all checks. -/
  | write (base : Word) (error : MemoryError)
  deriving DecidableEq

/-- The text of a refusal. -/
def LoaderError.message : LoaderError → String
  | segmentSpansRegions base stop => "segment " ++ extent base stop ++ " spans ROM and RAM"
  | segmentOutsideMemory base stop =>
      "segment " ++ extent base stop ++ " is outside both ROM and RAM"
  | segmentTooLarge base stop size region =>
      "segment " ++ extent base stop ++ " does not fit in " ++ Text.decimal size ++ " bytes of "
        ++ region.name
  | write base error =>
      "could not write segment at " ++ Text.address base ++ ": " ++ error.message
where
  /-- The first address of a segment and the one behind it. -/
  extent (base : Word) (stop : Nat) : String :=
    Text.address base ++ "-0x" ++ Text.hexPadded 8 stop

/-! ## Placing -/

/-- The memory that a segment of `length` bytes goes to. Its base decides, and its end must not
lie beyond the part of the address space that belongs to the memory. -/
def regionOf (base : Word) (length : Nat) : Except LoaderError Region :=
  let stop := base.toNat + length
  if base < ramBase then
    if stop > ramBase.toNat then .error (.segmentSpansRegions base stop) else .ok .rom
  else if base < ramTop ∧ stop ≤ ramTop.toNat then .ok .ram
  else .error (.segmentOutsideMemory base stop)

/-- The number of bytes that a segment takes: its memory, or its data if that is more. -/
def Elf.Segment.extent (s : Segment) : Nat :=
  max s.data.size s.memorySize.toNat

/-- A segment with its place. -/
structure Placement where
  region : Region
  offset : Word
  segment : Segment

/-- The place of a segment, given the sizes of the memories. -/
def placement (size : Region → Nat) (s : Segment) : Except LoaderError Placement := do
  let region ← regionOf s.base s.extent
  let offset := s.base - region.base
  if offset.toNat + s.extent > size region then
    throw (.segmentTooLarge s.base (s.base.toNat + s.extent) (size region) region)
  return ⟨region, offset, s⟩

namespace Microcontroller

variable {ε : Type} [Peripheral ε]

/-- The size of a memory in bytes. -/
def regionSize (m : Microcontroller ε) : Region → Nat
  | .rom => m.rom.size
  | .ram => m.ram.size

/-- Write placed segments in order. -/
def writeAll : List Placement → EStateM LoaderError (Bus ε) Unit
  | [] => pure ()
  | p :: rest => do
      modify fun b => b.note (.segmentPlaced p.segment.base p.segment.data.size)
      writeOne p
      writeAll rest
where
  /-- Write one segment. -/
  writeOne (p : Placement) : EStateM LoaderError (Bus ε) Unit := fun b =>
    let absent := MemoryError.outOfRange p.offset p.segment.data.size 0
    match Bus.visit p.region.slot (Device.program p.offset p.segment.data) absent b with
    | .ok () b => .ok () b
    | .error e b => .error (.write p.segment.base e) b

/-- Replace the contents of ROM and RAM by the segments of an image. -/
def load (image : Image) : EStateM LoaderError (Microcontroller ε) Unit := fun m =>
  match image.segments.mapM (placement m.regionSize) with
  | .error e => .error e m
  | .ok placements =>
      let b := (m.hart.bus.update romSlot Device.cleared).update ramSlot Device.cleared
      match writeAll placements b with
      | .ok () b =>
          let b := b.note (.imageLoaded image.segments.length image.entry)
          .ok () { m with hart := { m.hart with bus := b } }
      | .error e b => .error e { m with hart := { m.hart with bus := b } }

/-- Read an image from a file, and write down in the journal what is passed over. -/
def readImage (file : Array Byte) : EStateM Elf.Error (Microcontroller ε) Image := fun m =>
  match Image.read file m.hart.bus.journal with
  | .ok image journal => .ok image (m.onBus ({ · with journal }))
  | .error e journal => .error e (m.onBus ({ · with journal }))

end Microcontroller

end Rv32Soc
