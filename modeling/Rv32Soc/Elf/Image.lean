import Rv32Soc.Elf.Header
import Rv32Soc.Journal

/-!
# Executable images

Of an ELF file the machine needs the entry point and the loadable segments,
each with its address, its bytes and the size that it takes in memory. The
file must be a 32-bit executable for RISC-V of the current version, and every
program header must have one of the standard types; those that are not
loadable are passed over.

The checks of the file come first, in the order class, type, machine, version;
then each program header in turn, in the order type, sizes, end in memory,
bytes in the file. The first check that fails decides.
-/

namespace Rv32Soc.Elf

/-- Why a file is no executable image. -/
inductive Error where
  /-- The file could not be read at all. -/
  | unreadable (reason : String)
  | parse (error : ParseError)
  | notElf32
  | notExecutable (type : Nat)
  | notRiscV (machine : Nat)
  | unsupportedVersion (version : Nat)
  | unknownSegmentType (type : Nat)
  | fileSizeExceedsMemorySize (address : Word) (fileSize memorySize : Nat)
  | segmentBeyondAddressSpace (address : Word) (memorySize : Nat)
  deriving DecidableEq

/-- The text of an error. -/
def Error.message : Error → String
  | unreadable reason => "could not read ELF file: " ++ reason
  | parse error => "invalid ELF file: " ++ error.message
  | notElf32 => "expected a 32-bit ELF file"
  | notExecutable type => "ELF file type " ++ Text.decimal type ++ " is not an executable"
  | notRiscV machine => "ELF machine 0x" ++ Text.hex machine ++ " is not RISC-V"
  | unsupportedVersion version => "unsupported ELF version " ++ Text.decimal version
  | unknownSegmentType type => "unknown program header type 0x" ++ Text.hex type
  | fileSizeExceedsMemorySize address fileSize memorySize =>
      "segment at " ++ Text.address address ++ ": file size " ++ Text.decimal fileSize
        ++ " > memory size " ++ Text.decimal memorySize
  | segmentBeyondAddressSpace address memorySize =>
      "segment at " ++ Text.address address ++ " of " ++ Text.decimal memorySize
        ++ " bytes extends past the end of memory"

/-- A loadable segment. In a file its memory is never smaller than its data. -/
structure Segment where
  type : Word
  base : Word
  memorySize : Word
  data : Array Byte
  deriving DecidableEq

/-- The part of an executable that the machine needs. -/
structure Image where
  entry : Word
  /-- The loadable segments in the order of the file. -/
  segments : List Segment
  deriving DecidableEq

/-! ## Program headers -/

/-- The fields of a program header that matter. -/
structure ProgramHeader where
  type : Nat
  offset : Nat
  address : Nat
  fileSize : Nat
  memorySize : Nat
  deriving DecidableEq

/-- Read the program header at a place of a 32-bit file. -/
def ProgramHeader.read (order : ByteOrder) (file : Array Byte) (place : Nat) : ProgramHeader :=
  let field (i : Nat) := numberAt order file (place + 4 * i) 4
  { type := field 0, offset := field 1, address := field 2, fileSize := field 4,
    memorySize := field 5 }

/-- The type of loadable segments. -/
def loadableType : Nat := 1

/-- The last of the standard types. -/
def lastStandardType : Nat := 6

/-- The loadable segment of a program header, once it is known to be one. -/
def ProgramHeader.segment (p : ProgramHeader) (file : Array Byte) : Except Error Segment := do
  let address := BitVec.ofNat 32 p.address
  if p.fileSize > p.memorySize then
    throw (.fileSizeExceedsMemorySize address p.fileSize p.memorySize)
  if p.address + p.memorySize > wordCount then
    throw (.segmentBeyondAddressSpace address p.memorySize)
  match need file p.offset (p.offset + p.fileSize) with
  | .error e => throw (.parse e)
  | .ok () =>
      return {
        type := BitVec.ofNat 32 p.type
        base := address
        memorySize := BitVec.ofNat 32 p.memorySize
        data := file.extract p.offset (p.offset + p.fileSize) }

/-- The loadable segments among program headers. What is passed over is written down, also when
a later header is refused. -/
def readSegments (file : Array Byte) : List ProgramHeader → EStateM Error Journal (List Segment)
  | [] => pure []
  | p :: rest => do
      if p.type > lastStandardType then throw (.unknownSegmentType p.type)
      if p.type = loadableType then
        match p.segment file with
        | .error e => throw e
        | .ok s => return s :: (← readSegments file rest)
      else
        modify fun journal =>
          journal.note (.segmentSkipped (BitVec.ofNat 32 p.type) (BitVec.ofNat 32 p.address))
        readSegments file rest

/-! ## Images -/

/-- The checks that concern the file as a whole. -/
def Header.check (h : Header) : Except Error Unit := do
  if h.fileClass ≠ .elf32 then throw .notElf32
  if h.type ≠ 2 then throw (.notExecutable h.type)
  if h.machine ≠ 0xf3 then throw (.notRiscV h.machine)
  if h.version ≠ 1 then throw (.unsupportedVersion h.version)

/-- Read an image and write down what is passed over. -/
def Image.read (file : Array Byte) : EStateM Error Journal Image :=
  match parse file with
  | .error e => throw (.parse e)
  | .ok (h, places) =>
      match h.check with
      | .error e => throw e
      | .ok () => do
          let segments ← readSegments file (places.map (ProgramHeader.read h.order file))
          return ⟨BitVec.ofNat 32 h.entry, segments⟩

/-- The image in a file. -/
def Image.ofFile (file : Array Byte) : Except Error Image :=
  match Image.read file {} with
  | .ok image _ => .ok image
  | .error e _ => .error e

end Rv32Soc.Elf
