import Rv32Soc.Elf.File

/-!
# The header of an ELF file and its tables

Before anything of a file is used, its outer structure is checked in a fixed
order: the identification bytes, the rest of the header, the table of section
headers if there is one, the table of program headers if there is one. The
tables must have entries of the size of the class and lie inside the file.

Two counts may be too large for the header and then stand in the first section
header, whose fields are read one by one: the number of sections in its size
field, the number of program headers in its info field.
-/

namespace Rv32Soc.Elf

/-- The fields of a file header that matter. -/
structure Header where
  fileClass : Class
  order : ByteOrder
  type : Nat
  machine : Nat
  version : Nat
  entry : Nat
  /-- The place of the table of program headers, or zero. -/
  programs : Nat
  /-- The place of the table of section headers, or zero. -/
  sections : Nat
  programSize : Nat
  programCount : Nat
  sectionSize : Nat
  sectionCount : Nat
  deriving DecidableEq

/-- The bytes that every ELF file starts with. -/
def magic : List Byte := [0x7f, 0x45, 0x4c, 0x46]

/-- The class that a mark stands for. -/
def classOf (mark : Nat) : Except ParseError Class :=
  match mark with
  | 1 => .ok .elf32
  | 2 => .ok .elf64
  | found => .error (.unsupportedClass found)

/-- The byte order that a mark stands for. -/
def orderOf (mark : Nat) : Except ParseError ByteOrder :=
  match mark with
  | 1 => .ok .little
  | 2 => .ok .big
  | found => .error (.unsupportedByteOrder found)

/-- Read the sixteen identification bytes: magic, version, class and byte order, checked in this
order. -/
def identify (file : Array Byte) : Except ParseError (Class × ByteOrder) := do
  need file 0 16
  let mark (place : Nat) := (file.getD place 0).toNat
  if bytesAt file 0 4 ≠ magic then throw (.badMagic (bytesAt file 0 4))
  if mark 6 ≠ 1 then throw (.unsupportedVersion (mark 6))
  let fileClass ← classOf (mark 4)
  let order ← orderOf (mark 5)
  return (fileClass, order)

/-- Read the file header. -/
def Header.read (file : Array Byte) : Except ParseError Header := do
  let (fileClass, order) ← identify file
  need file 16 fileClass.headerBytes
  let a := fileClass.addressBytes
  let field := numberAt order file
  return {
    fileClass, order
    type := field 16 2
    machine := field 18 2
    version := field 20 4
    entry := field 24 a
    programs := field (24 + a) a
    sections := field (24 + 2 * a) a
    programSize := field (30 + 3 * a) 2
    programCount := field (32 + 3 * a) 2
    sectionSize := field (34 + 3 * a) 2
    sectionCount := field (36 + 3 * a) 2 }

/-! ## The first section header -/

/-- Check one after the other that fields of these sizes lie inside the file, from `start` on. -/
def needFields (file : Array Byte) (start : Nat) : List Nat → Except ParseError Unit
  | [] => .ok ()
  | size :: rest => do
      let stop ← fits (start + size)
      need file start stop
      needFields file stop rest

/-- The sizes of the fields of a section header. -/
def sectionFields (c : Class) : List Nat :=
  let a := c.addressBytes
  [4, 4, a, a, a, a, 4, 4, a, a]

/-- The size field and the info field of the first section header. -/
def firstSection (file : Array Byte) (h : Header) : Except ParseError (Nat × Nat) := do
  needFields file h.sections (sectionFields h.fileClass)
  let a := h.fileClass.addressBytes
  return (numberAt h.order file (h.sections + 8 + 3 * a) a,
    numberAt h.order file (h.sections + 12 + 4 * a) 4)

/-! ## The tables -/

/-- Check a table of `count` entries: the size of an entry is right, and the table lies inside
the file. -/
def needTable (file : Array Byte) (place count expected found : Nat) :
    Except ParseError Unit := do
  if found ≠ expected then throw (.badEntrySize expected found)
  let size ← fits (count * expected)
  let stop ← fits (place + size)
  need file place stop

/-- Check the table of section headers, if the header names one. -/
def needSections (file : Array Byte) (h : Header) : Except ParseError Unit := do
  if h.sections ≠ 0 then
    let count ← if h.sectionCount = 0 then (·.1) <$> firstSection file h
      else pure h.sectionCount
    needTable file h.sections count h.fileClass.sectionHeaderBytes h.sectionSize

/-- Check the table of program headers, if the header names one, and list the places of its
entries. -/
def programHeaders (file : Array Byte) (h : Header) : Except ParseError (List Nat) := do
  if h.programs = 0 then return []
  let count ← if h.programCount = 0xffff then (·.2) <$> firstSection file h
    else pure h.programCount
  needTable file h.programs count h.fileClass.programHeaderBytes h.programSize
  return (List.range count).map fun i => h.programs + i * h.fileClass.programHeaderBytes

/-- Check the outer structure of a file. The result is its header and the places of its program
headers. -/
def parse (file : Array Byte) : Except ParseError (Header × List Nat) := do
  let h ← Header.read file
  needSections file h
  let places ← programHeaders file h
  return (h, places)

end Rv32Soc.Elf
