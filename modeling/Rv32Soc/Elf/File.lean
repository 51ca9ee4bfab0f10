import Rv32Soc.Text.Number
import Rv32Soc.Word

/-!
# Reading from an ELF file

A file is a row of bytes, and what it holds is named by places in it. Two
marks at its beginning decide how the rest is read: the class, which makes
addresses and offsets four or eight bytes wide, and the byte order of all
numbers. Places are natural numbers here; that the format computes them in 64
bits shows only in an overflow, which is an error of its own.
-/

namespace Rv32Soc.Elf

/-- Why the outer structure of a file cannot be read. -/
inductive ParseError where
  | badMagic (found : List Byte)
  | unsupportedVersion (found : Nat)
  | unsupportedClass (found : Nat)
  | unsupportedByteOrder (found : Nat)
  /-- The file does not reach from `start` to before `stop`. -/
  | outOfBounds (start stop : Nat)
  | badEntrySize (expected found : Nat)
  | overflow
  deriving DecidableEq

/-- The text of an error. -/
def ParseError.message : ParseError → String
  | badMagic found =>
      "Invalid Magic Bytes: ["
        ++ ", ".intercalate (found.map fun b => Text.hexUpper b.toNat) ++ "]"
  | unsupportedVersion found =>
      "Unsupported ELF Version field found: " ++ Text.decimal found ++ " expected: 1"
  | unsupportedClass found => "Unsupported ELF Class: " ++ Text.decimal found
  | unsupportedByteOrder found => "Unsupported ELF Endianness: " ++ Text.decimal found
  | outOfBounds start stop =>
      "Could not read bytes in range [0x" ++ Text.hexUpper start ++ ", 0x"
        ++ Text.hexUpper stop ++ ")"
  | badEntrySize expected found =>
      "Invalid entsize. Expected: 0x" ++ Text.hexUpper expected ++ ", Found: 0x"
        ++ Text.hexUpper found
  | overflow => "Integer overflow detected"

/-! ## Class and byte order -/

/-- The class of a file. -/
inductive Class where
  | elf32
  | elf64
  deriving DecidableEq

namespace Class

/-- The number of bytes of an address or an offset. -/
def addressBytes : Class → Nat
  | elf32 => 4
  | elf64 => 8

/-- The number of bytes of the file header. -/
def headerBytes : Class → Nat
  | elf32 => 52
  | elf64 => 64

/-- The number of bytes of an entry of the table of program headers. -/
def programHeaderBytes : Class → Nat
  | elf32 => 32
  | elf64 => 56

/-- The number of bytes of an entry of the table of section headers. -/
def sectionHeaderBytes : Class → Nat
  | elf32 => 40
  | elf64 => 64

end Class

/-- Whether the first byte of a number is its lowest or its highest. -/
inductive ByteOrder where
  | little
  | big
  deriving DecidableEq

/-- The number that bytes spell. -/
def ByteOrder.number : ByteOrder → List Byte → Nat
  | little, bytes => bytes.foldr (fun b n => b.toNat + 256 * n) 0
  | big, bytes => bytes.foldl (fun n b => 256 * n + b.toNat) 0

/-! ## Places -/

/-- The `length` bytes from `start` on, as far as there are any. -/
def bytesAt (file : Array Byte) (start length : Nat) : List Byte :=
  (file.extract start (start + length)).toList

/-- The number in the `length` bytes from `start` on. -/
def numberAt (order : ByteOrder) (file : Array Byte) (start length : Nat) : Nat :=
  order.number (bytesAt file start length)

/-- Check that the file reaches from `start` to before `stop`. -/
def need (file : Array Byte) (start stop : Nat) : Except ParseError Unit :=
  if start ≤ file.size ∧ stop ≤ file.size then .ok () else .error (.outOfBounds start stop)

/-- The number of different 64-bit numbers. Places in a file are numbers below it. -/
def placeCount : Nat := 0x10000000000000000

/-- A sum or product that must fit in 64 bits. -/
def fits (n : Nat) : Except ParseError Nat :=
  if n < placeCount then .ok n else .error .overflow

end Rv32Soc.Elf
