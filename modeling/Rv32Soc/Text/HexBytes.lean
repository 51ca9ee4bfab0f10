import Rv32Soc.Text.Numeral
import Rv32Soc.Word

/-!
# Bytes in hexadecimal

A sequence of bytes is written as two lower-case digits per byte with nothing
between them. The reader takes digits of either case and refuses everything
else, an odd number of digits included.
-/

namespace Rv32Soc.Text

/-- Two digits per byte, in the order of the bytes. -/
def hexBytes (bytes : Array Byte) : String :=
  String.ofList (bytes.toList.flatMap fun b => [(b.toNat / 16).digitChar, (b.toNat % 16).digitChar])

/-- Read back what `hexBytes` writes. -/
def hexBytes? (text : String) : Option (Array Byte) :=
  go #[] text.toList
where
  /-- Add the bytes that the digits spell to those read so far. -/
  go (bytes : Array Byte) : List Char → Option (Array Byte)
    | [] => some bytes
    | [_] => none
    | high :: low :: rest =>
        match digit? 16 high, digit? 16 low with
        | some h, some l => go (bytes.push (BitVec.ofNat 8 (16 * h + l))) rest
        | _, _ => none

end Rv32Soc.Text
