/-!
# Numbers in text

Numbers are written in decimal or in hexadecimal, with or without leading
zeros. Every text of the library that shows a number goes through this
module, so a number's spelling is decided once. They are lists of characters
first and strings last, which is the form that can be reasoned about.
-/

namespace Rv32Soc.Text

/-- Put `fill` before `text` until it has `width` characters. -/
def padLeft (width : Nat) (fill : Char) (text : List Char) : List Char :=
  List.replicate (width - text.length) fill ++ text

/-- Put blanks behind `text` until it has `width` characters. -/
def padRight (width : Nat) (text : List Char) : List Char :=
  text ++ List.replicate (width - text.length) ' '

/-- A natural number in decimal. -/
def decimal (n : Nat) : String :=
  String.ofList (Nat.toDigits 10 n)

/-- An integer in decimal, with a minus sign when it is negative. -/
def signed : Int → String
  | .ofNat n => decimal n
  | .negSucc n => "-" ++ decimal (n + 1)

/-- The lower-case hexadecimal digits of a number, at least `width` of them. -/
def hexPadded (width n : Nat) : String :=
  String.ofList (padLeft width '0' (Nat.toDigits 16 n))

/-- The lower-case hexadecimal digits of a number, without leading zeros. -/
def hex (n : Nat) : String :=
  hexPadded 0 n

/-- The upper-case hexadecimal digits of a number, without leading zeros. -/
def hexUpper (n : Nat) : String :=
  String.ofList ((Nat.toDigits 16 n).map Char.toUpper)

/-- Eight hexadecimal digits, as words are shown. -/
def word {n : Nat} (value : BitVec n) : String :=
  hexPadded 8 value.toNat

/-- A word behind `0x`, as addresses are shown. -/
def address {n : Nat} (value : BitVec n) : String :=
  "0x" ++ word value

end Rv32Soc.Text
