/-!
# Reading numbers

Numbers in arguments are natural numbers below a bound. They are written in
decimal, or where it is allowed in hexadecimal behind `0x` or `0X`. A plus sign
may stand before the digits, and there must be at least one digit.
-/

namespace Rv32Soc.Text

/-- The value of a digit in a radix up to sixteen. -/
def digit? (radix : Nat) (c : Char) : Option Nat :=
  let value :=
    if '0' ≤ c && c ≤ '9' then some (c.toNat - '0'.toNat)
    else if 'a' ≤ c && c ≤ 'f' then some (c.toNat - 'a'.toNat + 10)
    else if 'A' ≤ c && c ≤ 'F' then some (c.toNat - 'A'.toNat + 10)
    else none
  value.filter (· < radix)

/-- The number that a row of digits spells after the digits read so far. -/
def digits? (radix : Nat) (value : Nat) : List Char → Option Nat
  | [] => some value
  | c :: rest =>
      match digit? radix c with
      | some d => digits? radix (radix * value + d) rest
      | none => none

/-- A number below `bound` in the given radix, perhaps behind a plus sign. -/
def numeral? (radix bound : Nat) (text : List Char) : Option Nat :=
  let digits := match text with
    | '+' :: rest => rest
    | _ => text
  if digits.isEmpty then none else (digits? radix 0 digits).filter (· < bound)

/-- A number below `bound` in decimal. -/
def decimal? (bound : Nat) (text : List Char) : Option Nat :=
  numeral? 10 bound text

/-- A number below `bound` in decimal, or in hexadecimal behind `0x`. -/
def decimalOrHex? (bound : Nat) : List Char → Option Nat
  | '0' :: 'x' :: rest | '0' :: 'X' :: rest => numeral? 16 bound rest
  | text => numeral? 10 bound text

end Rv32Soc.Text
