/-!
# Hexadecimal numbers

Offsets are shown as `0x` and lower-case digits, either as short as possible or filled with zeros
so that a column of them lines up.
-/
namespace BoundaryTag.Text

/-- Lower-case hexadecimal digits, most significant first, without leading zeros. -/
def hexDigits (number : Nat) : String :=
  String.ofList (Nat.toDigits 16 number)

/-- A number as `0x` and its hexadecimal digits. -/
def hex (number : Nat) : String :=
  "0x" ++ hexDigits number

/-- A hexadecimal number of at least `width` characters, zeros standing between `0x` and its
digits; a longer one keeps all its digits. -/
def hexFilled (width number : Nat) : String :=
  let digits := hexDigits number
  "0x" ++ "".pushn '0' (width - 2 - digits.length) ++ digits

end BoundaryTag.Text
