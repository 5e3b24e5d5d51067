/-!
# Numerals

Two grammars over ASCII digits: natural numbers, which are read, and real numbers, which are only
recognised.
-/
namespace BoundaryTag.Text

/-- Whether a text is a nonempty run of decimal digits. -/
def isDigits (text : List Char) : Bool :=
  !text.isEmpty && text.all Char.isDigit

/-- Value of a run of decimal digits, most significant first. -/
def digitsValue (digits : List Char) : Nat :=
  digits.foldl (fun value digit => 10 * value + (digit.toNat - '0'.toNat)) 0

/-- The number written by decimal digits, which a plus sign may precede. -/
def natural? (text : List Char) : Option Nat :=
  let digits := match text with
    | '+' :: rest => rest
    | digits => digits
  if isDigits digits then some (digitsValue digits) else none

/-- A text without its leading sign, if it has one. -/
def dropSign (text : List Char) : List Char :=
  match text with
  | '+' :: rest => rest
  | '-' :: rest => rest
  | rest => rest

/-- Whether a text is empty or a decimal exponent. -/
def isExponent (text : List Char) : Bool :=
  match text with
  | [] => true
  | mark :: rest => (mark == 'e' || mark == 'E') && isDigits (dropSign rest)

/-- Whether a text is an unsigned decimal number. Digits may be missing before or after the point,
but not on both sides. -/
def isUnsignedDecimal (text : List Char) : Bool :=
  let whole := text.takeWhile Char.isDigit
  match text.dropWhile Char.isDigit with
  | '.' :: rest =>
    (!whole.isEmpty || !(rest.takeWhile Char.isDigit).isEmpty)
      && isExponent (rest.dropWhile Char.isDigit)
  | rest => !whole.isEmpty && isExponent rest

/-- Names of the numbers that digits cannot write, in lower case. -/
def namedReals : List String :=
  ["inf", "infinity", "nan"]

/-- Whether a text writes a real number: a decimal number, or infinity or not-a-number by name in
any case, each with an optional sign. -/
def isReal (text : List Char) : Bool :=
  let unsigned := dropSign text
  namedReals.contains (String.ofList (unsigned.map Char.toLower)) || isUnsignedDecimal unsigned

end BoundaryTag.Text
