/-!
# Decimal fractions

Doubles with a fixed number of decimal places, rounded from their exact value.
-/
namespace BoundaryTag.Text

/-- The whole number nearest to a quotient; of two that are equally near, the even one. -/
def roundQuotient (numerator denominator : Nat) : Nat :=
  let quotient := numerator / denominator
  let rest := 2 * (numerator % denominator)
  if denominator < rest ∨ (rest = denominator ∧ quotient % 2 = 1) then quotient + 1 else quotient

/-- Denominator of the magnitudes of finite doubles. -/
def magnitudeUnit : Nat := 1 <<< 1075

/-- The magnitude of a finite double, in fractions of `magnitudeUnit`. -/
def magnitude (value : Float) : Nat :=
  let bits := value.toBits.toNat
  let exponent := (bits >>> 52) % 0x800
  let fraction := bits % 0x10000000000000
  if exponent = 0 then 2 * fraction else (0x10000000000000 + fraction) <<< exponent

/-- The magnitude of a finite double with a fixed number of decimal places. -/
def decimal (places : Nat) (value : Float) : String :=
  let scale := Nat.pow 10 places
  let scaled := roundQuotient (magnitude value * scale) magnitudeUnit
  let digits := toString (scaled % scale)
  s!"{scaled / scale}." ++ "".pushn '0' (places - digits.length) ++ digits

end BoundaryTag.Text
