/-!
# Utilization

The share of one number in another as a double.
-/
namespace BoundaryTag

/-- The quotient of two machine words, each rounded to a double first; zero when the whole is zero.
-/
def utilization (part whole : Nat) : Float :=
  if whole = 0 then 0 else (UInt64.ofNat part).toFloat / (UInt64.ofNat whole).toFloat

end BoundaryTag
