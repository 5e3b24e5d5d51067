/-!
# Columns

A cell is filled with spaces up to the width of its column, counted in characters. A text wider
than the column is kept whole.
-/
namespace BoundaryTag.Text

/-- The text with spaces behind it. -/
def alignLeft (width : Nat) (text : String) : String :=
  text.pushn ' ' (width - text.length)

/-- The text with spaces in front of it. -/
def alignRight (width : Nat) (text : String) : String :=
  "".pushn ' ' (width - text.length) ++ text

end BoundaryTag.Text
