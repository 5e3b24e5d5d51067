/-!
# Blanks, lines and words

A blank is a character with the Unicode property `White_Space`. A text is cut into lines at line
feeds and a line into words at blanks. A carriage return is itself a blank, so a line that ends in
one has the same words as the line without it.
-/
namespace BoundaryTag.Text

/-- Inclusive ranges of code points. -/
abbrev CodeRanges := List (Nat × Nat)

/-- Whether a character's code point lies in one of the ranges. -/
def CodeRanges.contains (ranges : CodeRanges) (char : Char) : Bool :=
  ranges.any fun range => range.1 ≤ char.toNat && char.toNat ≤ range.2

/-- Code points with the property `White_Space`. -/
def blankRanges : CodeRanges :=
  [(0x9, 0xD), (0x20, 0x20), (0x85, 0x85), (0xA0, 0xA0), (0x1680, 0x1680), (0x2000, 0x200A),
    (0x2028, 0x2029), (0x202F, 0x202F), (0x205F, 0x205F), (0x3000, 0x3000)]

/-- Whether a character separates words. -/
def isBlank (char : Char) : Bool :=
  blankRanges.contains char

/-- The pieces of a text between line feeds; nothing after a final line feed counts as a line. -/
def lines (text : List Char) : List (List Char) :=
  match text with
  | [] => []
  | first :: rest =>
    (first :: rest).takeWhile (· != '\n')
      :: lines (((first :: rest).dropWhile (· != '\n')).drop 1)
termination_by text.length
decreasing_by
  have shorter := (List.dropWhile_suffix (· != '\n') (l := first :: rest)).length_le
  simp only [List.length_drop, List.length_cons] at *
  omega

/-- The longest runs of characters that are not blank, in order. -/
def words (text : List Char) : List (List Char) :=
  match text with
  | [] => []
  | first :: rest =>
    if isBlank first then words rest
    else (first :: rest.takeWhile (!isBlank ·)) :: words (rest.dropWhile (!isBlank ·))
termination_by text.length
decreasing_by
  · simp
  · have shorter := (List.dropWhile_suffix (!isBlank ·) (l := rest)).length_le
    simp only [List.length_cons]
    omega

end BoundaryTag.Text
