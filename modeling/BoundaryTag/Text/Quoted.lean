import BoundaryTag.Text.Hex
import BoundaryTag.Text.Pictured

/-!
# Quoted text

A quoted text stands between double quotes on one line, and every character of it can be read off
the page: quotes and backslashes are escaped, and so is each character without a picture.
-/
namespace BoundaryTag.Text

/-- One character as it stands between double quotes. -/
def quotedChar (char : Char) : String :=
  match char with
  | '"' => "\\\""
  | '\\' => "\\\\"
  | '\x00' => "\\0"
  | '\t' => "\\t"
  | '\n' => "\\n"
  | '\r' => "\\r"
  | _ =>
    if isPictured char then char.toString
    else "\\u\x7b" ++ hexDigits char.toNat ++ "\x7d"

/-- A text between double quotes. -/
def quoted (text : List Char) : String :=
  "\"" ++ String.join (text.map quotedChar) ++ "\""

end BoundaryTag.Text
