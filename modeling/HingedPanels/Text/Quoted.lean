import HingedPanels.Text.Extending
import HingedPanels.Text.Unprintable

namespace HingedPanels.Text

def codePoint (c : Char) : String :=
  "\\u\x7b" ++ String.ofList (Nat.toDigits 16 c.toNat) ++ "\x7d"

def escape (c : Char) : String :=
  match c with
  | '\x00' => "\\0"
  | '\t' => "\\t"
  | '\r' => "\\r"
  | '\n' => "\\n"
  | '\'' => "\\'"
  | '\\' => "\\\\"
  | c => if extending.contains c || unprintable.contains c then codePoint c else c.toString

def quoted (c : Char) : String := "'" ++ escape c ++ "'"

end HingedPanels.Text
