import KeyManagement.Text.Hexadecimal
import KeyManagement.Text.Unprintable

/-! # Quoted text

Messages show a text between double quotes. Quotes, backslashes and the common controls
have short escapes, every other unprintable character is written as its code point in
braces, and the rest stands for itself.
-/

namespace KeyManagement.Text

def escape (c : Char) : String :=
  match c with
  | '\x00' => "\\0"
  | '\t' => "\\t"
  | '\n' => "\\n"
  | '\r' => "\\r"
  | '"' => "\\\""
  | '\\' => "\\\\"
  | c => if isUnprintable c then "\\u\x7b" ++ Hexadecimal.render c.toNat ++ "\x7d" else c.toString

/-- The text between double quotes, with escapes. -/
def quoted (s : String) : String :=
  "\"" ++ String.join (s.toList.map escape) ++ "\""

end KeyManagement.Text
