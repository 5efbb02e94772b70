import KeyManagement.Json.Basic
import KeyManagement.Text.Decimal
import KeyManagement.Text.Quoted

/-! # Writing JSON

The compact form, in which only quotes, backslashes and control characters are escaped.
-/

namespace KeyManagement.Json

def escape (c : Char) : String :=
  match c with
  | '"' => "\\\""
  | '\\' => "\\\\"
  | '\x08' => "\\b"
  | '\x0c' => "\\f"
  | '\n' => "\\n"
  | '\r' => "\\r"
  | '\t' => "\\t"
  | c =>
    if c.toNat < 0x20 then
      let digits := Hexadecimal.render c.toNat
      "\\u" ++ String.ofList (List.replicate (4 - digits.length) '0') ++ digits
    else c.toString

def renderText (s : String) : String := "\"" ++ String.join (s.toList.map escape) ++ "\""

def renderInteger (n : Int) : String :=
  if 0 ≤ n then Decimal.render n.toNat else "-" ++ Decimal.render (-n).toNat

mutual

def render : Json → String
  | .null => "null"
  | .bool true => "true"
  | .bool false => "false"
  | .integer n => renderInteger n
  | .real literal => literal
  | .string s => renderText (s.getD "")
  | .array items => "[" ++ ",".intercalate (renderItems items) ++ "]"
  | .object members => "\x7b" ++ ",".intercalate (renderMembers members) ++ "\x7d"

def renderItems : List Json → List String
  | [] => []
  | item :: rest => render item :: renderItems rest

def renderMembers : List (Option String × Json) → List String
  | [] => []
  | (name, value) :: rest =>
    (renderText (name.getD "") ++ ":" ++ render value) :: renderMembers rest

end

end KeyManagement.Json
