import KeyManagement.Text.Hexadecimal
import KeyManagement.Text.Utf8

/-! # Percent-encoding

A percent sign and two hexadecimal digits stand for a byte; a percent sign without them
stands for itself. In a query a plus sign stands for a space.
-/

namespace KeyManagement.Percent

def hexDigit? (b : UInt8) : Option Nat := Hexadecimal.digit? (Char.ofNat b.toNat)

def decode : Bytes → Bytes
  | [] => []
  | b :: hi :: lo :: rest =>
    match b == 0x25, hexDigit? hi, hexDigit? lo with
    | true, some h, some l => .ofNat (h * 16 + l) :: decode rest
    | _, _, _ => b :: decode (hi :: lo :: rest)
  | b :: rest => b :: decode rest

/-- A path segment, if it decodes to a text. -/
def decodeSegment? (s : String) : Option String := Bytes.toText? (decode (Bytes.ofText s))

def decodeFormText (s : List Char) : String :=
  let spaced := String.ofList (s.map fun c => if c = '+' then ' ' else c)
  String.ofList (Text.ofBytesLenient (decode (Bytes.ofText spaced)))

/-- The names and values of a query; a name without an equals sign has an empty value. -/
def decodeQuery (query : String) : List (String × String) :=
  ((query.toList.splitOn '&').filter fun part => !part.isEmpty).map fun part =>
    (decodeFormText (part.takeWhile (· ≠ '=')),
      decodeFormText ((part.dropWhile (· ≠ '=')).drop 1))

end KeyManagement.Percent
