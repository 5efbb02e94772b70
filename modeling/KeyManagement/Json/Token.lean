import KeyManagement.Bytes
import KeyManagement.Json.Basic
import KeyManagement.Text.Decimal
import KeyManagement.Text.Hexadecimal

/-! # JSON tokens

A text is cut into punctuation and scalar values by a machine that looks at one byte at a
time. A number or a word ends where a byte follows that cannot be part of it.
-/

namespace KeyManagement.Json

inductive Token
  | beginObject
  | endObject
  | beginArray
  | endArray
  | colon
  | comma
  | scalar (value : Json)

/-- What a string is made of: bytes that stand for themselves, and escaped UTF-16 units. -/
inductive Piece
  | byte (b : UInt8)
  | unit (u : Nat)

/-- The UTF-8 encoding of a string. Surrogates count only in pairs. -/
def Piece.encode : List Piece → Option Bytes
  | [] => some []
  | .byte b :: rest => (b :: ·) <$> encode rest
  | .unit high :: rest =>
    if 0xd800 ≤ high ∧ high < 0xdc00 then
      match rest with
      | .unit low :: rest =>
        if 0xdc00 ≤ low ∧ low < 0xe000 then
          (Bytes.ofText (Char.ofNat (0x10000 + (high - 0xd800) * 0x400 + (low - 0xdc00))).toString
            ++ ·) <$> encode rest
        else none
      | _ => none
    else if 0xdc00 ≤ high ∧ high < 0xe000 then none
    else (Bytes.ofText (Char.ofNat high).toString ++ ·) <$> encode rest

def Piece.text? (pieces : List Piece) : Option String := (encode pieces).bind Bytes.toText?

inductive LexerMode
  | between
  | inNumber (reversed : List Char)
  | inWord (reversed : List Char)
  | inString (reversed : List Piece)
  | afterBackslash (reversed : List Piece)
  | inUnit (reversed : List Piece) (value digits : Nat)

structure Lexer where
  mode : LexerMode := .between
  reversed : List Token := []

namespace Lexer

def isNumberByte (c : Char) : Bool := c.isDigit || "+-.eE".toList.contains c

def dropDigits (s : List Char) : Option (List Char) :=
  match s with
  | c :: rest => if c.isDigit then some (rest.dropWhile Char.isDigit) else none
  | [] => none

/-- A fraction and an exponent, both optional, and nothing after them. -/
def isNumberTail (s : List Char) : Bool :=
  let afterFraction := match s with
    | '.' :: rest => dropDigits rest
    | _ => some s
  match afterFraction with
  | none => false
  | some [] => true
  | some (e :: rest) =>
    (e == 'e' || e == 'E') && dropDigits
      (match rest with
        | '+' :: rest | '-' :: rest => rest
        | _ => rest) == some []

/-- An integer has no leading zeros, and zero no sign. -/
def number? (literal : List Char) : Option Json :=
  let (negative, s) := match literal with
    | '-' :: rest => (true, rest)
    | _ => (false, literal)
  let digits := s.takeWhile Char.isDigit
  let tail := s.dropWhile Char.isDigit
  if digits.isEmpty || (1 < digits.length && digits.head? == some '0') then none
  else if tail.isEmpty && !(negative && digits == ['0']) then
    some (.integer (if negative then -(Decimal.value digits : Int) else Decimal.value digits))
  else if isNumberTail tail then some (.real (String.ofList literal))
  else none

def word? (letters : List Char) : Option Json :=
  if letters = "null".toList then some .null
  else if letters = "true".toList then some (.bool true)
  else if letters = "false".toList then some (.bool false)
  else none

/-- The byte that a letter after a backslash stands for. -/
def escaped? : Char → Option UInt8
  | '"' => some 0x22
  | '\\' => some 0x5c
  | '/' => some 0x2f
  | 'b' => some 0x08
  | 'f' => some 0x0c
  | 'n' => some 0x0a
  | 'r' => some 0x0d
  | 't' => some 0x09
  | _ => none

/-- Ends the number or word that is being read. -/
def settle (l : Lexer) : Option Lexer :=
  match l.mode with
  | .between => some l
  | .inNumber literal =>
    (number? literal.reverse).map fun v => ⟨.between, .scalar v :: l.reversed⟩
  | .inWord letters => (word? letters.reverse).map fun v => ⟨.between, .scalar v :: l.reversed⟩
  | _ => none

/-- Reads a byte outside of numbers, words and strings. -/
def start (tokens : List Token) (b : UInt8) : Option Lexer :=
  match Char.ofNat b.toNat with
  | ' ' | '\t' | '\n' | '\r' => some ⟨.between, tokens⟩
  | '\x7b' => some ⟨.between, .beginObject :: tokens⟩
  | '\x7d' => some ⟨.between, .endObject :: tokens⟩
  | '[' => some ⟨.between, .beginArray :: tokens⟩
  | ']' => some ⟨.between, .endArray :: tokens⟩
  | ':' => some ⟨.between, .colon :: tokens⟩
  | ',' => some ⟨.between, .comma :: tokens⟩
  | '"' => some ⟨.inString [], tokens⟩
  | c =>
    if c.isDigit || c == '-' then some ⟨.inNumber [c], tokens⟩
    else if c.isLower then some ⟨.inWord [c], tokens⟩
    else none

def step (l : Lexer) (b : UInt8) : Option Lexer :=
  let c := Char.ofNat b.toNat
  match l.mode with
  | .between => start l.reversed b
  | .inNumber literal =>
    if isNumberByte c then some { l with mode := .inNumber (c :: literal) }
    else l.settle.bind fun l => start l.reversed b
  | .inWord letters =>
    if c.isLower then some { l with mode := .inWord (c :: letters) }
    else l.settle.bind fun l => start l.reversed b
  | .inString pieces =>
    if c = '"' then some ⟨.between, .scalar (.string (Piece.text? pieces.reverse)) :: l.reversed⟩
    else if c = '\\' then some { l with mode := .afterBackslash pieces }
    else if b < 0x20 then none
    else some { l with mode := .inString (.byte b :: pieces) }
  | .afterBackslash pieces =>
    if c = 'u' then some { l with mode := .inUnit pieces 0 0 }
    else (escaped? c).map fun b => { l with mode := .inString (.byte b :: pieces) }
  | .inUnit pieces value digits =>
    (Hexadecimal.digit? c).map fun d =>
      if digits = 3 then { l with mode := .inString (.unit (value * 16 + d) :: pieces) }
      else { l with mode := .inUnit pieces (value * 16 + d) (digits + 1) }

end Lexer

/-- The tokens of a text. -/
def tokens? (text : Bytes) : Option (List Token) := do
  let l ← text.foldlM Lexer.step {}
  return (← l.settle).reversed.reverse

end KeyManagement.Json
