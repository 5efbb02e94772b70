import KeyManagement.Number.Binary64

/-! # Number literals

An integer is a sign and digits. A real number may also have a fraction, with digits on at
least one side of the point, and an exponent, or it is infinite, or not a number; these
words are read in any case.
-/

namespace KeyManagement.Literal

/-- Whether there is a minus sign, and what follows the sign. -/
def splitSign : List Char → Bool × List Char
  | '-' :: s => (true, s)
  | '+' :: s => (false, s)
  | s => (false, s)

def natural? (digits : List Char) : Option Nat :=
  if !digits.isEmpty && digits.all Char.isDigit then some (Decimal.value digits) else none

def integer? (s : List Char) : Option Int := do
  let (negative, digits) := splitSign s
  let n ← natural? digits
  return if negative then -n else n

/-- Reads an integer of 64 bits. -/
def int64? (s : String) : Option Int :=
  (integer? s.toList).filter fun n => -0x8000000000000000 ≤ n && n < 0x8000000000000000

def exponent? : List Char → Option Int
  | [] => some 0
  | 'e' :: s | 'E' :: s => integer? s
  | _ => none

def fraction : List Char → List Char × List Char
  | '.' :: s => s.span Char.isDigit
  | s => ([], s)

def binary64? (s : String) : Option Binary64 := do
  let (negative, body) := splitSign s.toList
  match (String.ofList body).toLower with
  | "nan" => return .nan
  | "inf" | "infinity" => return .infinite negative
  | _ =>
    let (whole, rest) := body.span Char.isDigit
    let (fraction, rest) := fraction rest
    let digits ← natural? (whole ++ fraction)
    let exponent ← exponent? rest
    return .ofDecimal negative digits (exponent - fraction.length)

end KeyManagement.Literal
