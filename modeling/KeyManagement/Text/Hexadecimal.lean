/-! # Hexadecimal numerals

Natural numbers in base sixteen, written in small letters and read in either case.
-/

namespace KeyManagement.Hexadecimal

def digit? (c : Char) : Option Nat :=
  if c.isDigit then some (c.toNat - '0'.toNat)
  else if 'a' ≤ c ∧ c ≤ 'f' then some (c.toNat - 'a'.toNat + 10)
  else if 'A' ≤ c ∧ c ≤ 'F' then some (c.toNat - 'A'.toNat + 10)
  else none

/-- The number that some digits denote, zero if there are none. -/
def value? (digits : List Char) : Option Nat :=
  digits.foldlM (fun n c => (digit? c).map (n * 16 + ·)) 0

def render (n : Nat) : String := String.ofList (Nat.toDigits 16 n)

end KeyManagement.Hexadecimal
