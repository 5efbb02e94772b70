/-! # Decimal numerals

Natural numbers in base ten. A numeral is written without leading zeros; when it is read,
leading zeros change nothing.
-/

namespace KeyManagement.Decimal

def digitValue (c : Char) : Nat := c.toNat - '0'.toNat

def digit? (c : Char) : Option Nat := if c.isDigit then some (digitValue c) else none

/-- The number that a run of digits denotes. -/
def value (digits : List Char) : Nat := digits.foldl (fun n c => n * 10 + digitValue c) 0

/-- Reads one or more ASCII digits and nothing else. -/
def parse? (s : String) : Option Nat :=
  if !s.isEmpty && s.toList.all Char.isDigit then some (value s.toList) else none

/-- Ten to some power. -/
def power (n : Nat) : Nat := Nat.pow 10 n

def render (n : Nat) : String := String.ofList (Nat.toDigits 10 n)

end KeyManagement.Decimal
